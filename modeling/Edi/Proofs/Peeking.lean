import Edi.Proofs.Ending
import Edi.Proofs.Scanner.Alike

namespace Edi

def Remainder.unread (r : Remainder) : List Char := r.leftover ++ r.source.unread

/-- The same is left unread, but more or less of it may be buffered. -/
structure Remainder.Like (a b : Remainder) : Prop where
  unread : b.unread = a.unread
  offset : b.offset = a.offset
  leftover : a.leftover <+: b.leftover ∨ b.leftover <+: a.leftover

namespace Cursor

variable {k k' : Cursor} {cs : List Char} {n : Nat}

theorem Bears.unread (h : k.Bears Source.Brings cs) : k.remainder.unread = cs := by
  obtain ⟨rest, hs, hc, -⟩ := h
  rw [← hc, ← hs.unread]
  rfl

theorem LevelBy.like (h : k.LevelBy Source.Brings 0 k') : k.remainder.Like k'.remainder := by
  obtain ⟨⟨cs, hk, hk'⟩, ho, -⟩ := h
  refine ⟨hk'.unread.trans hk.unread.symm, ho, ?_⟩
  have hp {j : Cursor} (hj : j.Bears Source.Brings cs) : j.ahead <+: cs := by
    obtain ⟨rest, -, hc, -⟩ := hj
    exact ⟨rest, hc⟩
  exact List.prefix_or_prefix_of_prefix (hp hk) (hp hk')

end Cursor

namespace Scanner

variable {t u : Scanner} {k : Cursor} {op : Operation} {ops : List Operation}

/-- From outside the scanners look the same, but that either may have more buffered. -/
structure LooksLike (t u : Scanner) : Prop where
  remainder : t.remainder.Like u.remainder
  delimiters : u.delimiters = t.delimiters
  segmentCount : u.segmentCount = t.segmentCount
  lastSegmentText : u.lastSegmentText = t.lastSegmentText
  rawText (span : Span) : u.rawText span = t.rawText span

theorem looksLike (h : t.cursor.LevelBy Source.Brings 0 k) : t.LooksLike { t with cursor := k } :=
  ⟨h.like, rfl, rfl, rfl, fun _ ↦ rfl⟩

theorem Alike.looksLike (h : t.Alike u) : t.LooksLike u := by
  obtain ⟨k, hk, rfl⟩ := h
  exact Scanner.looksLike hk.level

def Operation.Answer : Operation → Type
  | .next => Except Error (Option Char)
  | .back => Except Error Unit
  | .lookahead _ => Except Error (List Char)
  | .token => Except Error Token
  | .simpleValue => Except Error (Option String)
  | .compositeElement => Except Error (Option (List (List String)))
  | .segment => Except Error (Option Segment)
  | .skipBlank => Except Error Bool
  | .handOff .. => Remainder

def answer (t : Scanner) : (op : Operation) → op.Answer
  | .next => t.next.1
  | .back => t.back.1
  | .lookahead n => (t.lookahead n).1
  | .token => t.token.1
  | .simpleValue => t.simpleValue.1
  | .compositeElement => t.compositeElement.1
  | .segment => t.segment.1
  | .skipBlank => t.skipBlank.1
  | .handOff .. => t.remainder

def Operation.Like : (op : Operation) → op.Answer → op.Answer → Prop
  | .handOff .., a, b => Remainder.Like a b
  | _, a, b => a = b

theorem handOff_alike (delimiters : Delimiters) (limits : Limits)
    (h : t.cursor.LevelBy Source.Brings 0 k) :
    (ofRemainder delimiters limits t.remainder).Alike
      (ofRemainder delimiters limits { t with cursor := k }.remainder) := by
  obtain ⟨⟨cs, hk, hk'⟩, ho, -⟩ := h
  have hs {j : Cursor} (hj : j.Bears Source.Brings cs) :
      (Cursor.ofRemainder limits.bufferCapacity j.remainder).Bears Source.Brings cs := by
    obtain ⟨rest, hr, hc, -⟩ := hj
    exact ⟨rest, hr, hc, by simp [Cursor.ofRemainder]⟩
  refine ⟨.ofRemainder limits.bufferCapacity k.remainder,
    ⟨⟨cs, hs hk, hs hk'⟩, ho, rfl, LastRead.noConfusion⟩, ?_⟩
  simp only [ofRemainder, remainder, Cursor.remainder]
  rw [show k.offset = t.cursor.offset from ho]

theorem Alike.perform (h : t.Alike u) (op : Operation) :
    op.Like (t.answer op) (u.answer op) ∧ (t.perform op).Alike (u.perform op) := by
  have hid {α : Type} (a : α) : id a = a := rfl
  cases op with
  | next => exact (h.next.of_zero hid).pair
  | back => exact (h.back.of_zero hid).pair
  | lookahead n => exact (h.lookahead n).pair
  | token => exact h.token.pair
  | simpleValue => exact (simpleValue_alike h.token).pair
  | compositeElement => exact (compositeElement_alike h.token).pair
  | segment => exact ((alike_parallel.segment h).of_zero (fun o ↦ by cases o <;> simp)).pair
  | skipBlank => exact ((alike_parallel.skipBlank h).of_zero hid).pair
  | handOff delimiters limits =>
    obtain ⟨k, hk, rfl⟩ := h
    exact ⟨hk.level.like, handOff_alike delimiters limits hk.level⟩

theorem Alike.foldl_perform (h : t.Alike u) (ops : List Operation) :
    (ops.foldl Scanner.perform t).Alike (ops.foldl Scanner.perform u) := by
  induction ops generalizing t u with
  | nil => exact h
  | cons op ops ih => exact ih (h.perform op).2

/-- The operation reads on, or another scanner begins, so that what was read last before does not
matter any more. A token may be the end of a segment that was read before. -/
def readsOn (t : Scanner) : Operation → Bool
  | .back | .lookahead _ => false
  | .token | .simpleValue | .compositeElement => t.pendingEnd.isNone
  | .next | .segment | .skipBlank | .handOff .. => true

def readsIn : List Operation → Scanner → Bool
  | [], _ => false
  | op :: ops, t => t.readsOn op || readsIn ops (t.perform op)

/-- No pushback is asked for before something is read. -/
def ReadsFirst (t : Scanner) (ops : List Operation) : Prop :=
  ∀ before after, ops = before ++ .back :: after → t.readsIn before

theorem ReadsFirst.of_cons (h : t.ReadsFirst (op :: ops)) (hr : t.readsOn op = false) :
    op ≠ .back ∧ (t.perform op).ReadsFirst ops := by
  constructor
  · rintro rfl
    exact absurd (h [] ops rfl) (by simp [readsIn])
  · rintro before after rfl
    have hb := h (op :: before) after rfl
    rwa [readsIn, hr, Bool.false_or] at hb

/-- The scanners are before the same text, and nothing can be pushed back into the second one. -/
def Beside (t u : Scanner) : Prop :=
  ∃ k, t.cursor.LevelBy Source.Brings 0 k ∧ k.last = .pushedBack ∧ u = { t with cursor := k }

theorem Beside.looksLike (h : t.Beside u) : t.LooksLike u := by
  obtain ⟨k, hk, -, rfl⟩ := h
  exact Scanner.looksLike hk

theorem Beside.back_eq (h : t.Beside u) :
    u.back = (.error (.internal "unget_char called twice"), u) := by
  obtain ⟨k, -, hl, rfl⟩ := h
  simp [Scanner.back, Cursor.back, hl]

theorem Beside.perform_of_readsOn (h : t.Beside u) (hr : t.readsOn op) :
    op.Like (t.answer op) (u.answer op) ∧ (t.perform op).Alike (u.perform op) := by
  obtain ⟨k, hk, -, rfl⟩ := h
  have hid {α : Type} (a : α) : id a = a := rfl
  -- The next character takes away the difference between the two.
  have hn := hk.next Source.brings_forecast
  have ht (hr : t.pendingEnd.isNone) : Lockstep id Alike t.token { t with cursor := k }.token :=
    token_alike (Option.isNone_iff_eq_none.1 hr) hn hk.offset
  cases op with
  | back | lookahead n => simp [readsOn] at hr
  | next => exact ((next_alike hn).of_zero hid).pair
  | token => exact (ht hr).pair
  | simpleValue => exact (simpleValue_alike (ht hr)).pair
  | compositeElement => exact (compositeElement_alike (ht hr)).pair
  | segment =>
    have hs := alike_parallel.segment_of_next (next_alike hn)
    exact (hs.of_zero (fun o ↦ by cases o <;> simp)).pair
  | skipBlank => exact ((alike_parallel.skipBlank_of_next (next_alike hn)).of_zero hid).pair
  | handOff delimiters limits => exact ⟨hk.like, handOff_alike delimiters limits hk⟩

theorem Beside.token (h : t.Beside u) (hr : t.pendingEnd.isSome) :
    ∃ token t' u', t.token = (.ok token, t') ∧ u.token = (.ok token, u') ∧ t'.Beside u' ∧
      t'.cursor = t.cursor := by
  obtain ⟨k, hk, hl, rfl⟩ := h
  obtain ⟨span, hp⟩ := Option.isSome_iff_exists.1 hr
  refine ⟨⟨.segmentEnd, span, false⟩, { t with pendingEnd := none },
    { t with cursor := k, pendingEnd := none }, ?_, ?_, ⟨k, hk, hl, rfl⟩, rfl⟩
  · simp only [Scanner.token, hp]
  · simp only [Scanner.token, hp]

theorem Beside.perform_of_not_readsOn (h : t.Beside u) (hr : t.readsOn op = false)
    (ho : op ≠ .back) : op.Like (t.answer op) (u.answer op) ∧
      (t.perform op).Beside (u.perform op) ∧ (t.perform op).cursor.last = t.cursor.last := by
  have ht (hr : t.pendingEnd.isNone = false) := h.token (by simpa using hr)
  cases op with
  | back => contradiction
  | next | segment | skipBlank | handOff => simp [readsOn] at hr
  | lookahead n =>
    obtain ⟨k, ⟨⟨cs, hk, hk'⟩, ho, he⟩, hl, rfl⟩ := h
    obtain ⟨j, hj, hjc, hjo, hjl, -⟩ := hk.peek Source.brings_forecast n
    obtain ⟨j', hj', hjc', hjo', hjl', -⟩ := hk'.peek Source.brings_forecast n
    simp only [answer, Scanner.perform, Scanner.lookahead, Scanner.peek, hj, hj']
    refine ⟨rfl, ⟨j', ⟨⟨cs, hjc, hjc'⟩, ?_, by rw [hjl, hjl', he]⟩, hjl'.trans hl, rfl⟩, hjl⟩
    exact hjo'.trans (ho.trans (congrArg (· + 0) hjo.symm))
  | token =>
    obtain ⟨token, t', u', ht, hu, hb, hc⟩ := ht hr
    simp only [answer, Scanner.perform, ht, hu]
    exact ⟨rfl, hb, congrArg _ hc⟩
  | simpleValue =>
    obtain ⟨token, t', u', ht, hu, hb, hc⟩ := ht hr
    simp only [answer, Scanner.perform, simpleValue_eq, ht, hu]
    exact ⟨rfl, hb, congrArg _ hc⟩
  | compositeElement =>
    obtain ⟨token, t', u', ht, hu, hb, hc⟩ := ht hr
    simp only [answer, Scanner.perform, compositeElement_eq, ht, hu]
    exact ⟨rfl, hb, congrArg _ hc⟩

theorem Beside.perform_back (h : t.Beside u) (hl : t.cursor.last ≠ .character) :
    (t.perform .back).Beside (u.perform .back) ∧
      (t.perform .back).cursor.last = t.cursor.last := by
  have hne : t.cursor.last ≠ .endOfInput := by
    obtain ⟨k, hk, hkl, rfl⟩ := h
    rw [Ne, ← hk.ended, hkl]
    exact LastRead.noConfusion
  have ht : t.back.2 = t := by
    cases hc : t.cursor.last with
    | nothing | pushedBack => simp [Scanner.back, Cursor.back, hc]
    | endOfInput => contradiction
    | character => contradiction
  rw [show t.perform .back = t from ht, show u.perform .back = u from congrArg Prod.snd h.back_eq]
  exact ⟨h, rfl⟩

theorem Beside.foldl_perform (h : t.Beside u)
    (hf : t.cursor.last = .character → t.ReadsFirst ops) :
    if t.readsIn ops then (ops.foldl Scanner.perform t).Alike (ops.foldl Scanner.perform u)
    else (ops.foldl Scanner.perform t).Beside (ops.foldl Scanner.perform u) := by
  induction ops generalizing t u with
  | nil => exact h
  | cons op ops ih =>
    by_cases hr : t.readsOn op
    · rw [readsIn, hr, Bool.true_or, if_pos rfl]
      exact (h.perform_of_readsOn hr).2.foldl_perform ops
    · have hr : t.readsOn op = false := by simpa using hr
      have hs : (t.perform op).Beside (u.perform op) ∧
          (t.perform op).cursor.last = t.cursor.last := by
        by_cases ho : op = .back
        · subst ho
          exact h.perform_back fun hl ↦ ((hf hl).of_cons hr).1 rfl
        · exact (h.perform_of_not_readsOn hr ho).2
      rw [readsIn, hr, Bool.false_or]
      exact ih hs.1 fun hl ↦ ((hf (hs.2 ▸ hl)).of_cons hr).2

theorem withinBy_start {rest : Remainder} (h : rest.source.Unfailing) (capacity : Nat) :
    (Cursor.ofRemainder capacity rest).WithinBy Source.Brings rest.offset rest.unread := by
  refine ⟨Nat.le_refl _, Nat.le_add_left _ _, ⟨rest.source.unread, ⟨h, rfl⟩, ?_, ?_⟩,
    LastRead.noConfusion⟩
  · simp [Cursor.ofRemainder, Remainder.unread]
  · simp [Cursor.ofRemainder]

theorem agreeBy_self {k : Cursor} {origin : Nat} {stream : List Char}
    (h : k.WithinBy Source.Brings origin stream) : k.AgreeBy Source.Brings 0 k := by
  refine ⟨⟨_, h.bears, h.bears⟩, rfl, rfl, fun hl ↦ ?_⟩
  obtain ⟨n, c, hn, hc, -⟩ := h.behind hl
  exact ⟨by omega, c, hc, hc⟩

theorem lookahead_alike {cs : List Char} (h : t.cursor.AgreeBy Source.Brings 0 t.cursor)
    (hc : t.cursor.Bears Source.Brings cs) (n : Nat) :
    ∃ u, t.lookahead n = (.ok (cs.take n ++ List.replicate (n - cs.length) '?'), u) ∧
      t.Alike u := by
  obtain ⟨j, hj, hjc, hjo, hjl, hjb⟩ := hc.peek Source.brings_forecast n
  have hn : n - (cs.take n).length = n - cs.length := by
    rw [List.length_take]
    omega
  refine ⟨{ t with cursor := j }, ?_, j, ⟨⟨cs, hc, hjc⟩, hjo, hjl, fun hl ↦ ?_⟩, rfl⟩
  · simp only [Scanner.lookahead, Scanner.peek, hj, hn]
  · obtain ⟨ho, c, hb, -⟩ := h.behind hl
    exact ⟨ho, c, hb, hjb.trans hb⟩

theorem back_next_beside {cs : List Char} {o : Option Char} (hs : t.cursor.Settled)
    (hc : t.cursor.Bears Source.Brings cs) (h : t.next = (.ok o, u)) :
    ∃ w, u.back = (.ok (), w) ∧ t.Beside w := by
  cases cs with
  | nil =>
    obtain ⟨j, hj, hjo, hjl, hn⟩ := hc.next_nil Source.brings_forecast
    by_cases hl : t.cursor.last = .endOfInput
    · simp [Scanner.next, hn, hl] at h
    · simp only [Scanner.next, hn, if_neg hl] at h
      obtain ⟨-, rfl⟩ := Prod.mk.inj h
      refine ⟨{ t with cursor := { j with last := .pushedBack } }, ?_,
        { j with last := .pushedBack }, ⟨⟨[], hc, hj⟩, hjo, ?_⟩, rfl, rfl⟩
      · simp [Scanner.back, Cursor.back, hjl]
      · exact iff_of_false LastRead.noConfusion hl
  | cons c cs =>
    have hl : t.cursor.last ≠ .endOfInput := by
      intro hl
      obtain ⟨rest, -, ha, he⟩ := hc
      simp [hs hl, he (hs hl).2] at ha
    obtain ⟨j, hn, ⟨rest, hr, ha, he⟩, hjo, hjl, hjb⟩ := hc.next_cons Source.brings_forecast
    simp only [Scanner.next, hn] at h
    obtain ⟨-, rfl⟩ := Prod.mk.inj h
    let k : Cursor := { j with
      ahead := c :: j.ahead, behind := j.behind.tail, offset := t.cursor.offset
      last := .pushedBack }
    have hb : j.back = (.ok (), k) := by
      simp [Cursor.back, hjl, hjo, List.take_one, hjb, k]
    refine ⟨{ t with cursor := k }, ?_, k, ⟨⟨c :: cs, hc, rest, hr, ?_, he⟩, rfl, ?_⟩, rfl, rfl⟩
    · simp only [Scanner.back, hb, hjl, Option.map_map]
      simp [Function.comp_def]
    · exact congrArg (c :: ·) ha
    · exact iff_of_false LastRead.noConfusion hl

/-- Wherever a scanner comes to over a source whose reads do not fail, a lookahead shows the
characters that are still unread, with question marks behind the last of them. All that is done
later is answered, and leaves everything, as without it, but that more or less is buffered.

It is the same with a character that is read and pushed back at once, but for pushbacks before
anything else is read. These are refused, so one that could have taken back the character before
must not come there. -/
theorem peeking_pure {rest : Remainder} (h : rest.source.Unfailing) (delimiters : Delimiters)
    (limits : Limits) (earlier : List Operation) :
    let t := earlier.foldl perform (ofRemainder delimiters limits rest)
    let unread := rest.unread.drop (t.offset - rest.offset)
    t.remainder.unread = unread ∧
    (∀ n, ∃ cs u, t.lookahead n = (.ok cs, u) ∧ cs.length = n ∧
      cs = unread.take n ++ List.replicate (n - unread.length) '?' ∧
      ∀ later : List Operation,
        let t' := later.foldl perform t
        let u' := later.foldl perform u
        t'.LooksLike u' ∧ ∀ op : Operation, op.Like (t'.answer op) (u'.answer op)) ∧
    ∀ o u, t.next = (.ok o, u) → ∃ w, u.back = (.ok (), w) ∧ t.LooksLike w ∧
      ∀ later : List Operation, (t.cursor.last = .character → t.ReadsFirst later) →
        let t' := later.foldl perform t
        let w' := later.foldl perform w
        t'.LooksLike w' ∧
          (∀ op : Operation, (op = .back → t.readsIn later) →
            op.Like (t'.answer op) (w'.answer op)) ∧
          (t.readsIn later = false →
            w'.back = (.error (.internal "unget_char called twice"), w')) := by
  intro t unread
  have hw : t.cursor.WithinBy Source.Brings rest.offset rest.unread :=
    (Cursor.withinBy_invariant Source.brings_forecast _ _).scanner.foldl_perform
      (fun _ _ _ _ ht ↦ ht.ofRemainder _) (withinBy_start h _)
  have hs : t.cursor.Settled :=
    Cursor.settled_invariant.scanner.foldl_perform
      (fun _ _ _ _ _ ↦ Cursor.settled_ofRemainder _ _) (Cursor.settled_ofRemainder _ _)
  have hc : t.cursor.Bears Source.Brings unread := hw.bears
  refine ⟨hc.unread, fun n ↦ ?_, fun o u hu ↦ ?_⟩
  · obtain ⟨u, hu, ha⟩ := lookahead_alike (agreeBy_self hw) hc n
    refine ⟨_, u, hu, ?_, rfl, fun later ↦ ?_⟩
    · simp only [List.length_append, List.length_take, List.length_replicate]
      omega
    · have ha' := ha.foldl_perform later
      exact ⟨ha'.looksLike, fun op ↦ (ha'.perform op).1⟩
  · obtain ⟨w, hb, hbeside⟩ := back_next_beside hs hc hu
    refine ⟨w, hb, hbeside.looksLike, fun later hf ↦ ?_⟩
    have hl := hbeside.foldl_perform hf
    cases hr : t.readsIn later with
    | true =>
      rw [if_pos hr] at hl
      exact ⟨hl.looksLike, fun op _ ↦ (hl.perform op).1, fun hn ↦ nomatch hn⟩
    | false =>
      rw [if_neg (by simp [hr])] at hl
      refine ⟨hl.looksLike, fun op ho ↦ ?_, fun _ ↦ hl.back_eq⟩
      by_cases hop : (later.foldl perform t).readsOn op
      · exact (hl.perform_of_readsOn hop).1
      · have hne : op ≠ .back := fun hb ↦ Bool.false_ne_true (ho hb)
        exact (hl.perform_of_not_readsOn (by simpa using hop) hne).1

/-- An `é` is cut in two, a byte that no character has comes after it, and the last character is
cut off. -/
theorem peeking_pure_cut :
    let ds : List Delivery := [.bytes [0x41, 0xC3], .interrupted, .bytes [0xA9, 0xFF, 0x42, 0xE2]]
    let rest : Remainder := { source := .bytes (.ofDeliveries 1 (some 1) ds) }
    let t := [Operation.next].foldl perform (ofRemainder .edifact {} rest)
    let u := (t.lookahead 6).2
    let w := t.next.2.back.2
    rest.source.Unfailing ∧
      (t.lookahead 6).1 = .ok ['é', '\uFFFD', 'B', '\uFFFD', '?', '?'] ∧
      u.segment.1 = t.segment.1 ∧ u.lastSegmentText = "A" ∧
      t.next.1 = .ok (some 'é') ∧ w.lastSegmentText = "A" ∧ w.segment.1 = t.segment.1 ∧
      w.back = (.error (.internal "unget_char called twice"), w) := by
  intro ds rest t u w
  have hf : rest.source.Unfailing :=
    Source.unfailing_bytes (by simp [ds, ByteReader.ofDeliveries])
  obtain ⟨-, hlook, hpair⟩ := peeking_pure hf .edifact {} [.next]
  obtain ⟨_, _, hu, -, -, hlater⟩ := hlook 6
  obtain ⟨_, hb, hlike, hlater'⟩ := hpair (some 'é') t.next.2 (by decide +kernel)
  obtain rfl := congrArg Prod.snd hu
  obtain rfl := congrArg Prod.snd hb
  obtain ⟨hul, hus⟩ := hlater []
  -- Nothing is done between the pushback and the segment, so that no pushback is asked for.
  obtain ⟨-, hws, htwice⟩ := hlater' [] fun _ before after he ↦ by simp at he
  have ht : t.lastSegmentText = "A" := by decide +kernel
  refine ⟨hf, by decide +kernel, (hus .segment).symm, hul.lastSegmentText.trans ht,
    by decide +kernel, hlike.lastSegmentText.trans ht, ?_, htwice rfl⟩
  exact (hws .segment Operation.noConfusion).symm

/-- A pushback finds another character before it, or none, where a character has been read and
pushed back. To look ahead may lead to less being buffered later. -/
theorem peeking_impure :
    let t := (ofRemainder .edifact {} { source := .text "ab".toList }).next.2
    let w := t.next.2.back.2
    let s := ofRemainder .edifact { bufferCapacity := 16 } { source := .text (.replicate 40 'a') }
    let later := List.replicate 17 Operation.next
    t.next.1 = .ok (some 'b') ∧ t.next.2.back.1 = .ok () ∧
      t.back.2.next.1 = .ok (some 'a') ∧ w.back.2.next.1 = .ok (some 'b') ∧
      (later.foldl perform s).buffered.length = 14 ∧
      (later.foldl perform (s.lookahead 20).2).buffered.length = 3 := by
  decide +kernel

end Scanner

end Edi
