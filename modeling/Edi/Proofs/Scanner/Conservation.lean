import Edi.Proofs.Cursor
import Edi.Proofs.Scanner.Invariant

namespace Edi

namespace Cursor

def ReadsText (k : Cursor) : Prop := ∃ unread, k.source = .text unread

theorem ReadsText.fill {k : Cursor} (need : Nat) (h : k.ReadsText) :
    (k.fill need).2.ReadsText := by
  fun_induction Cursor.fill need k with
  | case1 k hk e s hr | case2 k hk s hr =>
    obtain ⟨unread, hs⟩ := h
    rw [hs, Source.read] at hr
    exact ⟨_, (congrArg Prod.snd hr).symm⟩
  | case3 k hk c cs s hr ih =>
    obtain ⟨unread, hs⟩ := h
    rw [hs, Source.read] at hr
    exact ih ⟨_, (congrArg Prod.snd hr).symm⟩
  | case4 => exact h

theorem readsText_invariant : Invariant ReadsText := by
  constructor
  · intro k h
    have hf := h.fill 1
    simp only [Cursor.next]
    split
    · next hk => rwa [hk] at hf
    · next hk =>
      rw [hk] at hf
      split
      · exact hf
      · split <;> exact hf
  · intro k h
    simp only [Cursor.back]
    split <;> exact h
  · intro k n h
    have hf := h.fill n
    simp only [Cursor.peek]
    split <;> next hk => rwa [hk] at hf

/-- The cursor stands at its offset in a stream that begins at the offset `origin`: what is still to
come, as `p` tells it, is the stream from there on, and what may be pushed back is the character
before. -/
structure WithinBy (p : Source → List Char → Prop) (origin : Nat) (stream : List Char)
    (k : Cursor) : Prop where
  origin_le : origin ≤ k.offset
  offset_le : k.offset ≤ stream.length + origin
  bears : k.Bears p (stream.drop (k.offset - origin))
  behind : k.last = .character → ∃ n c, k.offset = n + origin + 1 ∧ k.behind.head? = some c ∧
    stream[n]? = some c

section WithinBy

variable {p : Source → List Char → Prop} {origin : Nat} {stream : List Char} {k : Cursor}

theorem WithinBy.next (hp : Source.Forecast p) (h : k.WithinBy p origin stream) :
    k.next.2.WithinBy p origin stream := by
  obtain ⟨hle, ho, hh, -⟩ := h
  cases hd : stream.drop (k.offset - origin) with
  | nil =>
    rw [hd] at hh
    obtain ⟨j, hj, hjo, hjl, hn⟩ := hh.next_nil hp
    rw [hn]
    refine ⟨hjo ▸ hle, hjo ▸ ho, ?_, fun hl ↦ absurd (hjl.symm.trans hl) (by decide)⟩
    rwa [hjo, hd]
  | cons c cs =>
    rw [hd] at hh
    obtain ⟨j, hn, hj, hjo, -, hjb⟩ := hh.next_cons hp
    obtain ⟨hc, hcs⟩ : stream[k.offset - origin]? = some c ∧
        stream.drop (k.offset - origin + 1) = cs := by
      rw [← List.tail_drop, hd, ← List.head?_drop, hd]
      exact ⟨rfl, rfl⟩
    have hlt := (List.getElem?_eq_some_iff.1 hc).1
    have hjn : j.offset - origin = k.offset - origin + 1 := by omega
    rw [hn]
    dsimp only
    refine ⟨by omega, by omega, ?_, fun _ ↦ ⟨k.offset - origin, c, by omega, hjb, hc⟩⟩
    rwa [hjn, hcs]

theorem WithinBy.back (h : k.WithinBy p origin stream) : k.back.2.WithinBy p origin stream := by
  have ⟨hle, ho, ⟨rest, hs, hc, he⟩, hb⟩ := h
  cases hl : k.last with
  | nothing => simpa only [Cursor.back, hl] using h
  | pushedBack => simpa only [Cursor.back, hl] using h
  | endOfInput =>
    simp only [Cursor.back, hl]
    exact ⟨hle, ho, ⟨rest, hs, hc, he⟩, LastRead.noConfusion⟩
  | character =>
    obtain ⟨n, c, hn, hk, ht⟩ := hb hl
    obtain ⟨hlt, htc⟩ := List.getElem?_eq_some_iff.1 ht
    have hd : stream.drop n = c :: stream.drop (n + 1) := by
      rw [List.drop_eq_getElem_cons hlt, htc]
    have hko : k.offset - 1 - origin = n := by omega
    have hkn : k.offset - origin = n + 1 := by omega
    simp only [Cursor.back, hl]
    refine ⟨by simp only; omega, by simp only; omega, ⟨rest, hs, ?_, he⟩, LastRead.noConfusion⟩
    rw [hkn] at hc
    simp [hko, hd, hc, List.take_one, hk]

theorem WithinBy.peek (hp : Source.Forecast p) (n : Nat) (h : k.WithinBy p origin stream) :
    (k.peek n).2.WithinBy p origin stream := by
  obtain ⟨hle, ho, hh, hb⟩ := h
  obtain ⟨j, hj, hjh, hjo, hjl, hjb⟩ := hh.peek hp n
  rw [hj]
  refine ⟨hjo ▸ hle, hjo ▸ ho, hjo ▸ hjh, ?_⟩
  rwa [hjl, hjo, hjb]

theorem withinBy_invariant (hp : Source.Forecast p) (origin : Nat) (stream : List Char) :
    Invariant (WithinBy p origin stream) where
  next h := h.next hp
  back h := h.back
  peek n h := h.peek hp n

theorem WithinBy.ofRemainder (h : k.WithinBy p origin stream) (capacity : Nat) :
    (ofRemainder capacity k.remainder).WithinBy p origin stream := by
  obtain ⟨rest, hs, hc, -⟩ := h.bears
  exact ⟨h.origin_le, h.offset_le, ⟨rest, hs, hc, by simp [Cursor.ofRemainder]⟩,
    LastRead.noConfusion⟩

end WithinBy

/-- The cursor stands in a text at its offset: what is still to come is the text from there on, and
what may be pushed back is the character before. -/
abbrev Within : List Char → Cursor → Prop := WithinBy Source.Holds 0

variable {text : List Char} {k : Cursor}

theorem Within.holds (h : k.Within text) : k.Holds (text.drop k.offset) := h.bears

theorem within_invariant (text : List Char) :
    Invariant fun k ↦ k.ReadsText ∧ k.Within text where
  next h := ⟨readsText_invariant.next h.1, h.2.next Source.holds_forecast⟩
  back h := ⟨readsText_invariant.back h.1, h.2.back⟩
  peek n h := ⟨readsText_invariant.peek n h.1, h.2.peek Source.holds_forecast n⟩

end Cursor

variable {text : List Char}

structure Remainder.StandsIn (text : List Char) (r : Remainder) : Prop where
  offset_le : r.offset ≤ text.length
  unread : ∃ unread, r.source.Holds unread ∧ r.leftover ++ unread = text.drop r.offset

theorem Source.Holds.standsIn {source : Source} (h : source.Holds text) :
    (⟨[], 0, source⟩ : Remainder).StandsIn text :=
  ⟨Nat.zero_le _, text, h, rfl⟩

theorem Remainder.StandsIn.within {r : Remainder} (h : r.StandsIn text) (capacity : Nat) :
    (Cursor.ofRemainder capacity r).Within text :=
  ⟨Nat.zero_le _, h.offset_le, Cursor.holds_ofRemainder h.unread capacity,
    LastRead.noConfusion⟩

namespace Cursor

theorem Within.remainder {k : Cursor} (h : k.Within text) : k.remainder.StandsIn text := by
  obtain ⟨unread, hs, hc, -⟩ := h.holds
  exact ⟨h.offset_le, unread, hs, hc⟩

theorem within_ofRemainder {k : Cursor} (hs : k.ReadsText) (h : k.Within text) (capacity : Nat) :
    (ofRemainder capacity k.remainder).ReadsText ∧
      (ofRemainder capacity k.remainder).Within text :=
  ⟨hs, h.ofRemainder capacity⟩

theorem within_start (text : List Char) (capacity : Nat) :
    (ofRemainder capacity { source := .text text }).ReadsText ∧
      (ofRemainder capacity { source := .text text }).Within text := by
  have hs : (Source.text text).Holds text := rfl
  exact ⟨⟨text, rfl⟩, hs.standsIn.within capacity⟩

end Cursor

namespace Scanner

variable {t u : Scanner} {text : List Char}

/-- What is buffered and then what is left in the source make up the text from the offset on, and a
handoff passes on just these. -/
structure Conserves (text : List Char) (t : Scanner) : Prop where
  offset_le : t.offset ≤ text.length
  handOff : ∃ unread, text.drop t.offset = t.buffered ++ unread ∧
    t.remainder = { leftover := t.buffered, offset := t.offset, source := .text unread }

theorem conserves_of_within (hs : t.cursor.ReadsText) (h : t.cursor.Within text) :
    t.Conserves text := by
  obtain ⟨unread, hu⟩ := hs
  obtain ⟨rest, hr, hc, -⟩ := h.holds
  rw [hu] at hr
  obtain rfl : unread = rest := hr
  refine ⟨h.offset_le, unread, hc.symm, ?_⟩
  simp [remainder, Cursor.remainder, hu, buffered, offset]

inductive Operation
  | next
  | back
  | lookahead (n : Nat)
  | token
  | simpleValue
  | compositeElement
  | segment
  | skipBlank
  /-- Another scanner takes over what is left. -/
  | handOff (delimiters : Delimiters) (limits : Limits)

def perform (t : Scanner) : Operation → Scanner
  | .next => t.next.2
  | .back => t.back.2
  | .lookahead n => (t.lookahead n).2
  | .token => t.token.2
  | .simpleValue => t.simpleValue.2
  | .compositeElement => t.compositeElement.2
  | .segment => t.segment.2
  | .skipBlank => t.skipBlank.2
  | .handOff delimiters limits => .ofRemainder delimiters limits t.remainder

theorem Invariant.foldl_perform {p : Scanner → Prop} (hp : Invariant p) {ops : List Operation}
    (hh : ∀ delimiters limits t, .handOff delimiters limits ∈ ops → p t →
      p (ofRemainder delimiters limits t.remainder)) (h : p t) : p (ops.foldl perform t) := by
  induction ops generalizing t with
  | nil => exact h
  | cons op ops ih =>
    refine ih (fun d l t hm ↦ hh d l t (List.mem_cons_of_mem op hm)) ?_
    cases op with
    | next => exact hp.next h
    | back => exact hp.back h
    | lookahead n => exact hp.lookahead n h
    | token => exact hp.token h
    | simpleValue => exact hp.simpleValue h
    | compositeElement => exact hp.compositeElement h
    | segment => exact hp.segment h
    | skipBlank => exact hp.skipBlank h
    | handOff delimiters limits => exact hh delimiters limits t List.mem_cons_self h

theorem foldl_perform_within (ops : List Operation)
    (h : t.cursor.ReadsText ∧ t.cursor.Within text) :
    (ops.foldl perform t).cursor.ReadsText ∧ (ops.foldl perform t).cursor.Within text :=
  (Cursor.within_invariant text).scanner.foldl_perform
    (fun _ _ _ _ h ↦ Cursor.within_ofRemainder h.1 h.2 _) h

theorem next_behind {c : Char} (h : t.next = (.ok (some c), u)) :
    u.cursor.behind.head? = some c := by
  simp only [next] at h
  split at h
  · simp at h
  · simp at h
  · next d k hk =>
    obtain ⟨hd, rfl⟩ := Prod.mk.inj h
    obtain rfl := Option.some.inj (Except.ok.inj hd)
    simp only [Cursor.next] at hk
    split at hk
    · simp at hk
    · split at hk
      · obtain ⟨hd, rfl⟩ := Prod.mk.inj hk
        exact congrArg some (Option.some.inj (Except.ok.inj hd))
      · split at hk <;> simp at hk

end Scanner

end Edi
