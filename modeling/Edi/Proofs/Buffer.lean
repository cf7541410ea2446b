import Edi.Proofs.Cursor
import Edi.Proofs.Decoding
import Edi.Proofs.Reader.Invariant
import Mathlib.Logic.Relation

namespace Edi

theorem Source.length_read_le {max : Nat} {s s' : Source} {cs : List Char} (hm : max ≠ 0)
    (h : s.read max = (.ok cs, s')) : cs.length ≤ max := by
  cases s with
  | text unread =>
    obtain ⟨hcs, -⟩ := Prod.mk.inj h
    rw [← Except.ok.inj hcs]
    exact List.length_take_le max unread
  | bytes reader =>
    have hr : (reader.read max).1 = .ok cs := congrArg Prod.fst h
    rcases reader.read_cases hm with ⟨ds, hd, hl, -⟩ | ⟨e, he, -⟩
    · obtain rfl := Except.ok.inj (hd.symm.trans hr)
      exact hl
    · exact nomatch he.symm.trans hr

namespace Cursor

variable {k k' : Cursor} {need limit m : Nat}

/-- How many characters take up room: those ahead, and those behind that were not dropped. -/
def held (k : Cursor) : Nat := k.behind.length + k.ahead.length

def pull (need : Nat) (k : Cursor) : Cursor :=
  match k.source.read (k.compact.room need) with
  | (.error _, s) => { k.compact with source := s }
  | (.ok [], s) => { k.compact with source := s, exhausted := true }
  | (.ok cs, s) => { k.compact with source := s, ahead := k.ahead ++ cs }

/-- The least that is done with a cursor: a turn of filling for the sake of no more than `limit`
characters, a character taken, the end met, or the last of these taken back. -/
inductive Step (limit : Nat) : Cursor → Cursor → Prop
  | pull {need : Nat} {k : Cursor} (hn : need ≤ limit) (hk : k.lacks need) :
      Step limit k (k.pull need)
  | take {k : Cursor} {c : Char} {rest : List Char} (h : k.ahead = c :: rest) :
      Step limit k { k with
        ahead := rest, behind := c :: k.behind, offset := k.offset + 1, last := .character }
  | stop (k : Cursor) : Step limit k { k with last := .endOfInput }
  | back (k : Cursor) : Step limit k k.back.2

def Goes (limit : Nat) : Cursor → Cursor → Prop := Relation.ReflTransGen (Step limit)

namespace Goes

theorem fill (hn : need ≤ limit) (k : Cursor) : Goes limit k (k.fill need).2 := by
  have hp {k : Cursor} (hk : k.lacks need) : Goes limit k (k.pull need) := .single (.pull hn hk)
  fun_induction Cursor.fill need k with
  | case1 k hk e s hr => simpa [Cursor.pull, hr] using hp hk.1
  | case2 k hk s hr => simpa [Cursor.pull, hr] using hp hk.1
  | case3 k hk c cs s hr ih =>
    have ht := hp hk.1
    simp only [Cursor.pull, hr] at ht
    exact ht.trans ih
  | case4 k hk => exact .refl

theorem next (hl : 1 ≤ limit) (k : Cursor) : Goes limit k k.next.2 := by
  have hf := fill hl k
  simp only [Cursor.next]
  split
  · next hk => rwa [hk] at hf
  · next j hk =>
    rw [hk] at hf
    split
    · next ha => exact hf.tail (.take ha)
    · split
      · exact hf
      · exact hf.tail (.stop j)

theorem peek (hn : need ≤ limit) (k : Cursor) : Goes limit k (k.peek need).2 := by
  have hf := fill hn k
  simp only [Cursor.peek]
  split <;> next hk => rwa [hk] at hf

theorem lasting (hl : 1 ≤ limit) (k : Cursor) :
    Scanner.Lasting fun t ↦ Goes limit k t.cursor :=
  .of_cursor (fun j h ↦ h.trans (next hl j)) fun j h ↦ h.tail (.back j)

end Goes

/-- The cursor neither has room for more than `m` characters nor holds more. -/
structure Fits (m : Nat) (k : Cursor) : Prop where
  capacity : k.capacity ≤ m
  held : k.held ≤ m

namespace Fits

theorem compact (h : k.Fits m) : k.compact.Fits m := by
  refine ⟨h.capacity, Nat.le_trans ?_ h.held⟩
  simp only [Cursor.held, Cursor.compact, List.length_take]
  omega

theorem room_le (h : k.Fits m) (hn : need < m) (hk : k.lacks need) :
    k.compact.held + k.compact.room need ≤ m := by
  have hc := h.compact.held
  have hcap := h.capacity
  have hl := lacks_iff.1 hk
  -- Besides what is needed only the one character is held that may be put back.
  simp only [Cursor.held, Cursor.room, Cursor.compact, List.length_take] at hc ⊢
  omega

theorem pull (h : k.Fits m) (hn : need < m) (hk : k.lacks need) : (k.pull need).Fits m := by
  have hr := h.room_le hn hk
  simp only [Cursor.pull]
  split
  · exact ⟨h.capacity, h.compact.held⟩
  · exact ⟨h.capacity, h.compact.held⟩
  · next cs s _ hs =>
    have hcs := Source.length_read_le (room_ne_zero hk) hs
    refine ⟨h.capacity, ?_⟩
    calc k.compact.behind.length + (k.ahead ++ cs).length
      _ = k.compact.held + cs.length := by
        rw [List.length_append, ← Nat.add_assoc]
        rfl
      _ ≤ k.compact.held + k.compact.room need := Nat.add_le_add_left hcs _
      _ ≤ m := hr

theorem back (h : k.Fits m) : k.back.2.Fits m := by
  simp only [Cursor.back]
  split
  · exact h
  · exact h
  · exact ⟨h.capacity, h.held⟩
  · refine ⟨h.capacity, Nat.le_trans (Nat.le_of_eq ?_) h.held⟩
    simp only [Cursor.held, List.length_append, List.length_take, List.length_tail]
    omega

theorem step (hm : limit < m) (h : k.Fits m) (hs : Step limit k k') : k'.Fits m := by
  cases hs with
  | pull hn hk => exact h.pull (Nat.lt_of_le_of_lt hn hm) hk
  | take ha =>
    have hh := h.held
    simp only [Cursor.held, ha, List.length_cons] at hh
    exact ⟨h.capacity, by simp only [Cursor.held, List.length_cons]; omega⟩
  | stop => exact ⟨h.capacity, h.held⟩
  | back => exact h.back

theorem ofRemainder {capacity : Nat} {rest : Remainder} (hc : capacity ≤ m) (hm : 16 ≤ m)
    (hl : rest.leftover.length ≤ m) : (ofRemainder capacity rest).Fits m :=
  ⟨Nat.max_le.2 ⟨Nat.max_le.2 ⟨hc, hl⟩, hm⟩, by simpa [Cursor.held, Cursor.ofRemainder] using hl⟩

theorem length_ahead_le (h : k.Fits m) : k.ahead.length ≤ m :=
  Nat.le_trans (Nat.le_add_left _ _) h.held

end Fits

/-- The cursors of readings that begin at a source or take over what another has left, however far
these have come. -/
inductive Moment (capacity : Nat) : Cursor → Prop
  | opened (source : Source) : Moment capacity (.ofRemainder capacity { source })
  | step {k k' : Cursor} (h : Moment capacity k) (hs : Step Preamble.x12Length k k') :
      Moment capacity k'
  | handedOver {k : Cursor} (h : Moment capacity k) :
      Moment capacity (.ofRemainder capacity k.remainder)

namespace Moment

variable {capacity : Nat}

theorem goes (h : Moment capacity k) (hs : Goes Preamble.x12Length k k') : Moment capacity k' := by
  induction hs with
  | refl => exact h
  | tail _ hs ih => exact ih.step hs

/-- Neither the leftovers nor the previews that a reading inherits ever raise the bound: the first
fit into the bound, and beside a preview one character is held. -/
theorem fits (h : Moment capacity k) : k.Fits (max capacity (Preamble.x12Length + 1)) := by
  have hc : capacity ≤ max capacity (Preamble.x12Length + 1) := Nat.le_max_left _ _
  have hlimit : Preamble.x12Length < max capacity (Preamble.x12Length + 1) :=
    Nat.le_max_right _ _
  have hm : 16 ≤ max capacity (Preamble.x12Length + 1) :=
    Nat.le_trans (by decide) (Nat.le_of_lt hlimit)
  induction h with
  | opened source => exact .ofRemainder hc hm (Nat.zero_le _)
  | step _ hs ih => exact ih.step hlimit hs
  | handedOver _ ih => exact .ofRemainder hc hm ih.length_ahead_le

end Moment

end Cursor

theorem Standard.previewLength_le (standard : Standard) :
    standard.previewLength ≤ Preamble.x12Length := by
  cases standard <;> decide

namespace Reader

variable {options : Options} {rest : Remainder} {r : Reader}

def looked (options : Options) (rest : Remainder) : Cursor :=
  match (Scanner.ofRemainder { field := '*', terminator := '~' } options.toLimits rest).skipBlank
  with
  | (.ok true, t) => (t.peek Standard.quotedLength).2.cursor
  | (_, t) => t.cursor

theorem looked_of_resume (h : resume options rest = .ok (some r)) :
    looked options rest = r.scanner.cursor := by
  obtain ⟨t, preview, hs, hk, -⟩ := resume_eq_some h
  simp only [looked, hs, hk]

theorem goes_looked (options : Options) (rest : Remainder) :
    Cursor.Goes Preamble.x12Length (.ofRemainder options.bufferCapacity rest)
      (looked options rest) := by
  have hl : 1 ≤ Preamble.x12Length := by decide
  have hb := (Cursor.Goes.lasting hl _).skipBlank
    (t := .ofRemainder { field := '*', terminator := '~' } options.toLimits rest) .refl
  simp only [looked]
  split
  · next t hs =>
    rw [hs] at hb
    exact hb.trans (Cursor.Goes.peek (by decide) t.cursor)
  · next hs =>
    rw [hs] at hb
    exact hb

theorem goes_parse (policy : Policy) (earlier : List Problem) (r : Reader) :
    Cursor.Goes Preamble.x12Length r.scanner.cursor (r.parse policy earlier).2.scanner.cursor :=
  (Cursor.Goes.lasting (by decide) r.scanner.cursor).parse policy earlier .refl
    (Cursor.Goes.peek r.standard.previewLength_le r.scanner.cursor)

/-- The readers that calls with the same options come to, by opening a source, by reading
interchanges whether or not this succeeds, and by looking for another interchange in what a reader
leaves. -/
inductive Chained (options : Options) : Reader → Prop
  | opened {source : Source} {r : Reader} (h : open? options source = .ok (some r)) :
      Chained options r
  | parsed (policy : Policy) (earlier : List Problem) {r : Reader} (h : Chained options r) :
      Chained options (r.parse policy earlier).2
  | resumed {r r' : Reader} (h : Chained options r)
      (hr : resume options r.remainder = .ok (some r')) : Chained options r'

theorem Chained.moment (h : Chained options r) :
    r.scanner.cursor.Moment options.bufferCapacity := by
  induction h with
  | @opened source r h =>
    rw [← looked_of_resume h]
    exact (Cursor.Moment.opened source).goes (goes_looked options _)
  | @parsed policy earlier r _ ih => exact ih.goes (goes_parse policy earlier r)
  | @resumed r r' _ hr ih =>
    rw [← looked_of_resume hr]
    exact ih.handedOver.goes (goes_looked options _)

end Reader

/-- However much text comes and however many interchanges are in it, no more characters are held at
any moment than the capacity, or one more than the longest preview if this is more. Each call goes
step by step through such moments, whether or not it succeeds. -/
theorem held_bounded (options : Options) :
    let bound := max options.bufferCapacity 257
    (∀ k, Cursor.Moment options.bufferCapacity k → k.held ≤ bound) ∧
      (∀ source, Cursor.Goes Preamble.x12Length (.ofRemainder options.bufferCapacity { source })
        (Reader.looked options { source })) ∧
      (∀ rest r, Reader.resume options rest = .ok (some r) →
        Reader.looked options rest = r.scanner.cursor) ∧
      ∀ r, Reader.Chained options r →
        r.scanner.cursor.Moment options.bufferCapacity ∧
        (∀ policy earlier, Cursor.Goes Preamble.x12Length r.scanner.cursor
          (r.parse policy earlier).2.scanner.cursor) ∧
        Cursor.Goes Preamble.x12Length (.ofRemainder options.bufferCapacity r.remainder)
          (Reader.looked options r.remainder) ∧
        r.scanner.buffered.length ≤ bound ∧ r.remainder.leftover.length ≤ bound := by
  refine ⟨fun k h ↦ h.fits.held, fun source ↦ Reader.goes_looked options _,
    fun rest r h ↦ Reader.looked_of_resume h, fun r h ↦ ?_⟩
  have hahead := h.moment.fits.length_ahead_le
  exact ⟨h.moment, fun policy earlier ↦ Reader.goes_parse policy earlier r,
    Reader.goes_looked options _, hahead, hahead⟩

/-- The bound is met with a blank before a header of which the preview is all that is ever read. -/
theorem held_bounded_met :
    let text := " ISA".toList ++ List.replicate 1000 '*'
    let options : Options := { bufferCapacity := 16 }
    let r : Reader :=
      { standard := .x12
        scanner := ((Scanner.ofRemainder { field := '*', terminator := '~' } options.toLimits
          { source := .text text }).skipBlank.2.peek Standard.quotedLength).2
        tables := {} }
    let r' := (r.parse .strict []).2
    Reader.open? options (.text text) = .ok (some r) ∧
      Reader.looked options { source := .text text } = r.scanner.cursor ∧
      Reader.Chained options r' ∧ r'.scanner.cursor.held = 257 ∧
      r'.scanner.cursor.held ≤ max options.bufferCapacity 257 ∧
      r'.remainder.leftover.length ≤ max options.bufferCapacity 257 := by
  intro text options r r'
  have hopen : Reader.open? options (.text text) = .ok (some r) := by decide +kernel
  obtain ⟨hheld, -, hlooked, hchained⟩ := held_bounded options
  have hr : Reader.Chained options r' := .parsed .strict [] (.opened hopen)
  obtain ⟨hmoment, -, -, -, hleft⟩ := hchained r' hr
  exact ⟨hopen, hlooked _ r hopen, hr, by decide +kernel, hheld _ hmoment, hleft⟩

end Edi
