import Edi.Source

namespace Edi

inductive LastRead
  | nothing
  | character
  | endOfInput
  | pushedBack
  deriving DecidableEq, Repr

/-- A place in a stream of characters. Characters are taken from the source only when those
`ahead` do not suffice. -/
structure Cursor where
  source : Source
  capacity : Nat
  ahead : List Char := []
  /-- The characters already read that still take up room, newest first. -/
  behind : List Char := []
  offset : Nat := 0
  exhausted : Bool := false
  last : LastRead := .nothing
  deriving DecidableEq, Repr

namespace Cursor

def ofRemainder (capacity : Nat) (r : Remainder) : Cursor :=
  { source := r.source, capacity := max (max capacity r.leftover.length) 16,
    ahead := r.leftover, offset := r.offset }

def remainder (k : Cursor) : Remainder :=
  { leftover := k.ahead, offset := k.offset, source := k.source }

def bound (k : Cursor) : Nat := k.source.bound + k.ahead.length

def lacks (need : Nat) (k : Cursor) : Bool := (k.ahead.take need).length < need

def compact (k : Cursor) : Cursor := { k with behind := k.behind.take 1 }

def room (need : Nat) (k : Cursor) : Nat :=
  max (k.capacity - (k.behind.length + k.ahead.length)) (need - k.ahead.length)

theorem lacks_iff {need : Nat} {k : Cursor} : k.lacks need ↔ k.ahead.length < need := by
  simp only [lacks, List.length_take, decide_eq_true_eq]
  omega

def fill (need : Nat) (k : Cursor) : Except Error Unit × Cursor :=
  if _h : k.lacks need ∧ ¬k.exhausted then
    match k.source.read (k.compact.room need) with
    | (.error e, s) => (.error e, { k.compact with source := s })
    | (.ok [], s) => (.ok (), { k.compact with source := s, exhausted := true })
    | (.ok (c :: cs), s) =>
      fill need { k.compact with source := s, ahead := k.ahead ++ c :: cs }
  else (.ok (), k)
termination_by need - k.ahead.length
decreasing_by
  have := lacks_iff.1 _h.1
  simp only [List.length_append, List.length_cons]
  omega

/-- The next character; `none` at the end of input, which may not be read again unless it was
pushed back. -/
def next (k : Cursor) : Except Error (Option Char) × Cursor :=
  match k.fill 1 with
  | (.error e, k) => (.error e, k)
  | (.ok (), k) =>
    match k.ahead with
    | c :: rest =>
      (.ok (some c),
        { k with
          ahead := rest, behind := c :: k.behind, offset := k.offset + 1, last := .character })
    | [] =>
      if k.last = .endOfInput then (.error (.internal "end of input read twice"), k)
      else (.ok none, { k with last := .endOfInput })

def back (k : Cursor) : Except Error Unit × Cursor :=
  match k.last with
  | .nothing => (.error (.internal "unget_char before any read"), k)
  | .pushedBack => (.error (.internal "unget_char called twice"), k)
  | .endOfInput => (.ok (), { k with last := .pushedBack })
  | .character =>
    (.ok (),
      { k with
        ahead := k.behind.take 1 ++ k.ahead, behind := k.behind.tail, offset := k.offset - 1,
        last := .pushedBack })

def peek (n : Nat) (k : Cursor) : Except Error (List Char) × Cursor :=
  match k.fill n with
  | (.error e, k) => (.error e, k)
  | (.ok (), k) => (.ok (k.ahead.take n), k)

theorem fill_bound (need : Nat) (k : Cursor) : (k.fill need).2.bound ≤ k.bound := by
  fun_induction fill need k with
  | case1 k h e s hr =>
    have := k.source.read_bound (k.compact.room need)
    simp only [hr] at this
    simp only [bound, compact]
    omega
  | case2 k h s hr =>
    have := k.source.read_bound (k.compact.room need)
    simp only [hr] at this
    simp only [bound, compact]
    omega
  | case3 k h c cs s hr ih =>
    have := k.source.read_bound (k.compact.room need)
    simp only [hr, Except.toOption, Option.getD_some, List.length_cons] at this
    refine Nat.le_trans ih ?_
    simp only [bound, List.length_append, List.length_cons]
    omega
  | case4 => exact Nat.le_refl _

theorem next_bound (k : Cursor) : k.next.2.bound ≤ k.bound := by
  have hf := k.fill_bound 1
  simp only [next]
  split
  · next h => simpa [h] using hf
  · next h =>
    rw [h] at hf
    split
    · next ha => simp_all [bound]; omega
    · split <;> simpa [bound] using hf

theorem next_eq_some {k k' : Cursor} {c : Char} (h : k.next = (.ok (some c), k')) :
    k'.bound < k.bound ∧ k'.last = .character := by
  have hf := k.fill_bound 1
  simp only [next] at h
  split at h
  · simp at h
  · next hk =>
    rw [hk] at hf
    split at h
    · next ha =>
      simp only [Prod.mk.injEq, Except.ok.injEq, Option.some.injEq] at h
      obtain ⟨rfl, rfl⟩ := h
      simp only [bound, ha, List.length_cons] at hf
      exact ⟨by simp only [bound]; omega, rfl⟩
    · split at h <;> simp at h

theorem next_eq_none {k k' : Cursor} (h : k.next = (.ok none, k')) : k'.last = .endOfInput := by
  simp only [next] at h
  split at h
  · simp at h
  · split at h
    · simp at h
    · split at h
      · simp at h
      · simp only [Prod.mk.injEq, true_and] at h
        simp [← h]

theorem peek_bound (n : Nat) (k : Cursor) : (k.peek n).2.bound ≤ k.bound := by
  have hf := k.fill_bound n
  simp only [peek]
  split <;> simp_all

end Cursor

end Edi
