import Edi.Cursor
import Edi.Recognizer
import Edi.Span
import Edi.Text.Blank

namespace Edi

structure Limits where
  trims : Bool := true
  maxElementLength : Nat := 8192
  /-- How many characters are taken from the source ahead of need. -/
  bufferCapacity : Nat := 4096
  /-- The text read is kept, so that any part of it can be shown again. -/
  retainsText : Bool := false
  deriving DecidableEq, Repr

/-- A cursor that reads characters by their roles and remembers the text it has read. -/
structure Scanner where
  cursor : Cursor
  delimiters : Delimiters
  trims : Bool
  maxElementLength : Nat
  origin : Nat
  /-- The text read since `origin`, newest first, if it is kept. -/
  retained : Option (List Char)
  segmentText : List Char := []
  segmentCount : Nat := 0
  /-- A terminator that was read as the end of an element and not yet as the end of a segment. -/
  pendingEnd : Option Span := none
  repeats : Bool := false
  deriving DecidableEq, Repr

namespace Scanner

def ofRemainder (delimiters : Delimiters) (limits : Limits) (r : Remainder) : Scanner :=
  { cursor := .ofRemainder limits.bufferCapacity r
    delimiters
    trims := limits.trims
    maxElementLength := limits.maxElementLength
    origin := r.offset
    retained := if limits.retainsText then some [] else none }

def remainder (t : Scanner) : Remainder := t.cursor.remainder

def offset (t : Scanner) : Nat := t.cursor.offset

def buffered (t : Scanner) : List Char := t.cursor.ahead

def lastSegmentText (t : Scanner) : String := String.ofList t.segmentText.reverse

def rawText (span : Span) (t : Scanner) : Option String := do
  let text ← t.retained
  if t.origin ≤ span.start ∧ span.start ≤ span.stop ∧ span.stop - t.origin ≤ text.length then
    some (String.ofList ((text.reverse.drop (span.start - t.origin)).take span.length))
  else
    none

def bound (t : Scanner) : Nat := t.cursor.bound

def next (t : Scanner) : Except Error (Option Char) × Scanner :=
  match t.cursor.next with
  | (.error e, k) => (.error e, { t with cursor := k })
  | (.ok none, k) => (.ok none, { t with cursor := k })
  | (.ok (some c), k) =>
    (.ok (some c),
      { t with
        cursor := k, segmentText := c :: t.segmentText, retained := t.retained.map (c :: ·) })

def back (t : Scanner) : Except Error Unit × Scanner :=
  match t.cursor.back with
  | (.error e, k) => (.error e, { t with cursor := k })
  | (.ok (), k) =>
    match t.cursor.last with
    | .character =>
      (.ok (),
        { t with
          cursor := k, segmentText := t.segmentText.tail, retained := t.retained.map List.tail })
    | _ => (.ok (), { t with cursor := k })

def peek (n : Nat) (t : Scanner) : Except Error (List Char) × Scanner :=
  match t.cursor.peek n with
  | (r, k) => (r, { t with cursor := k })

/-- The next `n` characters, which stay unread. Past the end of input stand question marks. -/
def lookahead (n : Nat) (t : Scanner) : Except Error (List Char) × Scanner :=
  match t.peek n with
  | (.ok cs, t) => (.ok (cs ++ List.replicate (n - cs.length) '?'), t)
  | (.error e, t) => (.error e, t)

def leave {α : Type} (answer : Except Error α) (t : Scanner) : Except Error α × Scanner :=
  match t.back with
  | (.error e, t) => (.error e, t)
  | (.ok (), t) => (answer, t)

theorem next_bound (t : Scanner) : t.next.2.bound ≤ t.bound := by
  have h := t.cursor.next_bound
  simp only [next]
  split <;> simp_all [bound]

theorem next_eq_some {t t' : Scanner} {c : Char} (h : t.next = (.ok (some c), t')) :
    t'.bound < t.bound ∧ t'.cursor.last = .character := by
  simp only [next] at h
  split at h
  · simp at h
  · simp at h
  · next hk =>
    simp only [Prod.mk.injEq, Except.ok.injEq, Option.some.injEq] at h
    obtain ⟨rfl, rfl⟩ := h
    exact Cursor.next_eq_some hk

theorem back_bound {t : Scanner} : t.back.2.bound ≤ t.bound + 1 := by
  cases h : t.cursor.last with
  | character =>
    simp only [back, Cursor.back, h, bound, Cursor.bound, List.length_append, List.length_take]
    omega
  | _ => simp only [back, Cursor.back, h, bound, Cursor.bound, Nat.le_succ]

theorem back_bound_of_endOfInput {t : Scanner} (h : t.cursor.last = .endOfInput) :
    t.back.2.bound = t.bound := by
  simp [back, Cursor.back, h, bound, Cursor.bound]

variable {σ α : Type}

theorem leave_bound (answer : Except Error α) (t : Scanner) :
    (t.leave answer).2.bound = t.back.2.bound := by
  simp only [leave]
  split <;> simp_all

def recognize (m : Recognizer σ α) (s : σ) (t : Scanner) : Except Error α × Scanner :=
  match _h : t.next with
  | (.error e, t) => (.error e, t)
  | (.ok none, t) =>
    match m.finish s t.offset with
    | .take answer => (answer, t)
    | .leave answer => t.leave answer
  | (.ok (some c), t) =>
    match m.feed s t.offset c (t.delimiters.classify c) with
    | .more s => recognize m s t
    | .take answer => (answer, t)
    | .leave answer => t.leave answer
termination_by t.bound
decreasing_by exact (next_eq_some _h).1

theorem recognize_eq (m : Recognizer σ α) (s : σ) (t : Scanner) :
    t.recognize m s =
      match t.next with
      | (.error e, t) => (.error e, t)
      | (.ok none, t) =>
        match m.finish s t.offset with
        | .take answer => (answer, t)
        | .leave answer => t.leave answer
      | (.ok (some c), t) =>
        match m.feed s t.offset c (t.delimiters.classify c) with
        | .more s => recognize m s t
        | .take answer => (answer, t)
        | .leave answer => t.leave answer := by
  rw [recognize]
  split <;> next h => simp only [h]

theorem next_eq_none {t t' : Scanner} (h : t.next = (.ok none, t')) :
    t'.cursor.last = .endOfInput := by
  simp only [next] at h
  split at h
  · simp at h
  · next hk =>
    simp only [Prod.mk.injEq, true_and] at h
    simpa [← h] using Cursor.next_eq_none hk
  · simp at h

theorem recognize_bound (m : Recognizer σ α) (s : σ) (t : Scanner) :
    (t.recognize m s).2.bound ≤ t.bound := by
  fun_induction recognize m s t with
  | case1 s t e t' h => simpa [h] using t.next_bound
  | case2 s t t' h a hf => simpa [h] using t.next_bound
  | case3 s t t' h a hf =>
    rw [leave_bound, back_bound_of_endOfInput (next_eq_none h)]
    simpa [h] using t.next_bound
  | case4 s t c t' h s' hf ih => exact Nat.le_trans ih (Nat.le_of_lt (next_eq_some h).1)
  | case5 s t c t' h a hf => exact Nat.le_of_lt (next_eq_some h).1
  | case6 s t c t' h a hf =>
    rw [leave_bound]
    exact Nat.le_trans back_bound (next_eq_some h).1

/-- A recognizer that leaves no character unread and has no answer at the end of input reads at
least one character. -/
theorem recognize_lt {m : Recognizer σ α}
    (hm : ∀ s offset c k a, m.feed s offset c k ≠ .leave a)
    (hf : ∀ s offset a, m.finish s offset ≠ .take (.ok a) ∧ m.finish s offset ≠ .leave (.ok a))
    {s : σ} {t t' : Scanner} {a : α} (h : t.recognize m s = (.ok a, t')) :
    t'.bound < t.bound := by
  fun_induction recognize m s t with
  | case1 => simp at h
  | case2 s t u hn answer hv =>
    simp only [Prod.mk.injEq] at h
    exact absurd hv (h.1 ▸ (hf s u.offset a).1)
  | case3 s t u hn answer hv =>
    simp only [leave] at h
    split at h
    · simp at h
    · simp only [Prod.mk.injEq] at h
      exact absurd hv (h.1 ▸ (hf s u.offset a).2)
  | case4 s t c u hn s' hv ih => exact Nat.lt_trans (ih h) (next_eq_some hn).1
  | case5 s t c u hn answer hv =>
    simp only [Prod.mk.injEq] at h
    exact h.2 ▸ (next_eq_some hn).1
  | case6 s t c u hn answer hv => exact absurd hv (hm _ _ _ _ _)

/-- Passes over white space and byte order marks. The answer tells whether anything follows. -/
def skipBlank (t : Scanner) : Except Error Bool × Scanner :=
  t.recognize
    { feed := fun () _ c _ ↦
        if Text.isWhite c || c = '\uFEFF' then .more () else .leave (.ok true)
      finish := fun () _ ↦ .leave (.ok false) }
    ()

def pass : Nat → Scanner → Except Error Unit × Scanner
  | 0, t => (.ok (), t)
  | n + 1, t =>
    match t.next with
    | (.ok (some _), t) => pass n t
    | (.ok none, t) => (.error (.unexpectedEnd t.offset "end of header segment"), t)
    | (.error e, t) => (.error e, t)

def passSegment (n : Nat) (t : Scanner) : Except Error Unit × Scanner :=
  match pass n { t with segmentText := [] } with
  | (.ok (), t) => (.ok (), { t with segmentCount := t.segmentCount + 1 })
  | (.error e, t) => (.error e, t)

theorem peek_bound (n : Nat) (t : Scanner) : (t.peek n).2.bound ≤ t.bound :=
  t.cursor.peek_bound n

theorem skipBlank_bound (t : Scanner) : t.skipBlank.2.bound ≤ t.bound := recognize_bound ..

theorem pass_bound (n : Nat) (t : Scanner) : (pass n t).2.bound ≤ t.bound := by
  induction n generalizing t with
  | zero => exact Nat.le_refl _
  | succ n ih =>
    have hn := t.next_bound
    simp only [pass]
    split
    · next h => exact Nat.le_trans (ih _) (by simpa [h] using hn)
    · next h => simpa [h] using hn
    · next h => simpa [h] using hn

theorem passSegment_bound (n : Nat) (t : Scanner) : (t.passSegment n).2.bound ≤ t.bound := by
  have h := pass_bound n { t with segmentText := [] }
  simp only [passSegment]
  split <;> simp_all [bound]

end Scanner

end Edi
