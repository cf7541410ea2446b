import Edi.Proofs.Scanner.Parallel

namespace Edi.Scanner

variable {distance : Nat}

/-- Two scanners that go on alike, where all offsets of `u` are greater by the `distance`. What they
have kept of the text so far may differ. -/
structure Agree (distance : Nat) (t u : Scanner) : Prop where
  cursor : t.cursor.Agree distance u.cursor
  rules : t.SameRules u

variable {t u : Scanner} {σ α : Type}

theorem Agree.offset (h : t.Agree distance u) : u.offset = t.offset + distance := h.cursor.offset

theorem next_agree (hr : t.SameRules u)
    (h : Lockstep (Error.shiftOr distance id) (Cursor.Agree distance) t.cursor.next u.cursor.next) :
    Lockstep (Error.shiftOr distance id) (Agree distance) t.next u.next := by
  obtain ⟨answer, k, k', hk, hk', hc⟩ := h
  simp only [Scanner.next, hk, hk']
  cases answer with
  | error e => exact .intro _ ⟨hc, { hr with }⟩
  | ok o =>
    cases o with
    | none => exact .intro _ ⟨hc, { hr with }⟩
    | some c => exact .intro _ ⟨hc, { hr with }⟩

theorem Agree.back (h : t.Agree distance u) :
    Lockstep (Error.shiftOr distance id) (Agree distance) t.back u.back := by
  obtain ⟨answer, k, k', hk, hk', hc⟩ := h.cursor.back
  simp only [Scanner.back, hk, hk', h.cursor.last]
  have hr := h.rules
  cases answer with
  | error e => exact .intro _ ⟨hc, { hr with }⟩
  | ok o =>
    cases t.cursor.last with
    | character => exact .intro _ ⟨hc, { hr with }⟩
    | _ => exact .intro _ ⟨hc, { hr with }⟩

theorem Agree.peek (n : Nat) (h : t.Agree distance u) :
    Lockstep (Error.shiftOr distance id) (Agree distance) (t.peek n) (u.peek n) := by
  obtain ⟨answer, k, k', hk, hk', hc⟩ := h.cursor.peek Source.holds_forecast n
  simp only [Scanner.peek, hk, hk']
  exact .intro _ ⟨hc, { h.rules with }⟩

theorem agree_parallel : Parallel distance (Agree distance) where
  rules h := h.rules
  offset h := h.offset
  next h := next_agree h.rules (h.cursor.next Source.holds_forecast)
  back h := h.back
  begin h := ⟨h.cursor, { h.rules with }⟩
  count h := ⟨h.cursor, { h.rules with }⟩

theorem Agree.passSegment (n : Nat) (h : t.Agree distance u) :
    Lockstep (Error.shiftOr distance id) (Agree distance) (t.passSegment n) (u.passSegment n) := by
  have hc : Agree distance { t with segmentText := [] } { u with segmentText := [] } :=
    ⟨h.cursor, { h.rules with }⟩
  obtain ⟨answer, t', u', ht, hu, h'⟩ := agree_parallel.pass n hc
  simp only [Scanner.passSegment, ht, hu]
  cases answer with
  | error e => exact .intro _ h'
  | ok o => exact .intro _ (agree_parallel.count h')

theorem Agree.segment (h : t.Agree distance u) :
    Lockstep (Error.shiftOr distance (Option.map (·.shift distance))) (Agree distance) t.segment
      u.segment :=
  agree_parallel.segment h

theorem segment_of_holds {cs : List Char} (ht : t.cursor.Holds cs) (hu : u.cursor.Holds cs)
    (htl : t.cursor.last ≠ .endOfInput) (hul : u.cursor.last ≠ .endOfInput)
    (ho : u.offset = t.offset + distance) (hr : t.SameRules u) :
    Lockstep (Error.shiftOr distance (Option.map (·.shift distance))) (Agree distance) t.segment
      u.segment := by
  -- What was read last may differ, but it is not the end of input on either side.
  have hl : t.cursor.LevelBy Source.Holds distance u.cursor :=
    ⟨⟨cs, ht, hu⟩, ho, iff_of_false hul htl⟩
  apply agree_parallel.segment_of_next
  exact next_agree hr (hl.next Source.holds_forecast)

end Edi.Scanner
