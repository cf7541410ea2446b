import Edi.Proofs.Envelope.Shift
import Edi.Segment.Recognizer

namespace Edi

variable {σ α : Type}

def Verdict.shift (distance : Nat) (f : σ → σ) (g : α → α) : Verdict σ α → Verdict σ α
  | more s => more (f s)
  | take answer => take (Error.shiftOr distance g answer)
  | leave answer => leave (Error.shiftOr distance g answer)

theorem Verdict.shift_zero (v : Verdict σ α) : v.shift 0 id id = v := by
  cases v <;> simp [shift, Error.shiftOr_zero]

@[simp] theorem Span.shift_zero (s : Span) : s.shift 0 = s := rfl

namespace Segment

@[simp] theorem shift_zero (s : Segment) : s.shift 0 = s := by
  simp [shift]

def Body.shift (distance : Nat) (b : Body) : Body :=
  { b with
    fields := b.fields.map fun f ↦ { f with span := f.span.shift distance }
    start := b.start + distance }

def Part.shift (distance : Nat) : Part → Part
  | tag letters => tag letters
  | body b => body (b.shift distance)

variable {d : Delimiters} {trims : Bool} {maxLength start offset distance : Nat}

@[simp] theorem Body.shift_position (b : Body) : (b.shift distance).position = b.position := by
  simp [position, shift, Function.comp_def]

@[simp] theorem Body.shift_endOccurrence (stop : Nat) (repeats : Bool) (b : Body) :
    (b.shift distance).endOccurrence trims (stop + distance) repeats =
      (b.endOccurrence trims stop repeats).shift distance := by
  simp only [endOccurrence, shift_position]
  simp [shift, Span.shift, Nat.add_right_comm]

/-- The verdicts on a segment do not depend on where it is in the stream. -/
theorem recognizer_feed_shift (p : Part) (c : Char) (k : CharClass) (ho : 0 < offset) :
    (recognizer d trims maxLength (start + distance)).feed (p.shift distance) (offset + distance)
        c k =
      ((recognizer d trims maxLength start).feed p offset c k).shift distance
        (·.shift distance) (·.shift distance) := by
  have hs : offset + distance - 1 = offset - 1 + distance := by omega
  cases p with
  | tag letters =>
    simp only [recognizer, Part.shift, hs]
    repeat' split
    all_goals rfl
  | body b =>
    have hc : (b.shift distance).current = b.current := rfl
    simp only [recognizer, Part.shift, hs, hc, Body.shift_endOccurrence]
    split
    · split <;> rfl
    · simp [Verdict.shift, Error.shiftOr, Segment.shift, Body.shift, Span.shift]
    · rfl

theorem recognizer_finish (d : Delimiters) (trims : Bool) (maxLength start : Nat) (p : Part)
    (offset : Nat) : ∃ offset' expected,
      (recognizer d trims maxLength start).finish p offset =
          .take (.error (.unexpectedEnd offset' expected)) ∨
        (recognizer d trims maxLength start).finish p offset =
          .leave (.error (.unexpectedEnd offset' expected)) := by
  cases p with
  | tag letters => exact ⟨_, _, .inl rfl⟩
  | body b =>
    simp only [recognizer]
    split
    · exact ⟨_, _, .inl rfl⟩
    · exact ⟨_, _, .inr rfl⟩

theorem recognizer_finish_shift (p : Part) :
    (recognizer d trims maxLength (start + distance)).finish (p.shift distance)
        (offset + distance) =
      ((recognizer d trims maxLength start).finish p offset).shift distance id
        (·.shift distance) := by
  cases p with
  | tag letters => rfl
  | body b =>
    have hc : (b.shift distance).current = b.current := rfl
    simp only [recognizer, Part.shift, hc]
    split <;> rfl

end Segment

end Edi
