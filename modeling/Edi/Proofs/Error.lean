import Edi.Error

namespace Edi

def Problem.shift (distance : Nat) (p : Problem) : Problem :=
  { p with offset := p.offset + distance }

def Error.shift (distance : Nat) : Error → Error
  | unexpectedEnd offset expected => unexpectedEnd (offset + distance) expected
  | elementTooLong limit offset => elementTooLong limit (offset + distance)
  | malformedSegment offset message => malformedSegment (offset + distance) message
  | unexpectedSegment segment state offset => unexpectedSegment segment state (offset + distance)
  | aborted p => aborted (p.shift distance)
  | e => e

/-- What comes of something `distance` characters further on, if `f` takes the one success to the
other. -/
def Error.shiftOr {α β : Type} (distance : Nat) (f : α → β) : Except Error α → Except Error β
  | .ok a => .ok (f a)
  | .error e => .error (e.shift distance)

@[simp] theorem Problem.shift_zero (p : Problem) : p.shift 0 = p := rfl

@[simp] theorem Error.shift_zero (e : Error) : e.shift 0 = e := by cases e <;> rfl

theorem Error.shiftOr_zero {α : Type} {f : α → α} (hf : ∀ a, f a = a)
    (x : Except Error α) : Error.shiftOr 0 f x = x := by
  cases x with
  | error e => simp [shiftOr]
  | ok a => simp [shiftOr, hf]

end Edi
