import Edi.Problem
import Edi.Segment
import Edi.Text.Blank
import Edi.Text.Numeral

namespace Edi

/-- A value, and the problems met on the way to it. -/
structure Checked (α : Type) where
  value : α
  problems : List Problem := []
  deriving Repr

namespace Checked

instance : Monad Checked where
  pure a := { value := a }
  bind x f := { value := (f x.value).value, problems := x.problems ++ (f x.value).problems }

def require (holds : Bool) (p : Problem) : Checked Unit :=
  { value := (), problems := if holds then [] else [p] }

end Checked

namespace Segment

def problem (s : Segment) (kind : Problem.Kind) (level : Level) (expected actual : String) :
    Problem :=
  { kind, level, segment := s.tag, expected, actual, offset := s.span.start }

/-- The text of an element that ought to be simple. Of a composite the first piece is used. -/
def simpleText (s : Segment) (position : Nat) (level : Level) : Checked String :=
  match s.element? position with
  | none => { value := "" }
  | some (.simple text) => { value := text }
  | some (.composite parts) =>
    { value := (Value.composite parts).first
      problems :=
        [s.problem .malformedComposite level ("simple value in element " ++ toString position)
          (":".intercalate (parts.map ("&".intercalate ·)))] }

end Segment

/-- Control numbers agree if their texts do, or the numbers that the texts denote. -/
def sameControl (expected actual : String) : Bool :=
  let a := Text.strip Text.isWhite expected.toList
  let b := Text.strip Text.isWhite actual.toList
  a = b || ((Text.natural? a).isSome && Text.natural? a = Text.natural? b)

def Segment.checkTrailer (s : Segment) (level : Level) (hasControl : Bool) (count : Nat)
    (control : String) : Checked Unit := do
  let declared ← s.simpleText 1 level
  Checked.require (Text.natural? (Text.strip Text.isWhite declared.toList) = some count)
    (s.problem .countMismatch level (toString count) declared)
  if hasControl then
    let declared ← s.simpleText 2 level
    Checked.require (sameControl control declared)
      (s.problem .controlNumberMismatch level control declared)

end Edi
