import Edi.Error

namespace Edi

inductive Standard
  | x12
  | edifact
  | tradacoms
  deriving DecidableEq, Repr

namespace Standard

def name : Standard → String
  | x12 => "ANSI X.12"
  | edifact => "EDIFACT"
  | tradacoms => "TRADACOMS"

def quotedLength : Nat := 16

/-- The standard whose interchanges begin as the text `cs` does; none for an empty text. -/
def detect (cs : List Char) : Except Error (Option Standard) :=
  match cs with
  | [] => .ok none
  | 'I' :: 'S' :: 'A' :: _ => .ok (some x12)
  | 'U' :: 'N' :: 'A' :: _ | 'U' :: 'N' :: 'B' :: _ => .ok (some edifact)
  | 'S' :: 'T' :: 'X' :: _ => .ok (some tradacoms)
  | _ => .error (.unsupportedDialect (String.ofList (cs.take quotedLength)))

end Standard

end Edi
