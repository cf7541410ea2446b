import Edi.Problem
import Edi.Text.Quoted

namespace Edi

/-- Why reading cannot go on. Offsets count characters from the start of the stream. -/
inductive Error
  | io (message : String)
  | unexpectedEnd (offset : Nat) (expected : String)
  | elementTooLong (limit offset : Nat)
  | malformedSegment (offset : Nat) (message : String)
  | unsupportedDialect (found : String)
  | unexpectedSegment (segment state : String) (offset : Nat)
  | missingHeader (expected found : String)
  | internal (message : String)
  | aborted (problem : Problem)
  deriving DecidableEq, Repr

inductive Error.Category
  | lexical
  | envelope
  | validation
  | io
  | internal
  deriving DecidableEq, Repr

namespace Error

def category : Error → Category
  | io _ => .io
  | unexpectedEnd .. | elementTooLong .. | malformedSegment .. => .lexical
  | unsupportedDialect _ | unexpectedSegment .. | missingHeader .. => .envelope
  | aborted _ => .validation
  | internal _ => .internal

def message : Error → String
  | io text => "IO error: " ++ text
  | unexpectedEnd offset expected =>
    "Unexpected end of input at offset " ++ toString offset ++ ": expected " ++ expected
  | elementTooLong limit offset =>
    "Element longer than " ++ toString limit ++ " characters at offset " ++ toString offset ++
      "; check the delimiters"
  | malformedSegment offset text =>
    "Malformed segment at offset " ++ toString offset ++ ": " ++ text
  | unsupportedDialect found =>
    "No supported EDI dialect recognized; input begins with " ++ Text.quote found
  | unexpectedSegment segment state offset =>
    "Segment " ++ segment ++ " is not valid " ++ state ++ " at offset " ++ toString offset
  | missingHeader expected found => "Expected " ++ expected ++ " header, found " ++ found
  | internal text => "Internal error: " ++ text
  | aborted problem => "Parse aborted: " ++ problem.message

end Error

end Edi
