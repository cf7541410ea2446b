namespace Edi

inductive Level
  | interchange
  | group
  | document
  deriving DecidableEq, Repr

def Level.text : Level → String
  | .interchange => "interchange"
  | .group => "group"
  | .document => "document"

inductive Problem.Kind
  | countMismatch
  | controlNumberMismatch
  | malformedComposite
  | fieldLength
  deriving DecidableEq, Repr

def Problem.Kind.text : Problem.Kind → String
  | .countMismatch => "count mismatch"
  | .controlNumberMismatch => "control number mismatch"
  | .malformedComposite => "malformed composite"
  | .fieldLength => "field length"

/-- A fault confined to one envelope segment. Reading can go on past it. -/
structure Problem where
  kind : Problem.Kind
  level : Level
  segment : String
  expected : String
  actual : String
  offset : Nat
  deriving DecidableEq, Repr

def Problem.message (p : Problem) : String :=
  p.kind.text ++ " in " ++ p.segment ++ " (" ++ p.level.text ++ "): expected " ++ p.expected ++
    ", found " ++ p.actual ++ " at offset " ++ toString p.offset

end Edi
