namespace Edi

inductive CharClass
  | data
  | field
  | subElement
  | subSubElement
  | terminator
  | release
  | repetition
  deriving DecidableEq, Repr

/-- The service characters of one interchange. -/
structure Delimiters where
  field : Char
  terminator : Char
  /-- What conventionally follows the terminator, such as a line end. -/
  terminatorSuffix : Option String := none
  subElement : Option Char := none
  subSubElement : Option Char := none
  release : Option Char := none
  repetition : Option Char := none
  /-- Stands between a segment's tag and its first element. -/
  tag : Option Char := none
  decimalMark : Option Char := none
  deriving DecidableEq, Repr

namespace Delimiters

def edifact : Delimiters :=
  { field := '+', terminator := '\'', subElement := some ':', release := some '?',
    decimalMark := some '.' }

def tradacoms : Delimiters :=
  { field := '+', terminator := '\'', subElement := some ':', release := some '?',
    tag := some '=' }

def withTerminatorSuffix (d : Delimiters) (suffix : String) : Delimiters :=
  { d with terminatorSuffix := if suffix.isEmpty then none else some suffix }

/-- A character with several roles has the first of them in this order. -/
def classify (d : Delimiters) (c : Char) : CharClass :=
  if c = d.terminator then .terminator
  else if c = d.field then .field
  else if some c = d.subElement then .subElement
  else if some c = d.subSubElement then .subSubElement
  else if some c = d.release then .release
  else if some c = d.repetition then .repetition
  else .data

def isDelimiter (d : Delimiters) (c : Char) : Bool := d.classify c ≠ .data

end Delimiters

end Edi
