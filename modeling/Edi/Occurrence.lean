import Edi.Delimiters
import Edi.Segment
import Edi.Text.Blank

namespace Edi

inductive Separator
  | field
  | repetition
  | terminator
  deriving DecidableEq, Repr

/-- An element occurrence while it is read. All lists are newest first. -/
structure Occurrence where
  leaf : List Char := []
  pieces : List (List Char) := []
  parts : List (List (List Char)) := []
  length : Nat := 0
  /-- A release character was read, and the next character is data. -/
  released : Bool := false
  deriving DecidableEq, Repr

inductive Occurrence.Step
  | grown (o : Occurrence)
  | ended (separator : Separator)
  deriving DecidableEq, Repr

namespace Occurrence

def push (c : Char) (o : Occurrence) : Occurrence :=
  { o with leaf := c :: o.leaf, length := o.length + 1, released := false }

def openPart (o : Occurrence) : List (List Char) := (o.leaf.reverse :: o.pieces).reverse

def endPiece (o : Occurrence) : Occurrence :=
  { o with leaf := [], pieces := o.leaf.reverse :: o.pieces }

def endPart (o : Occurrence) : Occurrence :=
  { o with leaf := [], pieces := [], parts := o.openPart :: o.parts }

def step (c : Char) (k : CharClass) (o : Occurrence) : Step :=
  if o.released then .grown (o.push c)
  else match k with
    | .data => .grown (o.push c)
    | .release => .grown { o with released := true }
    | .subElement => .grown o.endPart
    | .subSubElement => .grown o.endPiece
    | .field => .ended .field
    | .repetition => .ended .repetition
    | .terminator => .ended .terminator

theorem step_ended {o : Occurrence} {c : Char} {k : CharClass} {s : Separator}
    (h : o.step c k = .ended s) :
    k = match s with
      | .field => .field
      | .repetition => .repetition
      | .terminator => .terminator := by
  simp only [step] at h
  repeat' split at h
  all_goals simp only [reduceCtorEq, Step.ended.injEq] at h
  all_goals exact h ▸ rfl

def isComposite (o : Occurrence) : Bool := !(o.pieces.isEmpty && o.parts.isEmpty)

def isUntouched (o : Occurrence) : Bool := o.length = 0 && !o.isComposite && !o.released

def leafText (trims : Bool) (cs : List Char) : String :=
  String.ofList (if trims then Text.strip Text.isPadding cs else cs)

def value (trims : Bool) (o : Occurrence) : Value :=
  if o.isComposite then
    .composite ((o.openPart :: o.parts).reverse.map fun pieces ↦ pieces.map (leafText trims))
  else
    .simple (leafText trims o.leaf.reverse)

end Occurrence

end Edi
