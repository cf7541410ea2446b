import Edi.Span

namespace Edi

/-- The content of one element occurrence. A composite is a list of parts, and a part a list of
pieces, which has one member unless a separator of the lowest level occurs in it. -/
inductive Value
  | simple (text : String)
  | composite (parts : List (List String))
  deriving DecidableEq, Repr

namespace Value

def first : Value → String
  | simple text => text
  | composite parts => (parts.head?.bind List.head?).getD ""

def isComposite : Value → Bool
  | simple _ => false
  | composite _ => true

def isEmpty : Value → Bool
  | simple text => text.isEmpty
  | composite parts => parts.all fun pieces ↦ pieces.all String.isEmpty

end Value

/-- One element occurrence. Positions count from 1, and repeated occurrences share theirs. -/
structure Field where
  position : Nat
  repeats : Bool
  value : Value
  span : Span
  deriving DecidableEq, Repr

structure Segment where
  tag : String
  fields : List Field
  span : Span
  deriving DecidableEq, Repr

namespace Segment

def element? (s : Segment) (position : Nat) : Option Value :=
  (s.fields.find? (·.position = position)).map (·.value)

def text (s : Segment) (position : Nat) : String := ((s.element? position).map Value.first).getD ""

def component? (s : Segment) (position index : Nat) : Option String :=
  match s.element? position, index with
  | some (.simple text), 1 => some text
  | some (.composite parts), i + 1 => parts[i]?.bind List.head?
  | _, _ => none

def component (s : Segment) (position index : Nat) : String :=
  (s.component? position index).getD ""

def elementCount (s : Segment) : Nat := (s.fields.map (·.position)).foldl max 0

def shift (distance : Nat) (s : Segment) : Segment :=
  { s with
    fields := s.fields.map fun f ↦ { f with span := f.span.shift distance }
    span := s.span.shift distance }

end Segment

end Edi
