import Edi.Proofs.Delimiters
import Edi.Segment.Recognizer

namespace Edi

namespace Delimiters

/-- A text can be written so that it is read back: no character means two things, none lends
itself to a tag, and there is one for release. -/
structure Unambiguous (d : Delimiters) : Prop where
  nodup : d.configured.Nodup
  not_letter : ∀ c ∈ d.configured, Segment.isTagLetter c = false
  release : d.release.isSome

def mark (d : Delimiters) (repeats : Bool) : List Char :=
  if repeats then d.repetition.toList else [d.field]

def escapeCharacter (d : Delimiters) (c : Char) : List Char :=
  if d.isDelimiter c then d.release.toList ++ [c] else [c]

def escape (d : Delimiters) (text : String) : List Char := text.toList.flatMap d.escapeCharacter

end Delimiters

namespace Value

/-- A value as it is written: its leaves, with separators between the pieces of a part and between
the parts. -/
def write (d : Delimiters) (leaf : String → List Char) : Value → List Char
  | simple text => leaf text
  | composite parts => d.subElement.toList.intercalate
      (parts.map fun pieces ↦ d.subSubElement.toList.intercalate (pieces.map leaf))

def Separable (d : Delimiters) : Value → Prop
  | simple _ => True
  | composite parts => (1 < parts.length → d.subElement.isSome) ∧
      ∀ pieces ∈ parts, 1 < pieces.length → d.subSubElement.isSome

/-- A value that is told from every other by its leaves and the separators between them. -/
def Proper : Value → Prop
  | simple _ => True
  | composite parts => [] ∉ parts ∧ 1 < parts.flatten.length

def length : Value → Nat
  | simple text => text.length
  | composite parts => (parts.flatMap (·.flatMap String.toList)).length

structure Writable (d : Delimiters) (maxLength : Nat) (v : Value) : Prop where
  proper : v.Proper
  separable : v.Separable d
  length : v.length ≤ maxLength

end Value

theorem intercalate_concat (sep x : List Char) (xs : List (List Char)) :
    sep.intercalate (xs ++ [x]) = xs.flatMap (· ++ sep) ++ x := by
  induction xs with
  | nil => simp
  | cons y ys ih =>
    cases ys with
    | nil => simp
    | cons z zs =>
      rw [List.flatMap_cons, List.cons_append, List.cons_append, List.intercalate_cons_cons]
      rw [List.cons_append] at ih
      rw [ih, List.append_assoc, List.append_assoc, List.append_assoc]

end Edi
