import Edi.Delimiters
import Edi.Occurrence
import Edi.Scanner
import Edi.Segment.Recognizer
import Edi.Standard
import Edi.Text.Alphanumeric

namespace Edi

/-- How the beginning of an interchange fixes its delimiters. -/
inductive Preamble
  /-- The header itself shows them: it is `length` characters long and already decoded, with
  spans that count from its first character. -/
  | decoded (delimiters : Delimiters) (length : Nat) (header : Segment)
  /-- A service string of `length` characters lists them; the header comes next. -/
  | advised (delimiters : Delimiters) (length : Nat)
  /-- The standard fixes them. -/
  | implied (delimiters : Delimiters)
  deriving DecidableEq, Repr

namespace Preamble

def delimiters : Preamble → Delimiters
  | decoded d _ _ | advised d _ | implied d => d

def values? (mark : Char) : Nat → List Char → Option (List (List Char) × List Char)
  | 0, cs => some ([], cs)
  | n + 1, cs =>
    match cs.dropWhile (· ≠ mark) with
    | [] => none
    | _ :: rest =>
      (values? mark n rest).map fun (values, rest) ↦ (cs.takeWhile (· ≠ mark) :: values, rest)

def simpleFields (trims : Bool) : Nat → Nat → List (List Char) → List Field
  | _, _, [] => []
  | start, position, v :: vs =>
    ⟨position, false, .simple (Occurrence.leafText trims v), ⟨start, start + v.length⟩⟩ ::
      simpleFields trims (start + v.length + 1) (position + 1) vs

def x12Length : Nat := 256

def repetitionVersion : String := "00402"

/-- The repetition separator that the elements of an X12 header declare: element 11, from a
certain version on, if it is one character that means nothing else. -/
def x12Repetition? (trims : Bool) (d : Delimiters) (values : List (List Char)) : Option Char :=
  match values[10]?, values[11]? with
  | some [c], some version =>
    if repetitionVersion ≤ Occurrence.leafText trims version ∧ !Text.isAlphanumeric c ∧
        !d.isDelimiter c then
      some c
    else none
  | _, _ => none

/-- Decodes a header `ISA f v₁ f v₂ … f v₁₅ f s t`: the field delimiter `f`, fifteen elements,
the sub-element delimiter `s` and the terminator `t`. -/
def ofX12 (trims : Bool) (preview : List Char) : Except Error Preamble :=
  match preview with
  | 'I' :: 'S' :: 'A' :: [] => .error (.unexpectedEnd preview.length "ISA field delimiter")
  | 'I' :: 'S' :: 'A' :: field :: body =>
    if Text.isAlphanumeric field || Text.isWhite field then
      .error (.malformedSegment 3 "ISA field delimiter is a letter, digit or blank")
    else match values? field 15 body with
    | none =>
      if preview.length < x12Length then
        .error (.unexpectedEnd preview.length "end of ISA segment")
      else .error (.malformedSegment 0 "ISA segment has fewer than 16 elements")
    | some (values, sub :: terminator :: after) =>
      let terminatorAt := values.foldl (fun n v ↦ n + (v.length + 1)) 5
      if terminator = field ∨ terminator = sub ∨ sub = field then
        .error (.malformedSegment terminatorAt "ISA delimiters are not distinct")
      else
        let suffix := after.takeWhile fun c ↦ c = '\r' || c = '\n'
        let d := Delimiters.withTerminatorSuffix { field, terminator, subElement := some sub }
          (String.ofList suffix)
        .ok (.decoded { d with repetition := x12Repetition? trims d values } (terminatorAt + 1)
          ⟨"ISA", simpleFields trims 4 1 (values ++ [[sub]]), ⟨0, terminatorAt + 1⟩⟩)
    | some _ => .error (.unexpectedEnd preview.length "ISA segment terminator")
  | _ => .error (.missingHeader "ISA" (String.ofList (preview.take 3)))

/-- A blank in a service string stands for a character that is not used. -/
def serviceCharacter (c : Char) : Option Char := if c = ' ' then none else some c

def ofEdifact (preview : List Char) : Except Error Preamble :=
  match preview with
  | 'U' :: 'N' :: 'B' :: _ => .ok (.implied .edifact)
  | 'U' :: 'N' :: 'A' :: sub :: field :: decimal :: release :: repetition :: terminator :: _ =>
    .ok (.advised
      { field, terminator, subElement := some sub, decimalMark := some decimal,
        release := serviceCharacter release, repetition := serviceCharacter repetition } 9)
  | 'U' :: 'N' :: 'A' :: _ => .error (.unexpectedEnd preview.length "UNA service characters")
  | _ => .error (.missingHeader "UNB" (String.ofList (preview.take 3)))

def ofTradacoms (preview : List Char) : Except Error Preamble :=
  match preview with
  | 'S' :: 'T' :: 'X' :: _ => .ok (.implied .tradacoms)
  | _ => .error (.missingHeader "STX" (String.ofList preview))

end Preamble

def Standard.previewLength : Standard → Nat
  | x12 => Preamble.x12Length
  | edifact => 9
  | tradacoms => 3

def Standard.preamble (standard : Standard) (trims : Bool) (preview : List Char) :
    Except Error Preamble :=
  match standard with
  | x12 => Preamble.ofX12 trims preview
  | edifact => Preamble.ofEdifact preview
  | tradacoms => Preamble.ofTradacoms preview

/-- The delimiters in force after a header. Syntax version 4 of EDIFACT has a repetition
separator by default. -/
def Standard.refine (standard : Standard) (advised : Bool) (header : Segment) (d : Delimiters) :
    Delimiters :=
  if standard = .edifact ∧ !advised ∧ header.component 1 2 = "4" then
    { d with repetition := some '*' }
  else d

end Edi
