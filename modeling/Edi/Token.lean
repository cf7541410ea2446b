import Edi.Occurrence
import Edi.Scanner

namespace Edi

inductive Token.Content
  | value (v : Value)
  | segmentEnd
  | endOfData
  deriving DecidableEq, Repr

structure Token where
  content : Token.Content
  span : Span
  /-- The occurrence follows a repetition separator. -/
  repeats : Bool
  deriving DecidableEq, Repr

structure ReadOccurrence where
  value : Value
  stop : Nat
  separator : Option Separator
  deriving DecidableEq, Repr

/-- Reads one element occurrence. There is none at the end of input, unless a repetition
separator has promised one. -/
def Occurrence.recognizer (trims : Bool) (maxLength : Nat) (promised : Bool) :
    Recognizer Occurrence (Option ReadOccurrence) where
  feed o offset c k :=
    match o.step c k with
    | .grown o =>
      if maxLength < o.length then .take (.error (.elementTooLong maxLength offset)) else .more o
    | .ended s => .take (.ok (some ⟨o.value trims, offset - 1, some s⟩))
  finish o offset :=
    if o.released then .take (.error (.unexpectedEnd offset "character after release"))
    else if o.isUntouched && !promised then .leave (.ok none)
    else .leave (.ok (some ⟨o.value trims, offset, none⟩))

namespace Scanner

def token (t : Scanner) : Except Error Token × Scanner :=
  match t.pendingEnd with
  | some span => (.ok ⟨.segmentEnd, span, false⟩, { t with pendingEnd := none })
  | none =>
    let start := t.offset
    let repeats := t.repeats
    match { t with repeats := false }.recognize
        (Occurrence.recognizer t.trims t.maxElementLength repeats) {} with
    | (.error e, t) => (.error e, t)
    | (.ok none, t) => (.ok ⟨.endOfData, ⟨start, start⟩, false⟩, t)
    | (.ok (some r), t) =>
      (.ok ⟨.value r.value, ⟨start, r.stop⟩, repeats⟩,
        { t with
          repeats := r.separator = some .repetition
          pendingEnd := if r.separator = some .terminator then some ⟨r.stop, t.offset⟩ else none })

def simpleValue (t : Scanner) : Except Error (Option String) × Scanner :=
  match t.token with
  | (.error e, t) => (.error e, t)
  | (.ok token, t) =>
    match token.content with
    | .value (.simple text) => (.ok (some text), t)
    | .value (.composite _) =>
      (.error (.malformedSegment token.span.start
        "composite element where a simple value was expected"), t)
    | _ => (.ok none, t)

def compositeElement (t : Scanner) : Except Error (Option (List (List String))) × Scanner :=
  match t.token with
  | (.error e, t) => (.error e, t)
  | (.ok token, t) =>
    match token.content with
    | .value (.simple text) => (.ok (some [[text]]), t)
    | .value (.composite parts) => (.ok (some parts), t)
    | _ => (.ok none, t)

end Scanner

end Edi
