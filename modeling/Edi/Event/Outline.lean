import Edi.Event

namespace Edi.Event

def hiddenNames : List String :=
  [ElementName.element, ElementName.subElement, ElementName.subSubElement, ElementName.sender,
    ElementName.receiver, ElementName.address]

def outlineLine (name : String) (attributes : Attributes) : String :=
  if name = ElementName.loop ∨ name = ElementName.segment then
    match attributes.get? "Id" with
    | some id => name ++ ":" ++ id
    | none => name
  else name

/-- The lines of the elements that begin in `events`, indented by the elements shown around them.
`around` tells of each open element, innermost first, whether it is shown. -/
def outlineLines (around : List Bool) : List Event → List String
  | [] => []
  | elementStart name attributes :: es =>
    let shown := !hiddenNames.contains name
    let lines := outlineLines (shown :: around) es
    if shown then
      let indent := String.ofList (List.replicate (2 * around.count true) ' ')
      (indent ++ outlineLine name attributes) :: lines
    else lines
  | elementEnd _ :: es => outlineLines around.tail es
  | _ :: es => outlineLines around es

/-- The envelopes, loops and segments among `events`, one line each. -/
def outline (events : List Event) : String :=
  String.join ((outlineLines [] events).map (· ++ "\n"))

end Edi.Event
