import Edi.Event
import Edi.Segment
import Edi.Text.Numeral

namespace Edi

def pieceEvents (pieces : List String) : List Event :=
  (pieces.zipIdx 1).flatMap fun (piece, i) ↦
    if piece.isEmpty then []
    else Event.leaf ElementName.subSubElement (.ofList [("Sequence", toString i)]) piece

def partEvents (parts : List (List String)) : List Event :=
  (parts.zipIdx 1).flatMap fun (pieces, i) ↦
    let attributes := Attributes.ofList [("Sequence", toString i)]
    if pieces.all String.isEmpty then []
    else match pieces with
      | [piece] => Event.leaf ElementName.subElement attributes piece
      | _ =>
        .elementStart ElementName.subElement attributes :: pieceEvents pieces ++
          [.elementEnd ElementName.subElement]

/-- An element occurrence, named after the segment and its position there. -/
def Field.events (tag : String) (f : Field) : List Event :=
  let id := ("Id", tag ++ Text.zeroPadded 2 f.position)
  match f.value with
  | .simple text => Event.leaf ElementName.element (.ofList [id]) text
  | .composite parts =>
    .elementStart ElementName.element (.ofList [id, ("Composite", "yes")]) :: partEvents parts ++
      [.elementEnd ElementName.element]

def Segment.events (s : Segment) : List Event :=
  .elementStart ElementName.segment (.ofList [("Id", s.tag)]) ::
    (s.fields.filter (!·.value.isEmpty)).flatMap (Field.events s.tag) ++
    [.elementEnd ElementName.segment]

end Edi
