import Edi.Envelope.State
import Edi.Segment.Events

namespace Edi

/-- What an envelope segment brings about: events at once, problems to be judged one by one, and
if all of them are passed over, more emissions and the state after the segment. A refused problem
leaves the envelope `halted`. -/
structure Transition where
  announced : List Event := []
  problems : List Problem := []
  halted : Envelope
  completed : List Emission := []
  next : Envelope
  deriving DecidableEq, Repr

def Transition.plain (announced : List Event) (next : Envelope) : Transition :=
  { announced, halted := next, next }

def Party.events (name : String) (p : Party) : List Event :=
  [.elementStart name .empty,
    .elementStart ElementName.address
      ((Attributes.ofList [("Id", p.id)]).insertNonempty "Qual" p.qualifier),
    .elementEnd ElementName.address, .elementEnd name]

def Segment.outOfPlace (s : Segment) (place : String) : Error :=
  .unexpectedSegment s.tag place s.span.start

namespace Envelope

def start (standard : Standard) (header : Segment) : Transition :=
  let h := InterchangeHeader.ofSegment standard header
  let e : Envelope := { standard, header := h.value, pending := some h.value }
  { announced :=
      .elementStart ElementName.interchange
          ((Attributes.ofList [("Standard", standard.name)]).extend h.value.attributes.entries) ::
        h.value.sender.events ElementName.sender ++ h.value.receiver.events ElementName.receiver
    problems := h.problems
    halted := e
    next := e }

def groupOpened (s : Segment) (e : Envelope) : Transition :=
  let h := GroupHeader.ofSegment e.standard s
  let next := { e with
    phase := .groupHeader, group := some { header := h.value }, groups := e.groups + 1 }
  { announced := [.elementStart ElementName.group h.value.attributes]
    problems := h.problems
    halted := next
    next }

def openGroup (s : Segment) (e : Envelope) : Except Error Transition :=
  if e.document.isSome then .error (s.outOfPlace "inside a document")
  else if e.group.isSome then .error (s.outOfPlace "inside a group")
  else if e.grouping = .ungrouped then .error (s.outOfPlace "after ungrouped documents")
  else .ok (e.groupOpened s)

def groupClosed (s : Segment) (g : OpenGroup) (e : Envelope) : Transition :=
  { problems :=
      (s.checkTrailer .group e.standard.trailersCarryControl g.documents
        g.header.control).problems
    halted := e
    completed := [.event (.elementEnd ElementName.group)]
    next := { e with phase := .groupTrailer, group := none } }

def closeGroup (s : Segment) (e : Envelope) : Except Error Transition :=
  if e.document.isSome then .error (s.outOfPlace "inside a document")
  else match e.group with
  | none => .error (s.outOfPlace "outside a group")
  | some g => .ok (e.groupClosed s g)

def documentObstacle? (e : Envelope) : Option String :=
  if e.document.isSome then some "inside a document"
  else if e.group.isSome then none
  else if e.standard.requiresGroups then some "outside a group"
  else if e.grouping = .grouped then some "outside a group after grouped documents"
  else none

def documentOpened (tables : LoopTables) (s : Segment) (e : Envelope) : Transition :=
  let h := DocumentHeader.ofSegment e.standard (e.group.bind (·.header.version)) s
  let table := tables.find? e.standard (Text.trim h.value.documentType)
  let next := { e with
    phase := .documentHeader
    group := e.group.map fun g ↦ { g with documents := g.documents + 1 }
    document := some { header := h.value, loops := .start table }
    documents := e.documents + 1
    grouping := if e.group.isSome then .grouped else .ungrouped }
  { announced := [.elementStart ElementName.transaction h.value.attributes]
    problems := h.problems
    halted := next
    next }

def openDocument (tables : LoopTables) (s : Segment) (e : Envelope) : Except Error Transition :=
  match e.documentObstacle? with
  | some place => .error (s.outOfPlace place)
  | none => .ok (e.documentOpened tables s)

def documentClosed (s : Segment) (d : OpenDocument) (e : Envelope) : Transition :=
  { problems :=
      (s.checkTrailer .document e.standard.trailersCarryControl (d.segments + 1)
        d.header.control).problems
    halted := e
    completed :=
      (d.loops.closeAll.1 ++ [Event.elementEnd ElementName.transaction]).map .event ++
        [.closed (e.closing (some d.header))]
    next := { e with phase := .documentTrailer, document := none } }

def closeDocument (s : Segment) (e : Envelope) : Except Error Transition :=
  match e.document with
  | none => .error (s.outOfPlace "outside a document")
  | some d => .ok (e.documentClosed s d)

def interchangeClosed (s : Segment) (h : InterchangeHeader) (e : Envelope) : Transition :=
  { problems :=
      (s.checkTrailer .interchange e.standard.trailersCarryControl
        (e.standard.interchangeCount e.groups e.documents) h.control).problems
    halted := { e with phase := .interchangeTrailer, pending := none }
    completed := [.event (.elementEnd ElementName.interchange), .closed (e.closing none)]
    next := { e with phase := .done, pending := none } }

def closeInterchange (s : Segment) (e : Envelope) : Except Error Transition :=
  if e.document.isSome then .error (s.outOfPlace "inside a document")
  else if e.group.isSome then .error (s.outOfPlace "inside a group")
  else match e.pending with
  | none => .error (.internal "interchange trailer before header")
  | some h => .ok (e.interchangeClosed s h)

def dataMet (s : Segment) (d : OpenDocument) (e : Envelope) : Transition :=
  let (_, events, loops) := d.loops.transition s.tag
  .plain (events ++ s.events) { e with
    phase := .segment, document := some { d with segments := d.segments + 1, loops } }

def data (s : Segment) (e : Envelope) : Except Error Transition :=
  match e.document with
  | none => .error (s.outOfPlace "outside a document")
  | some d => .ok (e.dataMet s d)

def step (tables : LoopTables) (s : Segment) (e : Envelope) : Except Error Transition :=
  match e.standard.role s.tag with
  | .interchangeHeader => .error (s.outOfPlace "inside an interchange")
  | .interchangeTrailer => e.closeInterchange s
  | .groupHeader => e.openGroup s
  | .groupTrailer => e.closeGroup s
  | .documentHeader => e.openDocument tables s
  | .documentTrailer => e.closeDocument s
  | .interchangeData =>
    if e.document.isSome then e.data s
    else if e.group.isSome then .error (s.outOfPlace "inside a group")
    else .ok (.plain s.events e)
  | .data => e.data s

end Envelope

end Edi
