import Edi.Envelope.Header
import Edi.Envelope.Role
import Edi.Loop.Nesting

namespace Edi

/-- The part of the envelope that was met last. -/
inductive Phase
  | beforeInterchange
  | interchangeHeader
  | groupHeader
  | documentHeader
  | segment
  | documentTrailer
  | groupTrailer
  | interchangeTrailer
  | done
  deriving DecidableEq, Repr

structure OpenGroup where
  header : GroupHeader
  documents : Nat := 0
  deriving DecidableEq, Repr

structure OpenDocument where
  header : DocumentHeader
  /-- Segments so far, the header among them. -/
  segments : Nat := 1
  loops : LoopNesting
  deriving DecidableEq, Repr

inductive Grouping
  | undecided
  | grouped
  | ungrouped
  deriving DecidableEq, Repr

structure Envelope where
  standard : Standard
  /-- What the notices tell of the interchange, to its end and beyond. -/
  header : InterchangeHeader
  /-- The header of the interchange until the trailer takes it. -/
  pending : Option InterchangeHeader
  phase : Phase := .interchangeHeader
  group : Option OpenGroup := none
  document : Option OpenDocument := none
  groups : Nat := 0
  documents : Nat := 0
  grouping : Grouping := .undecided
  deriving DecidableEq, Repr

namespace Envelope

def loopPath (e : Envelope) : String := (e.document.map (·.loops.path)).getD LoopRule.rootPath

def closing (e : Envelope) (document : Option DocumentHeader) : Closing :=
  { standard := e.standard
    sender := e.header.sender
    receiver := e.header.receiver
    interchangeControl := e.header.control
    groupControl := e.group.map (·.header.control)
    documentControl := document.map (·.control)
    documentType := document.map (·.documentType)
    version := (document.bind (·.version)).or e.header.version
    timestamp := e.header.timestamp }

def missingTrailer (e : Envelope) : String :=
  if e.document.isSome then "document trailer"
  else if e.group.isSome then "group trailer"
  else "interchange trailer"

end Envelope

end Edi
