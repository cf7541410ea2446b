import Edi.Event
import Edi.Standard
import Edi.Timestamp

namespace Edi

structure Party where
  id : String
  qualifier : String
  deriving DecidableEq, Repr

/-- The envelope around a document or an interchange that has just ended. The group and document
fields are absent where no group or document is around or in question. -/
structure Closing where
  standard : Standard
  sender : Party
  receiver : Party
  interchangeControl : String
  groupControl : Option String := none
  documentControl : Option String := none
  documentType : Option String := none
  version : Option String
  timestamp : Option Timestamp
  deriving DecidableEq, Repr

/-- What a reading hands out: events, and a notice after each document and each interchange. -/
inductive Emission
  | event (e : Event)
  | closed (c : Closing)
  deriving DecidableEq, Repr

def Standard.key : Standard → String
  | x12 => "X12"
  | edifact => "Edifact"
  | tradacoms => "Tradacoms"

namespace Closing

def isDocument (c : Closing) : Bool := c.documentControl.isSome

def toJson (c : Closing) : Json :=
  .object [("standard", .string c.standard.key),
    ("sender", .string c.sender.id), ("sender_qualifier", .string c.sender.qualifier),
    ("receiver", .string c.receiver.id), ("receiver_qualifier", .string c.receiver.qualifier),
    ("interchange_control", .string c.interchangeControl),
    ("group_control", .ofOption c.groupControl),
    ("document_control", .ofOption c.documentControl),
    ("document_type", .ofOption c.documentType),
    ("version", .ofOption c.version),
    ("timestamp", .ofOption (c.timestamp.map (Timestamp.text "T")))]

end Closing

namespace Emission

def events (es : List Emission) : List Event :=
  es.filterMap fun
    | event e => some e
    | closed _ => none

def closings (es : List Emission) : List Closing :=
  es.filterMap fun
    | event _ => none
    | closed c => some c

end Emission

end Edi
