import Edi.Attributes
import Edi.Json

namespace Edi

inductive Event
  | documentStart
  | documentEnd
  | elementStart (name : String) (attributes : Attributes)
  | elementEnd (name : String)
  | text (text : String)
  deriving DecidableEq, Repr

namespace Event

def name? : Event → Option String
  | elementStart name _ | elementEnd name => some name
  | _ => none

def isStartOf (name : String) : Event → Bool
  | elementStart n _ => n = name
  | _ => false

def isEndOf (name : String) : Event → Bool
  | elementEnd n => n = name
  | _ => false

def leaf (name : String) (attributes : Attributes) (text : String) : List Event :=
  [elementStart name attributes, .text text, elementEnd name]

def starts (name : String) (events : List Event) : List Attributes :=
  events.filterMap fun
    | elementStart n attributes => if n = name then some attributes else none
    | _ => none

end Event

def Attributes.toJson (a : Attributes) : Json :=
  .object (a.entries.map fun e ↦ (e.1, .string e.2))

def Event.toJson : Event → Json
  | documentStart => .object [("event", .string "start_document")]
  | documentEnd => .object [("event", .string "end_document")]
  | elementStart name attributes =>
    .object [("event", .string "start"), ("name", .string name),
      ("attributes", attributes.toJson)]
  | elementEnd name => .object [("event", .string "end"), ("name", .string name)]
  | text t => .object [("event", .string "text"), ("text", .string t)]

namespace ElementName

def root : String := "ediroot"
def interchange : String := "interchange"
def sender : String := "sender"
def receiver : String := "receiver"
def address : String := "address"
def group : String := "group"
def transaction : String := "transaction"
def loop : String := "loop"
def segment : String := "segment"
def element : String := "element"
def subElement : String := "subelement"
def subSubElement : String := "subsubelement"

end ElementName

end Edi
