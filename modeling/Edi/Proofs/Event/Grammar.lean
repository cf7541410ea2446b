import Edi.Closing
import Edi.Envelope.Role
import Edi.Proofs.Language

namespace Edi.EventGrammar

open scoped Computability

def within (name : String) (fits : Attributes → Prop) (content : Language Emission) :
    Language Emission :=
  {w | ∃ a u, fits a ∧ u ∈ content ∧
    w = .event (.elementStart name a) :: (u ++ [.event (.elementEnd name)])}

def text : Language Emission := {w | ∃ t, t ≠ "" ∧ w = [.event (.text t)]}

def subElement : Language Emission := within ElementName.subElement (fun _ ↦ True) text

def element : Language Emission :=
  within ElementName.element (fun _ ↦ True) (text + subElement * subElement∗)

def segment (fits : String → Prop) : Language Emission :=
  within ElementName.segment (fun a ↦ ∃ id, a.get? "Id" = some id ∧ fits id) element∗

def dataSegment : Language Emission := segment fun _ ↦ True

/-- What a transaction or a loop holds: loops and segments, where a loop begins with a segment. -/
inductive Body : List Emission → Prop
  | nil : Body []
  | segment {s w : List Emission} : s ∈ dataSegment → Body w → Body (s ++ w)
  | loop {a : Attributes} {s u w : List Emission} : s ∈ dataSegment → Body u → Body w →
      Body (.event (.elementStart ElementName.loop a) :: (s ++ u) ++
        .event (.elementEnd ElementName.loop) :: w)

def closed : Language Emission := {w | ∃ c, w = [.closed c]}

def transaction : Language Emission :=
  within ElementName.transaction (fun _ ↦ True) {w | Body w} * closed

def group : Language Emission := within ElementName.group (fun _ ↦ True) transaction∗

def emptyGroup : Language Emission := within ElementName.group (fun _ ↦ True) 1

def party (name : String) : Language Emission :=
  within name (fun _ ↦ True) (within ElementName.address (fun _ ↦ True) 1)

/-- What an interchange holds after its parties. Where transactions need no groups, all of them
stand in groups or none. -/
def content (standard : Standard) : Language Emission :=
  if standard.requiresGroups then (segment (· = "TA1") + group)∗
  else group∗ + emptyGroup∗ * transaction∗

def interchange (standard : Standard) : Language Emission :=
  within ElementName.interchange (fun a ↦ a.get? "Standard" = some standard.name)
    (party ElementName.sender * party ElementName.receiver * content standard) * closed

def interchanges : Language Emission := (⨆ standard, interchange standard)∗

def document : Language Emission :=
  {[.event .documentStart]} * within ElementName.root (fun _ ↦ True) interchanges *
    {[.event .documentEnd]}

def announcedEnd : Language Emission :=
  {w | ∃ n c, (n = ElementName.transaction ∨ n = ElementName.interchange) ∧
    w = [.event (.elementEnd n), .closed c]}

def otherEvent : Language Emission :=
  {w | ∃ e : Event, !e.isEndOf ElementName.transaction ∧ !e.isEndOf ElementName.interchange ∧
    w = [.event e]}

/-- Words in which each end of a transaction or an interchange, and nothing else, has its notice
just after it. -/
def noticed : Language Emission := (announcedEnd + otherEvent)∗

end Edi.EventGrammar
