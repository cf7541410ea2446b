import Edi.Closing
import Edi.Envelope.Checked

namespace Edi

structure InterchangeHeader where
  control : String
  attributes : Attributes
  sender : Party
  receiver : Party
  version : Option String
  timestamp : Option Timestamp
  deriving DecidableEq, Repr

structure GroupHeader where
  control : String
  attributes : Attributes
  version : Option String
  deriving DecidableEq, Repr

structure DocumentHeader where
  control : String
  attributes : Attributes
  documentType : String
  version : Option String
  deriving DecidableEq, Repr

def nonempty? (s : String) : Option String := if s.isEmpty then none else some s

namespace InterchangeHeader

def controlLength : Nat := 9

def maxControlLength : Nat := 14

def ofX12 (s : Segment) : Checked InterchangeHeader := do
  let control ← s.simpleText 13 .interchange
  Checked.require (control.length = controlLength)
    { s.problem .fieldLength .interchange (toString controlLength ++ " characters in ISA13")
        control with segment := "ISA" }
  return {
    control
    attributes := Attributes.empty
      |>.extendNonempty [("AuthorizationQual", s.text 1), ("Authorization", s.text 2),
        ("SecurityQual", s.text 3), ("Security", s.text 4), ("Date", s.text 9),
        ("Time", s.text 10), ("StandardsId", s.text 11), ("Version", s.text 12)]
      |>.insert "Control" control
      |>.extendNonempty [("AckRequest", s.text 14), ("TestIndicator", s.text 15)]
    sender := ⟨s.component 6 1, s.component 5 1⟩
    receiver := ⟨s.component 8 1, s.component 7 1⟩
    version := nonempty? (s.text 12)
    timestamp := Timestamp.ofFields? (s.text 9) (s.text 10) }

def ofEdifact (s : Segment) : Checked InterchangeHeader := do
  let control ← s.simpleText 5 .interchange
  Checked.require (control.length ≤ maxControlLength)
    { s.problem .fieldLength .interchange
        ("at most " ++ toString maxControlLength ++ " characters in UNB05") control with
      segment := "UNB" }
  return {
    control
    attributes := Attributes.empty
      |>.extendNonempty [("SyntaxId", s.component 1 1), ("SyntaxVersion", s.component 1 2),
        ("Date", s.component 4 1), ("Time", s.component 4 2)]
      |>.insert "Control" control
      |>.extendNonempty [("RecipientRef", s.component 6 1), ("ApplRef", s.component 7 1),
        ("Priority", s.component 8 1), ("AckRequest", s.component 9 1),
        ("Agreement", s.component 10 1), ("TestIndicator", s.component 11 1)]
    sender := ⟨s.component 2 1, s.component 2 2⟩
    receiver := ⟨s.component 3 1, s.component 3 2⟩
    version := nonempty? (s.component 1 2)
    timestamp := Timestamp.ofFields? (s.component 4 1) (s.component 4 2) }

def ofTradacoms (s : Segment) : Checked InterchangeHeader := do
  let control ← s.simpleText 5 .interchange
  return {
    control
    attributes := Attributes.empty
      |>.extendNonempty [("SyntaxId", s.component 1 1), ("SyntaxVersion", s.component 1 2),
        ("SenderName", s.component 2 2), ("ReceiverName", s.component 3 2),
        ("Date", s.component 4 1), ("Time", s.component 4 2)]
      |>.insert "Control" control
      |>.extendNonempty [("RecipientRef", s.component 6 1), ("ApplRef", s.component 7 1),
        ("Priority", s.component 8 1)]
    sender := ⟨s.component 2 1, ""⟩
    receiver := ⟨s.component 3 1, ""⟩
    version := nonempty? (s.component 1 2)
    timestamp := Timestamp.ofFields? (s.component 4 1) (s.component 4 2) }

def ofSegment : Standard → Segment → Checked InterchangeHeader
  | .x12 => ofX12
  | .edifact => ofEdifact
  | .tradacoms => ofTradacoms

end InterchangeHeader

namespace GroupHeader

def ofX12 (s : Segment) : Checked GroupHeader := do
  let control ← s.simpleText 6 .group
  return {
    control
    attributes := Attributes.empty
      |>.extendNonempty [("GroupType", s.component 1 1), ("ApplSender", s.component 2 1),
        ("ApplReceiver", s.component 3 1), ("Date", s.component 4 1), ("Time", s.component 5 1)]
      |>.insert "Control" control
      |>.extendNonempty [("StandardCode", s.component 7 1), ("StandardVersion", s.component 8 1)]
    version := nonempty? (s.component 8 1) }

def ofEdifact (s : Segment) : Checked GroupHeader := do
  let control ← s.simpleText 5 .group
  return {
    control
    attributes := Attributes.empty
      |>.extendNonempty [("GroupType", s.component 1 1), ("ApplSender", s.component 2 1),
        ("ApplSenderQual", s.component 2 2), ("ApplReceiver", s.component 3 1),
        ("ApplReceiverQual", s.component 3 2), ("Date", s.component 4 1),
        ("Time", s.component 4 2)]
      |>.insert "Control" control
      |>.extendNonempty [("Agency", s.component 6 1), ("StandardVersion", s.component 7 1),
        ("StandardRelease", s.component 7 2)]
    version := nonempty? (s.component 7 1 ++ s.component 7 2) }

def ofTradacoms (s : Segment) : Checked GroupHeader := do
  let control ← s.simpleText 1 .group
  return { control, attributes := .ofList [("Control", control)], version := none }

def ofSegment : Standard → Segment → Checked GroupHeader
  | .x12 => ofX12
  | .edifact => ofEdifact
  | .tradacoms => ofTradacoms

end GroupHeader

namespace DocumentHeader

/-- The version of the group around it is the version of a document that states none. -/
def ofX12 (groupVersion : Option String) (s : Segment) : Checked DocumentHeader := do
  let documentType ← s.simpleText 1 .document
  let control ← s.simpleText 2 .document
  return {
    control
    attributes := (Attributes.ofList [("DocType", documentType), ("Control", control)])
      |>.insertNonempty "Version" (s.component 3 1)
    documentType
    version := (nonempty? (s.component 3 1)).or groupVersion }

def ofEdifact (groupVersion : Option String) (s : Segment) : Checked DocumentHeader := do
  let control ← s.simpleText 1 .document
  return {
    control
    attributes := (Attributes.ofList [("Control", control), ("DocType", s.component 2 1)])
      |>.extendNonempty [("Version", s.component 2 2), ("Release", s.component 2 3),
        ("Agency", s.component 2 4), ("Association", s.component 2 5)]
    documentType := s.component 2 1
    version := (nonempty? (s.component 2 2 ++ s.component 2 3)).or groupVersion }

def ofTradacoms (s : Segment) : Checked DocumentHeader := do
  let control ← s.simpleText 1 .document
  return {
    control
    attributes := (Attributes.ofList [("Control", control), ("DocType", s.component 2 1)])
      |>.insertNonempty "Version" (s.component 2 2)
    documentType := s.component 2 1
    version := nonempty? (s.component 2 2) }

def ofSegment (standard : Standard) (groupVersion : Option String) (s : Segment) :
    Checked DocumentHeader :=
  match standard with
  | .x12 => ofX12 groupVersion s
  | .edifact => ofEdifact groupVersion s
  | .tradacoms => ofTradacoms s

end DocumentHeader

end Edi
