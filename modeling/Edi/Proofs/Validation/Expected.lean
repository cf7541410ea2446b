import Edi.Envelope.Step

namespace Edi

def Level.headerRole : Level → Role
  | .interchange => .interchangeHeader
  | .group => .groupHeader
  | .document => .documentHeader

namespace Standard

def controlPosition : Standard → Level → Nat
  | x12, .interchange => 13
  | x12, .group => 6
  | x12, .document => 2
  | edifact, .interchange => 5
  | edifact, .group => 5
  | edifact, .document => 1
  | tradacoms, .interchange => 5
  | tradacoms, .group => 1
  | tradacoms, .document => 1

/-- The elements of a header that have to be simple. An X12 interchange header has no others. -/
def simplePositions : Standard → Level → List Nat
  | x12, .interchange => []
  | x12, .document => [1, 2]
  | standard, level => [standard.controlPosition level]

def isHeader (standard : Standard) (level : Level) (s : Segment) : Bool :=
  standard.role s.tag = level.headerRole

/-- What a trailer has to count, where `past` are the segments of its interchange before it, newest
first. A document is counted with its header and its trailer. -/
def trueCount (standard : Standard) (past : List Segment) : Level → Nat
  | .document => (past.takeWhile (!standard.isHeader .document ·)).length + 2
  | .group => (past.takeWhile (!standard.isHeader .group ·)).countP (standard.isHeader .document)
  | .interchange =>
    let groups := past.countP (standard.isHeader .group)
    if standard = tradacoms ∨ groups = 0 then past.countP (standard.isHeader .document) else groups

def trueControl (standard : Standard) (header : Segment) (past : List Segment) (level : Level) :
    String :=
  let last := if level = .interchange then some header else past.find? (standard.isHeader level)
  (last.map (·.text (standard.controlPosition level))).getD ""

end Standard

namespace Segment

variable (standard : Standard) (level : Level) (s : Segment)

def compositeProblems (position : Nat) : List Problem :=
  match s.element? position with
  | some (.composite parts) =>
    [s.problem .malformedComposite level ("simple value in element " ++ toString position)
      (":".intercalate (parts.map ("&".intercalate ·)))]
  | _ => []

def headerProblems : List Problem :=
  (standard.simplePositions level).flatMap (s.compositeProblems level)

def lengthProblems : List Problem :=
  let control := s.text (standard.controlPosition .interchange)
  match standard with
  | .x12 =>
    if control.length = 9 then []
    else [⟨.fieldLength, .interchange, "ISA", "9 characters in ISA13", control, s.span.start⟩]
  | .edifact =>
    if control.length ≤ 14 then []
    else [⟨.fieldLength, .interchange, "UNB", "at most 14 characters in UNB05", control,
      s.span.start⟩]
  | .tradacoms => []

def countProblems (count : Nat) : List Problem :=
  if Text.natural? (Text.strip Text.isWhite (s.text 1).toList) = some count then []
  else [s.problem .countMismatch level (toString count) (s.text 1)]

def controlProblems (control : String) : List Problem :=
  if sameControl control (s.text 2) then []
  else [s.problem .controlNumberMismatch level control (s.text 2)]

def trailerProblems (count : Nat) (control : String) : List Problem :=
  s.compositeProblems level 1 ++ s.countProblems level count ++
    if standard = .tradacoms then []
    else s.compositeProblems level 2 ++ s.controlProblems level control

end Segment

structure Interchange where
  standard : Standard
  header : Segment
  body : List Segment

namespace Interchange

/-- The problems of the segment `s` that stands after the segments `past` of an interchange. -/
def problemsOf (standard : Standard) (header : Segment) (past : List Segment) (s : Segment) :
    List Problem :=
  let trailer (level : Level) : List Problem :=
    s.trailerProblems standard level (standard.trueCount past level)
      (standard.trueControl header past level)
  match standard.role s.tag with
  | .groupHeader => s.headerProblems standard .group
  | .documentHeader => s.headerProblems standard .document
  | .groupTrailer => trailer .group
  | .documentTrailer => trailer .document
  | .interchangeTrailer => trailer .interchange
  | _ => []

def problemsAfter (standard : Standard) (header : Segment) (past : List Segment) :
    List Segment → List Problem
  | [] => []
  | s :: ss =>
    problemsOf standard header past s ++ problemsAfter standard header (s :: past) ss

def problems (i : Interchange) : List Problem :=
  i.header.headerProblems i.standard .interchange ++ i.header.lengthProblems i.standard ++
    problemsAfter i.standard i.header [] i.body

end Interchange

end Edi
