import Edi.Envelope.Step
import Edi.Proofs.Error

namespace Edi

def Checked.shift {α : Type} (distance : Nat) (x : Checked α) : Checked α :=
  { x with problems := x.problems.map (·.shift distance) }

def Transition.shift (distance : Nat) (t : Transition) : Transition :=
  { t with problems := t.problems.map (·.shift distance) }

namespace Checked

variable {α β : Type} {distance : Nat}

@[simp] theorem shift_pure (a : α) : (pure a : Checked α).shift distance = pure a := rfl

@[simp] theorem shift_bind (x : Checked α) (f : α → Checked β) :
    (x >>= f).shift distance = x.shift distance >>= fun a ↦ (f a).shift distance := by
  simp [shift, bind]

@[simp] theorem shift_require (holds : Bool) (p : Problem) :
    (require holds p).shift distance = require holds (p.shift distance) := by
  cases holds <;> rfl

end Checked

namespace Segment

variable (distance : Nat) (s : Segment)

@[simp] theorem shift_tag : (s.shift distance).tag = s.tag := rfl

@[simp] theorem shift_shift (distance' : Nat) :
    (s.shift distance).shift distance' = s.shift (distance + distance') := by
  simp [shift, Span.shift, Nat.add_assoc]

@[simp] theorem element?_shift (position : Nat) :
    (s.shift distance).element? position = s.element? position := by
  simp only [element?, shift, List.find?_map, Function.comp_def, Option.map_map]

@[simp] theorem text_shift (position : Nat) :
    (s.shift distance).text position = s.text position := by
  simp only [text, element?_shift]

@[simp] theorem component_shift (position index : Nat) :
    (s.shift distance).component position index = s.component position index := by
  simp only [component, component?, element?_shift]

@[simp] theorem problem_shift (kind : Problem.Kind) (level : Level) (expected actual : String) :
    (s.shift distance).problem kind level expected actual =
      (s.problem kind level expected actual).shift distance := rfl

@[simp] theorem outOfPlace_shift (place : String) :
    (s.shift distance).outOfPlace place = (s.outOfPlace place).shift distance := rfl

@[simp] theorem simpleText_shift (position : Nat) (level : Level) :
    (s.shift distance).simpleText position level =
      (s.simpleText position level).shift distance := by
  simp only [simpleText, element?_shift]
  split <;> rfl

@[simp] theorem checkTrailer_shift (level : Level) (hasControl : Bool) (count : Nat)
    (control : String) :
    (s.shift distance).checkTrailer level hasControl count control =
      (s.checkTrailer level hasControl count control).shift distance := by
  simp only [checkTrailer, simpleText_shift]
  cases hasControl <;> simp

@[simp] theorem events_shift : (s.shift distance).events = s.events := by
  simp only [events, shift, List.filter_map, List.flatMap_map, Function.comp_def]
  rfl

end Segment

variable (distance : Nat) (s : Segment) (standard : Standard)

@[simp] theorem InterchangeHeader.ofSegment_shift :
    ofSegment standard (s.shift distance) = (ofSegment standard s).shift distance := by
  cases standard <;> simp [ofSegment, ofX12, ofEdifact, ofTradacoms] <;> rfl

@[simp] theorem GroupHeader.ofSegment_shift :
    ofSegment standard (s.shift distance) = (ofSegment standard s).shift distance := by
  cases standard <;> simp [ofSegment, ofX12, ofEdifact, ofTradacoms]

@[simp] theorem DocumentHeader.ofSegment_shift (version : Option String) :
    ofSegment standard version (s.shift distance) =
      (ofSegment standard version s).shift distance := by
  cases standard <;> simp [ofSegment, ofX12, ofEdifact, ofTradacoms]

namespace Envelope

theorem start_shift : start standard (s.shift distance) = (start standard s).shift distance := by
  simp [start, Transition.shift, Checked.shift]

variable (tables : LoopTables) (e : Envelope)

theorem groupOpened_shift :
    e.groupOpened (s.shift distance) = (e.groupOpened s).shift distance := by
  simp [groupOpened, Transition.shift, Checked.shift]

theorem groupClosed_shift (g : OpenGroup) :
    e.groupClosed (s.shift distance) g = (e.groupClosed s g).shift distance := by
  simp [groupClosed, Transition.shift, Checked.shift]

theorem documentOpened_shift : e.documentOpened tables (s.shift distance) =
    (e.documentOpened tables s).shift distance := by
  simp [documentOpened, Transition.shift, Checked.shift]

theorem documentClosed_shift (d : OpenDocument) :
    e.documentClosed (s.shift distance) d = (e.documentClosed s d).shift distance := by
  simp [documentClosed, Transition.shift, Checked.shift]

theorem interchangeClosed_shift (h : InterchangeHeader) :
    e.interchangeClosed (s.shift distance) h = (e.interchangeClosed s h).shift distance := by
  simp [interchangeClosed, Transition.shift, Checked.shift]

theorem dataMet_shift (d : OpenDocument) :
    e.dataMet (s.shift distance) d = (e.dataMet s d).shift distance := by
  simp [dataMet, Transition.shift, Transition.plain]

theorem data_shift : e.data (s.shift distance) =
    Error.shiftOr distance (·.shift distance) (e.data s) := by
  simp only [data]
  split
  · rfl
  · rw [dataMet_shift]
    rfl

/-- What an envelope segment brings about does not depend on where it is in the stream, except that
problems and errors show where it is. -/
theorem step_shift : e.step tables (s.shift distance) =
    Error.shiftOr distance (·.shift distance) (e.step tables s) := by
  cases hr : e.standard.role s.tag with
  | interchangeHeader => simp only [step, Segment.shift_tag, hr]; rfl
  | interchangeTrailer =>
    simp only [step, Segment.shift_tag, hr, closeInterchange, interchangeClosed_shift]
    repeat' split
    all_goals rfl
  | groupHeader =>
    simp only [step, Segment.shift_tag, hr, openGroup, groupOpened_shift]
    repeat' split
    all_goals rfl
  | groupTrailer =>
    simp only [step, Segment.shift_tag, hr, closeGroup, groupClosed_shift]
    repeat' split
    all_goals rfl
  | documentHeader =>
    simp only [step, Segment.shift_tag, hr, openDocument, documentOpened_shift]
    split <;> rfl
  | documentTrailer =>
    simp only [step, Segment.shift_tag, hr, closeDocument, documentClosed_shift]
    split <;> rfl
  | interchangeData =>
    simp only [step, Segment.shift_tag, hr, data_shift, Segment.events_shift]
    repeat' split
    all_goals rfl
  | data => simp only [step, Segment.shift_tag, hr, data_shift]

end Envelope

end Edi
