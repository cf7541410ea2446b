import Edi.Envelope.Step
import Edi.Proofs.Segment.Balanced

namespace Edi

namespace Event

def isLoop (e : Event) : Bool := e.name? = some ElementName.loop

@[simp] theorem isLoop_elementStart (name : String) (a : Attributes) :
    (elementStart name a).isLoop = decide (name = ElementName.loop) := by
  simp [isLoop, name?]

@[simp] theorem isLoop_elementEnd (name : String) :
    (elementEnd name).isLoop = decide (name = ElementName.loop) := by
  simp [isLoop, name?]

end Event

namespace Emission

def unlooped (es : List Emission) : List Emission :=
  es.filter fun
    | event e => !e.isLoop
    | closed _ => true

@[simp] theorem unlooped_append (es fs : List Emission) :
    unlooped (es ++ fs) = unlooped es ++ unlooped fs :=
  List.filter_append _ _

theorem unlooped_map_event (events : List Event) :
    unlooped (events.map .event) = (events.filter (!·.isLoop)).map .event := by
  rw [unlooped, List.filter_map]
  rfl

theorem closings_unlooped (es : List Emission) : closings (unlooped es) = closings es := by
  induction es with
  | nil => rfl
  | cons e es ih =>
    cases e with
    | closed c => simpa [closings, unlooped] using ih
    | event e => cases he : e.isLoop <;> simpa [closings, unlooped, he] using ih

theorem events_unlooped (es : List Emission) :
    events (unlooped es) = (events es).filter (!·.isLoop) := by
  induction es with
  | nil => rfl
  | cons e es ih =>
    cases e with
    | closed c => simpa [events, unlooped] using ih
    | event e => cases he : e.isLoop <;> simpa [events, unlooped, he] using ih

end Emission

theorem Segment.unlooped_events (s : Segment) : s.events.filter (!·.isLoop) = s.events := by
  refine List.filter_eq_self.2 fun e he ↦ ?_
  have hn : e.name? ≠ some ElementName.loop := fun hn ↦
    absurd (s.events_balanced.name_mem he hn) (by decide)
  simp [Event.isLoop, hn]

namespace LoopNesting

theorem unlooped_endEvents (closed : List Frame) :
    (endEvents closed).filter (!·.isLoop) = [] := by
  refine List.filter_eq_nil_iff.2 fun e he ↦ ?_
  obtain ⟨_, -, rfl⟩ := List.mem_map.1 he
  simp

theorem unlooped_transition (tag : String) (n : LoopNesting) :
    (n.transition tag).2.1.filter (!·.isLoop) = [] := by
  simp only [transition, apply]
  repeat' split
  all_goals simp [unlooped_endEvents]

end LoopNesting

namespace Envelope

/-- The envelope as it is where there are no tables. -/
def unlooped (e : Envelope) : Envelope :=
  { e with document := e.document.map fun d ↦ { d with loops := .start none } }

@[simp] theorem unlooped_phase (e : Envelope) : e.unlooped.phase = e.phase := rfl

@[simp] theorem unlooped_document_isSome (e : Envelope) :
    e.unlooped.document.isSome = e.document.isSome := by
  simp [unlooped]

theorem unlooped_missingTrailer (e : Envelope) :
    e.unlooped.missingTrailer = e.missingTrailer := by
  simp only [missingTrailer, unlooped_document_isSome]
  rfl

end Envelope

def Transition.unlooped (t : Transition) : Transition :=
  { announced := t.announced.filter (!·.isLoop)
    problems := t.problems
    halted := t.halted.unlooped
    completed := Emission.unlooped t.completed
    next := t.next.unlooped }

namespace Envelope

variable {s : Segment} {e : Envelope}

theorem start_unlooped (standard : Standard) (header : Segment) :
    (start standard header).unlooped = start standard header := rfl

theorem documentClosed_unlooped (d : OpenDocument) : (e.documentClosed s d).unlooped =
    e.unlooped.documentClosed s { d with loops := .start none } := by
  have hc : Emission.unlooped (e.documentClosed s d).completed =
      [.event (.elementEnd ElementName.transaction), .closed (e.closing (some d.header))] := by
    simp only [documentClosed, LoopNesting.closeAll, Emission.unlooped_append,
      Emission.unlooped_map_event, List.filter_append, LoopNesting.unlooped_endEvents]
    rfl
  simp only [Transition.unlooped, hc]
  rfl

theorem dataMet_unlooped (d : OpenDocument) :
    (e.dataMet s d).unlooped = e.unlooped.dataMet s { d with loops := .start none } := by
  simp only [dataMet, Transition.plain, Transition.unlooped, List.filter_append,
    LoopNesting.unlooped_transition, Segment.unlooped_events]
  rfl

theorem data_unlooped : (e.data s).map Transition.unlooped = e.unlooped.data s := by
  cases hd : e.document with
  | none => simp [data, unlooped, hd, Except.map]
  | some d =>
    simp only [data, hd, Except.map, dataMet_unlooped]
    simp [unlooped, hd]

/-- Loops do not matter to where a segment may stand and what it brings about. -/
theorem step_unlooped (tables : LoopTables) (s : Segment) (e : Envelope) :
    (e.step tables s).map Transition.unlooped = e.unlooped.step {} s := by
  have hs : e.unlooped.standard = e.standard := rfl
  have hg : e.unlooped.group = e.group := rfl
  have hn : e.unlooped.grouping = e.grouping := rfl
  have hi : e.unlooped.pending = e.pending := rfl
  simp only [step, hs]
  cases e.standard.role s.tag with
  | interchangeHeader => rfl
  | interchangeTrailer =>
    simp only [closeInterchange, unlooped_document_isSome, hg, hi]
    repeat' split
    all_goals rfl
  | groupHeader =>
    simp only [openGroup, unlooped_document_isSome, hg, hn]
    repeat' split
    all_goals rfl
  | groupTrailer =>
    simp only [closeGroup, unlooped_document_isSome, hg]
    repeat' split
    all_goals rfl
  | documentHeader =>
    have ho : e.unlooped.documentObstacle? = e.documentObstacle? := by
      simp only [documentObstacle?, unlooped_document_isSome]
      rfl
    simp only [openDocument, ho]
    split <;> rfl
  | documentTrailer =>
    cases hd : e.document with
    | none => simp [closeDocument, unlooped, hd, Except.map]
    | some d =>
      simp only [closeDocument, hd, Except.map, documentClosed_unlooped]
      simp [unlooped, hd]
  | interchangeData =>
    simp only [unlooped_document_isSome, hg]
    split
    · exact data_unlooped
    · split
      · rfl
      · simp [Except.map, Transition.plain, Transition.unlooped, Segment.unlooped_events,
          Emission.unlooped]
  | data => exact data_unlooped

end Envelope

end Edi
