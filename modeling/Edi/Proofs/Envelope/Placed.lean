import Edi.Proofs.Envelope.Standing
import Edi.Proofs.Envelope.Unlooped

namespace Edi

namespace LoopNesting

variable {n : LoopNesting}

theorem renderPath_eq (frames : List Frame) :
    renderPath frames = "/" ++ "/".intercalate (openLoops frames) := by
  have hj (name : String) (names : List String) :
      String.join ((name :: names).map ("/" ++ ·)) = "/" ++ "/".intercalate (name :: names) := by
    induction names generalizing name with
    | nil => simp
    | cons other names ih =>
      rw [List.map_cons, String.join_cons, ih, String.intercalate_cons_cons, String.append_assoc,
        String.append_assoc]
  cases hn : openLoops frames with
  | nil => simp [renderPath, hn, LoopRule.rootPath]
  | cons name names => simp only [renderPath, hn, hj]

theorem transition_path (tag : String) (h : n.path = renderPath n.frames) :
    (n.transition tag).2.2.path = renderPath (n.transition tag).2.2.frames := by
  simp only [transition, apply]
  repeat' split
  all_goals first | exact h | rfl

end LoopNesting

namespace Envelope

/-- The phase of an envelope agrees with what it has open, and the path with its loops. -/
structure Placed (e : Envelope) : Prop where
  begun : e.phase ≠ .beforeInterchange
  document : e.document.isSome ↔ e.phase = .documentHeader ∨ e.phase = .segment
  group : e.group.isSome → e.document = none →
    e.phase = .groupHeader ∨ e.phase = .documentTrailer
  groupHeader : e.phase = .groupHeader → e.group.isSome
  finished : e.phase = .done → e.group = none
  path : ∀ d, e.document = some d → d.loops.path = LoopNesting.renderPath d.loops.frames

variable {tables : LoopTables} {s : Segment} {e : Envelope} {t : Transition} {role : Role}

theorem start_placed (standard : Standard) (header : Segment) :
    (start standard header).next.Placed := by
  constructor <;> simp [start]

theorem Passes.placed_halted (he : e.Placed) (h : Passes tables s e role t) :
    t.halted.Placed := by
  cases h with
  | groupHeader hd hg hn => constructor <;> simp [groupOpened, hd]
  | groupTrailer g hd hg => exact he
  | documentHeader hd hn =>
    constructor
    case path =>
      rintro _ ⟨⟩
      rfl
    all_goals simp [documentOpened]
  | documentTrailer d hd => exact he
  | interchangeTrailer h hd hg hi => constructor <;> simp [interchangeClosed, hd, hg]
  | interchangeData hd hg => exact he
  | data d _ hr hd =>
    constructor
    case path =>
      rintro _ ⟨⟩
      exact LoopNesting.transition_path _ (he.path d hd)
    all_goals simp [dataMet, Transition.plain]

theorem Passes.placed_next (he : e.Placed) (h : Passes tables s e role t) : t.next.Placed := by
  have ha := h.placed_halted he
  cases h with
  | groupHeader hd hg hn => exact ha
  | groupTrailer g hd hg => constructor <;> simp [groupClosed, hd]
  | documentHeader hd hn => exact ha
  | documentTrailer d hd => constructor <;> simp [documentClosed]
  | interchangeTrailer h hd hg hi => constructor <;> simp [interchangeClosed, hd, hg]
  | interchangeData hd hg => exact ha
  | data d _ hr hd => exact ha

theorem Passes.halted_phase (hp : e.phase ≠ .done) (h : Passes tables s e role t) :
    t.halted.phase ≠ .done := by
  cases h with
  | groupTrailer g hd hg => exact hp
  | documentTrailer d hd => exact hp
  | interchangeData hd hg => exact hp
  | groupHeader hd hg hn => simp [groupOpened]
  | documentHeader hd hn => simp [documentOpened]
  | interchangeTrailer h hd hg hi => simp [interchangeClosed]
  | data d _ hr hd => simp [dataMet, Transition.plain]

theorem name_ne_of_segment {event : Event} (h : event ∈ s.events) :
    event.name? ≠ some ElementName.interchange := fun hn ↦
  absurd (s.events_balanced.name_mem h hn) (by decide)

theorem name_ne_of_unlooped {es : List Event} (h : es.filter (!·.isLoop) = []) {event : Event}
    (he : event ∈ es) : event.name? ≠ some ElementName.interchange := by
  intro hn
  have hl := List.filter_eq_nil_iff.1 h _ he
  rw [Event.isLoop, hn] at hl
  exact absurd hl (by decide)

theorem Passes.name_ne_of_announced (h : Passes tables s e role t) {event : Event}
    (he : event ∈ t.announced) : event.name? ≠ some ElementName.interchange := by
  cases h with
  | groupHeader hd hg hn =>
    obtain rfl := List.mem_singleton.1 he
    simp [Event.name?, ElementName.group, ElementName.interchange]
  | documentHeader hd hn =>
    obtain rfl := List.mem_singleton.1 he
    simp [Event.name?, ElementName.transaction, ElementName.interchange]
  | groupTrailer g hd hg => simp [groupClosed] at he
  | documentTrailer d hd => simp [documentClosed] at he
  | interchangeTrailer h hd hg hi => simp [interchangeClosed] at he
  | interchangeData hd hg => exact name_ne_of_segment he
  | data d _ hr hd =>
    rcases List.mem_append.1 he with he | he
    · exact name_ne_of_unlooped (LoopNesting.unlooped_transition s.tag d.loops) he
    · exact name_ne_of_segment he

theorem Passes.interchangeEnd_notMem_announced (h : Passes tables s e role t) :
    .elementEnd ElementName.interchange ∉ t.announced := fun hm ↦
  absurd rfl (h.name_ne_of_announced hm)

theorem Passes.interchangeEnd_mem_completed (hp : e.phase ≠ .done)
    (h : Passes tables s e role t) :
    .elementEnd ElementName.interchange ∈ Emission.events t.completed ↔ t.next.phase = .done := by
  cases h with
  | groupHeader hd hg hn => simp [groupOpened, Emission.events]
  | documentHeader hd hn => simp [documentOpened, Emission.events]
  | groupTrailer g hd hg =>
    simp [groupClosed, Emission.events, ElementName.group, ElementName.interchange]
  | documentTrailer d hd =>
    have hl : .elementEnd ElementName.interchange ∉ LoopNesting.endEvents d.loops.frames :=
      fun hm ↦ absurd rfl (name_ne_of_unlooped (LoopNesting.unlooped_endEvents d.loops.frames) hm)
    simpa [documentClosed, Emission.events, LoopNesting.closeAll, ElementName.transaction,
      ElementName.interchange] using hl
  | interchangeTrailer h hd hg hi => simp [interchangeClosed, Emission.events]
  | interchangeData hd hg => simpa [Transition.plain, Emission.events] using hp
  | data d _ hr hd => simp [dataMet, Transition.plain, Emission.events]

end Envelope

end Edi
