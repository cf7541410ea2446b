import Edi.Proofs.Attributes
import Edi.Proofs.Envelope.Placed
import Edi.Proofs.Envelope.Surroundings
import Edi.Proofs.Reader.Resume
import Edi.Proofs.Reader.Run
import Mathlib.Data.List.Basic

namespace Edi

namespace Surroundings

def loopIds (x : Surroundings) : List String :=
  ((x.around.filter (·.1 = ElementName.loop)).map (·.2.text "Id")).reverse

end Surroundings

namespace Envelope

variable {tables : LoopTables} {s : Segment} {e : Envelope} {t : Transition} {role : Role}

structure Emitted (events : List Event) (e : Envelope) : Prop extends Placed e where
  nonempty : events ≠ []
  surroundings : Event.surroundings events = e.surroundings []
  ended : .elementEnd ElementName.interchange ∈ events ↔ e.phase = .done

theorem Emitted.start (standard : Standard) (header : Segment) :
    (Envelope.start standard header).Keeps (fun w e ↦ e.Emitted (Emission.events w)) [] := by
  have he : (Envelope.start standard header).next.Emitted
      (Envelope.start standard header).announced :=
    { start_placed standard header with
      nonempty := by simp [Envelope.start]
      surroundings := start_surroundings {} standard header
      ended := by
        simp [Envelope.start, Party.events, ElementName.interchange, ElementName.sender,
          ElementName.receiver, ElementName.address] }
  constructor
  · simp [Envelope.start]
  · exact (Emission.events_map_event _).symm ▸ he
  · simp only [Envelope.start, List.append_nil, List.nil_append, Emission.events_map_event]
    exact he

theorem emitted_stable : Stable fun w e ↦ e.Emitted (Emission.events w) := by
  intro tables s e role t w hw hp h
  constructor
  · exact h.halted_phase hp
  · exact
      { h.placed_halted hw.toPlaced with
        nonempty := by simp [hw.nonempty]
        surroundings := by
          rw [Emission.events_append, Emission.events_map_event, Event.surroundings_append,
            hw.surroundings, h.surroundings_halted hp]
        ended := by
          simp [hw.ended, hp, h.interchangeEnd_notMem_announced, h.halted_phase hp] }
  · exact
      { h.placed_next hw.toPlaced with
        nonempty := by simp [hw.nonempty]
        surroundings := by
          rw [Emission.events_append, Emission.events_append, Emission.events_map_event,
            Event.surroundings_append, hw.surroundings, h.surroundings_next hp]
        ended := by
          simp [hw.ended, hp, h.interchangeEnd_notMem_announced,
            h.interchangeEnd_mem_completed hp] }

variable {events : List Event}

theorem Emitted.document_open (h : e.Emitted events) :
    ((Event.surroundings events).within? ElementName.transaction).isSome = e.document.isSome := by
  rw [h.surroundings, within?_transaction]
  simp

theorem Emitted.group_open (h : e.Emitted events) :
    ((Event.surroundings events).within? ElementName.group).isSome = e.group.isSome := by
  rw [h.surroundings, within?_group]
  simp

theorem filter_loop_elements (frames : List Frame) :
    (LoopNesting.elements frames).filter (·.1 = ElementName.loop) =
      LoopNesting.elements frames := by
  refine List.filter_eq_self.2 fun l hl ↦ ?_
  obtain ⟨_, -, rfl⟩ := List.mem_map.1 hl
  simp

theorem filter_loop_outerElements (e : Envelope) :
    e.outerElements.filter (·.1 = ElementName.loop) = [] := by
  cases hg : e.group <;> by_cases hp : e.phase = .done <;>
    simp [outerElements, hg, hp, ElementName.group, ElementName.interchange, ElementName.loop]

theorem loopIds_surroundings (e : Envelope) : (e.surroundings []).loopIds =
    (e.document.map fun d ↦ LoopNesting.openLoops d.loops.frames).getD [] := by
  have hn (name : String) : (Attributes.ofList [("Id", name)]).text "Id" = name := by
    simp [Attributes.text, Attributes.get?, Attributes.ofList, Attributes.extend,
      Attributes.insert, Attributes.insertEntry, Attributes.empty]
  have ht : ElementName.transaction ≠ ElementName.loop := by decide
  cases hd : e.document with
  | none =>
    simp [Surroundings.loopIds, Envelope.surroundings, elements_of_document_none hd,
      filter_loop_outerElements]
  | some d =>
    have hf : (e.elements ++ []).filter (·.1 = ElementName.loop) =
        LoopNesting.elements d.loops.frames := by
      simp [elements_of_document hd, filter_loop_elements, filter_loop_outerElements, ht]
    rw [Surroundings.loopIds, Envelope.surroundings, hf]
    simp [LoopNesting.elements, hn, LoopNesting.openLoops, Function.comp_def]

theorem Emitted.loopPath (h : e.Emitted events) :
    e.loopPath = "/" ++ "/".intercalate (Event.surroundings events).loopIds := by
  rw [h.surroundings, loopIds_surroundings]
  cases hd : e.document with
  | none => simp [Envelope.loopPath, hd, LoopRule.rootPath]
  | some d => simpa [Envelope.loopPath, hd, LoopNesting.renderPath_eq] using h.path d hd

end Envelope

namespace Reader

variable {options : Options} {rest : Remainder} {r : Reader}

/-- However a first reading ends, the state of the reader and the path of its loops are those of the
events that it has handed out. -/
theorem parse_agrees_with_events (policy : Policy) (earlier : List Problem)
    (h : resume options rest = .ok (some r)) :
    let x := (r.parse policy earlier).1
    let r' := (r.parse policy earlier).2
    let events := Emission.events x.emissions
    let isOpen (name : String) : Prop := ((Event.surroundings events).within? name).isSome
    (r'.phase = .beforeInterchange ↔ events = []) ∧
      (r'.phase = .done ↔ ∃ c, x.result = .ok c) ∧
      (r'.phase = .done ↔ .elementEnd ElementName.interchange ∈ events) ∧
      (isOpen ElementName.transaction ↔ r'.phase = .documentHeader ∨ r'.phase = .segment) ∧
      (isOpen ElementName.group → ¬ isOpen ElementName.transaction →
        r'.phase = .groupHeader ∨ r'.phase = .documentTrailer) ∧
      (r'.phase = .groupHeader → isOpen ElementName.group ∧ ¬ isOpen ElementName.transaction) ∧
      r'.loopPath = "/" ++ "/".intercalate (Event.surroundings events).loopIds := by
  dsimp only
  obtain ⟨hn, hx, hr⟩ | ⟨e, he, hx, hr⟩ := parse_leftAt Envelope.emitted_stable policy earlier
    (resume_envelope h) (Envelope.Emitted.start r.standard)
  · have hok : ¬ ∃ c, (r.parse policy earlier).1.result = .ok c := by
      rintro ⟨c, hc⟩
      simp [hc, Except.toOption] at hr
    simp [phase, loopPath, hn, hx, hok, LoopRule.rootPath, Emission.events, Event.surroundings,
      Surroundings.within?, Surroundings.loopIds]
  · have hp : (r.parse policy earlier).2.phase = e.phase := by simp [phase, he]
    have hl : (r.parse policy earlier).2.loopPath = e.loopPath := by simp [loopPath, he]
    rw [List.nil_append] at hx
    have hok : e.phase = .done ↔ ∃ c, (r.parse policy earlier).1.result = .ok c := by
      by_cases hd : e.phase = .done <;>
        cases hres : (r.parse policy earlier).1.result <;> simp_all [Except.toOption]
    simp only [hp, hl, hx.document_open, hx.group_open]
    refine ⟨?_, hok, hx.ended.symm, hx.document, ?_, ?_, hx.loopPath⟩
    · simp [hx.begun, hx.nonempty]
    · simpa using hx.group
    · intro hg
      have hn : ¬ e.document.isSome := by simp [hx.document, hg]
      exact ⟨hx.groupHeader hg, hn⟩

/-- The text breaks off inside of two loops. -/
theorem parse_agrees_with_events_in_loops :
    let table : LoopTable := ⟨[⟨some "PARTY", "NAD", 1, "*"⟩, ⟨some "LINE", "LIN", 2, "/PARTY"⟩]⟩
    let options : Options := { tables := ({} : LoopTables).register .edifact "ORDERS" table }
    let text := "UNB+UNOC:3+A+B+240101:1200+1'UNH+7+ORDERS'NAD+X'LIN+1'QTY+"
    let rest : Remainder := { source := .text text.toList }
    let scanner := ((Scanner.ofRemainder { field := '*', terminator := '~' } {}
      rest).skipBlank.2.peek Standard.quotedLength).2
    let r : Reader := { standard := .edifact, scanner, tables := options.tables }
    resume options rest = .ok (some r) ∧
      (r.parse .strict []).2.phase = .segment ∧
      ((Event.surroundings (Emission.events (r.parse .strict []).1.emissions)).within?
        ElementName.transaction).isSome ∧
      (r.parse .strict []).2.loopPath = "/PARTY/LINE" := by
  intro table options text rest scanner r
  have hr : resume options rest = .ok (some r) := by decide +kernel
  obtain ⟨-, -, -, ht, -, -, hl⟩ := parse_agrees_with_events .strict [] hr
  have hp : (r.parse .strict []).2.phase = .segment := by decide +kernel
  exact ⟨hr, hp, ht.2 (.inr hp), hl.trans (by decide +kernel)⟩

end Reader

end Edi
