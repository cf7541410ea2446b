import Edi.Proofs.Attributes
import Edi.Proofs.Loop.Levels

namespace Edi

namespace Event

/-- The `Id`s of the loops that are open after an event, innermost first, if `ids` are those before
it. A loop cannot end where none is open. -/
def nextLoops? (ids : List String) : Event → Option (List String)
  | elementStart name a =>
    if name = ElementName.loop then (a.get? "Id").map (· :: ids) else some ids
  | elementEnd name => if name = ElementName.loop then ids.tail? else some ids
  | _ => some ids

/-- The `Id`s of the loops that start among events and do not end, in the order of their starts. -/
def unmatchedLoops? (es : List Event) : Option (List String) :=
  (es.foldlM nextLoops? []).map List.reverse

end Event

namespace LoopNesting

variable {n : LoopNesting} {es : List Event} {ids : List String}

/-- What meeting a segment can do: nothing, or it closes the innermost frames, opens one in those
that are left, or both. -/
theorem transition_cases (tag : String) (n : LoopNesting) :
    n.transition tag = (false, [], n) ∨
      ∃ closed kept opened, (closed ≠ [] ∨ Option.isSome opened) ∧ n.frames = closed ++ kept ∧
        n.transition tag = (true, endEvents closed ++ startEvents opened.toList,
          n.withFrames (opened.toList ++ kept)) := by
  have hsplit (deeper : Frame → Bool) :
      n.frames = n.frames.takeWhile deeper ++ n.frames.dropWhile deeper :=
    List.takeWhile_append_dropWhile.symm
  simp only [transition]
  split
  · exact .inl rfl
  · next r _ =>
    cases hr : r.loop with
    | none =>
      simp only [apply, hr]
      split
      · exact .inl rfl
      · next hne =>
        -- A rule without a loop changes something only if it closes a frame.
        refine .inr ⟨_, _, none, .inl (mt List.isEmpty_iff.2 hne), hsplit _, ?_⟩
        exact congrArg (true, ·, _) (List.append_nil _).symm
    | some name =>
      simp only [apply, hr]
      split
      · refine .inr ⟨_, _, some ⟨none, r.level⟩, .inr rfl,
          hsplit fun f ↦ decide (r.level - 1 < f.level), ?_⟩
        exact congrArg (true, ·, _) (List.append_nil _).symm
      · exact .inr ⟨_, _, some ⟨some name, r.level⟩, .inr rfl, hsplit _, rfl⟩

/-- The events so far and the path are those of the frames. -/
structure InStep (es : List Event) (n : LoopNesting) : Prop where
  loops : es.foldlM Event.nextLoops? [] = some (n.frames.filterMap Frame.name)
  path : n.path = renderPath n.frames

theorem loops_endEvents (closed : List Frame) :
    (endEvents closed).foldlM Event.nextLoops? (closed.filterMap Frame.name ++ ids) = some ids := by
  induction closed with
  | nil => rfl
  | cons f fs ih =>
    cases hf : f.name with
    | none => simpa [endEvents, hf] using ih
    | some name => simpa [endEvents, hf, Event.nextLoops?] using ih

theorem loops_startEvents (opened : Option Frame) :
    (startEvents opened.toList).foldlM Event.nextLoops? ids =
      some (opened.toList.filterMap Frame.name ++ ids) := by
  cases opened with
  | none => rfl
  | some f =>
    cases hf : f.name with
    | none => simp [startEvents, hf]
    | some name => simp [startEvents, hf, Event.nextLoops?, Attributes.ofList, Attributes.extend]

namespace InStep

theorem start (table : Option LoopTable) : InStep [] (start table) := ⟨rfl, rfl⟩

theorem close {closed kept : List Frame} (h : InStep es n) (hf : n.frames = closed ++ kept)
    (opened : Option Frame) :
    InStep (es ++ (endEvents closed ++ startEvents opened.toList))
      (n.withFrames (opened.toList ++ kept)) := by
  refine ⟨?_, rfl⟩
  rw [List.foldlM_append, h.loops, hf, List.filterMap_append]
  simp only [Option.bind_eq_bind, Option.bind_some, List.foldlM_append, loops_endEvents,
    loops_startEvents, withFrames, List.filterMap_append]

theorem transition (h : InStep es n) (tag : String) :
    InStep (es ++ (n.transition tag).2.1) (n.transition tag).2.2 := by
  rcases transition_cases tag n with ht | ⟨closed, kept, opened, -, hf, ht⟩ <;> rw [ht]
  · simpa using h
  · exact h.close hf opened

end InStep

def meetAll : List String → LoopNesting → List Event × LoopNesting
  | [], n => ([], n)
  | tag :: tags, n =>
    let later := meetAll tags (n.transition tag).2.2
    ((n.transition tag).2.1 ++ later.1, later.2)

theorem InStep.meetAll (h : InStep es n) (tags : List String) :
    InStep (es ++ (meetAll tags n).1) (meetAll tags n).2 := by
  induction tags generalizing es n with
  | nil => simpa [LoopNesting.meetAll] using h
  | cons tag tags ih =>
    rw [LoopNesting.meetAll, ← List.append_assoc]
    exact ih (h.transition tag)

theorem endEvents_eq (frames : List Frame) :
    endEvents frames =
      List.replicate (openLoops frames).length (.elementEnd ElementName.loop) := by
  rw [endEvents, List.map_const', openLoops, List.filterMap_reverse, List.length_reverse]

namespace InStep

variable (h : InStep es n)

include h

theorem unmatched : Event.unmatchedLoops? es = some (openLoops n.frames) := by
  rw [Event.unmatchedLoops?, h.loops, Option.map_some, openLoops, List.filterMap_reverse]

theorem path_eq :
    n.path = if openLoops n.frames = [] then "/"
      else String.join ((openLoops n.frames).map ("/" ++ ·)) := by
  rw [h.path, renderPath]
  split
  · next hnil => rw [hnil, if_pos rfl]; rfl
  · next hne => exact (if_neg hne).symm

theorem closeAll : InStep (es ++ n.closeAll.1) n.closeAll.2 := by
  have hc := h.close (List.append_nil n.frames).symm none
  rwa [show startEvents Option.none.toList = [] from rfl, List.append_nil] at hc

end InStep

/-- Whatever segments come, the loops that the events so far have opened and not closed are the open
ones, and the path is theirs. A segment closes the innermost frames, one of them, several or none,
and then opens at most one; if it is not told to change anything it does not. In the end every open
loop is closed once. -/
theorem events_in_step (table : Option LoopTable) (tags : List String) (tag : String) :
    let events := (meetAll tags (start table)).1
    let n := (meetAll tags (start table)).2
    let next := n.transition tag
    let last := n.closeAll
    Event.unmatchedLoops? events = some (openLoops n.frames) ∧
      n.path = (if openLoops n.frames = [] then "/"
        else String.join ((openLoops n.frames).map ("/" ++ ·))) ∧
      (∃ closed kept, ∃ opened : Option Frame, n.frames = closed ++ kept ∧
        next.2.2.frames = opened.toList ++ kept ∧
        next.2.1 = List.replicate (openLoops closed).length (.elementEnd ElementName.loop) ++
          (opened.toList.filterMap Frame.name).map
            (fun name ↦ .elementStart ElementName.loop (.ofList [("Id", name)])) ∧
        (next.1 = true → closed ≠ [] ∨ opened.isSome)) ∧
      (next.1 = false → next.2 = ([], n)) ∧
      last.1 = List.replicate (openLoops n.frames).length (.elementEnd ElementName.loop) ∧
      Event.unmatchedLoops? (events ++ last.1) = some [] ∧
      last.2.depth = 0 ∧ last.2.path = "/" := by
  intro events n next last
  have h : InStep events n := by simpa using (InStep.start table).meetAll tags
  refine ⟨h.unmatched, h.path_eq, ?_, ?_, endEvents_eq n.frames, h.closeAll.unmatched, rfl, rfl⟩
  · rcases transition_cases tag n with ht | ⟨closed, kept, opened, hsome, hf, ht⟩
    · exact ⟨[], n.frames, none, rfl, by simp [next, ht], by simp [next, ht, openLoops],
        by simp [next, ht]⟩
    · refine ⟨closed, kept, opened, hf, by simp [next, ht, withFrames], ?_, fun _ ↦ hsome⟩
      rw [← endEvents_eq]
      exact congrArg (·.2.1) ht
  · intro hfalse
    rcases transition_cases tag n with ht | ⟨_, _, _, -, -, ht⟩
    · exact congrArg Prod.snd ht
    · simp [next, ht] at hfalse

/-- A frame without a name stands between the loops; `CTT` closes it with the inner one. -/
theorem events_in_step_nested :
    let table : LoopTable :=
      ⟨[⟨some "HL", "HL", 1, "*"⟩, ⟨some ".", "PID", 2, "*"⟩, ⟨some "SLN", "SLN", 3, "*"⟩,
        ⟨none, "CTT", 1, "*"⟩]⟩
    let events := (meetAll ["HL", "PID", "SLN"] (start (some table))).1
    let n := (meetAll ["HL", "PID", "SLN"] (start (some table))).2
    Event.unmatchedLoops? events = some ["HL", "SLN"] ∧ n.depth = 3 ∧
      (n.transition "CTT").1 = true ∧
      (∃ closed kept, ∃ opened : Option Frame, n.frames = closed ++ kept ∧
        (n.transition "CTT").2.2.frames = opened.toList ++ kept ∧
        (closed ≠ [] ∨ opened.isSome)) ∧
      (n.transition "N1").1 = false ∧ (n.transition "N1").2 = ([], n) ∧
      n.closeAll.1 = [.elementEnd ElementName.loop, .elementEnd ElementName.loop] := by
  intro table events n
  obtain ⟨hids, -, ⟨closed, kept, opened, hf, hnext, -, hchanged⟩, -, hlast, -⟩ :=
    events_in_step (some table) ["HL", "PID", "SLN"] "CTT"
  obtain ⟨-, -, -, hsame, -⟩ := events_in_step (some table) ["HL", "PID", "SLN"] "N1"
  have hctt : (n.transition "CTT").1 = true := rfl
  have hn1 : (n.transition "N1").1 = false := rfl
  exact ⟨hids, rfl, hctt, ⟨closed, kept, opened, hf, hnext, hchanged hctt⟩, hn1, hsame hn1, hlast⟩

end LoopNesting

end Edi
