import Edi.Loop.Nesting
import Edi.Proofs.Event.Grammar
import Edi.Proofs.Segment.Flat
import Edi.Segment.Events

namespace Edi

open scoped Computability
open EventGrammar

section

variable {α β : Type} {l : Language β} {f : α → List β} {as : List α}

theorem flatMap_mem_kstar (h : ∀ a ∈ as, f a = [] ∨ f a ∈ l) : as.flatMap f ∈ l∗ := by
  induction as with
  | nil => exact Language.nil_mem_kstar l
  | cons a as ih =>
    have hs := ih fun b hb ↦ h b (List.mem_cons_of_mem _ hb)
    rw [List.flatMap_cons]
    rcases h a List.mem_cons_self with ha | ha
    · rwa [ha]
    · exact append_mem_kstar (mem_kstar_self ha) hs

theorem flatMap_mem_mul_kstar (h : ∀ a ∈ as, f a = [] ∨ f a ∈ l) (hne : ∃ a ∈ as, f a ≠ []) :
    as.flatMap f ∈ l * l∗ := by
  induction as with
  | nil => simp at hne
  | cons a as ih =>
    have hs (b : α) (hb : b ∈ as) := h b (List.mem_cons_of_mem _ hb)
    rw [List.flatMap_cons]
    rcases h a List.mem_cons_self with ha | ha
    · rw [ha]
      refine ih hs ?_
      obtain ⟨b, hb, hbn⟩ := hne
      rcases List.mem_cons.1 hb with rfl | hb
      · exact absurd ha hbn
      · exact ⟨b, hb, hbn⟩
    · exact Language.append_mem_mul ha (flatMap_mem_kstar hs)

end

namespace EventGrammar

theorem leaf_mem_subElement {text : String} (a : Attributes) (ht : text ≠ "") :
    (Event.leaf ElementName.subElement a text).map .event ∈ subElement :=
  ⟨a, [.event (.text text)], trivial, ⟨text, ht, rfl⟩, rfl⟩

theorem Body.append {u v : List Emission} (hu : Body u) (hv : Body v) : Body (u ++ v) := by
  induction hu with
  | nil => exact hv
  | segment hs _ ih => exact List.append_assoc _ _ _ ▸ .segment hs ih
  | loop hs hb _ _ ih => exact List.append_assoc _ _ _ ▸ .loop hs hb ih

theorem Body.of_segment {s : List Emission} (hs : s ∈ dataSegment) : Body s := by
  simpa only [List.append_nil] using Body.segment hs .nil

/-- What a transaction holds so far, with `n` loops open. -/
def OpenBody : Nat → List Emission → Prop
  | 0, w => Body w
  | n + 1, w => ∃ v a s u, OpenBody n v ∧ s ∈ dataSegment ∧ Body u ∧
      w = v ++ .event (.elementStart ElementName.loop a) :: (s ++ u)

variable {n : Nat} {w s : List Emission}

theorem OpenBody.append {u : List Emission} (h : OpenBody n w) (hu : Body u) :
    OpenBody n (w ++ u) := by
  cases n with
  | zero => exact Body.append h hu
  | succ n =>
    obtain ⟨v, a, s, u', hv, hs, hu', rfl⟩ := h
    exact ⟨v, a, s, u' ++ u, hv, hs, hu'.append hu, by simp⟩

theorem OpenBody.enter (h : OpenBody n w) (hs : s ∈ dataSegment) (a : Attributes) :
    OpenBody (n + 1) (w ++ .event (.elementStart ElementName.loop a) :: s) :=
  ⟨w, a, s, [], h, hs, .nil, by simp⟩

theorem OpenBody.leave (h : OpenBody (n + 1) w) :
    OpenBody n (w ++ [.event (.elementEnd ElementName.loop)]) := by
  obtain ⟨v, a, s, u, hv, hs, hu, rfl⟩ := h
  have hl : Body (.event (.elementStart ElementName.loop a) :: (s ++ u) ++
      [.event (.elementEnd ElementName.loop)]) := .loop hs hu .nil
  simpa using hv.append hl

theorem OpenBody.leave_many {k : Nat} (h : OpenBody (k + n) w) :
    OpenBody n (w ++ List.replicate k (.event (.elementEnd ElementName.loop))) := by
  induction k generalizing w with
  | zero => simpa using h
  | succ k ih =>
    rw [Nat.succ_add] at h
    rw [List.replicate_succ, List.append_cons]
    exact ih h.leave

end EventGrammar

section

variable {pieces : List String} {tag : String} {f : Field} {s : Segment}

theorem partEvents_mem {parts : List (List String)} (hf : ∀ pieces ∈ parts, pieces.length = 1)
    (he : parts.all (fun pieces ↦ pieces.all String.isEmpty) = false) :
    (partEvents parts).map .event ∈ subElement * subElement∗ := by
  rw [partEvents, List.map_flatMap]
  have hp (p : List String × Nat) (h : p ∈ parts.zipIdx 1) : ∃ piece, p.1 = [piece] :=
    List.length_eq_one_iff.1 (hf _ (List.fst_mem_of_mem_zipIdx h))
  apply flatMap_mem_mul_kstar
  · rintro ⟨pieces, i⟩ h
    obtain ⟨piece, rfl⟩ : ∃ piece, pieces = [piece] := hp _ h
    by_cases ht : piece = ""
    · exact .inl (by simp [ht])
    · refine .inr ?_
      have hl : _ ∈ subElement := leaf_mem_subElement (.ofList [("Sequence", toString i)]) ht
      simpa [ht] using hl
  · obtain ⟨pieces, hm, hn⟩ := List.all_eq_false.1 he
    rw [← List.zipIdx_map_fst 1 parts] at hm
    obtain ⟨⟨_, i⟩, hi, rfl⟩ := List.mem_map.1 hm
    obtain ⟨piece, rfl⟩ : ∃ piece, _ = [piece] := hp _ hi
    have ht : piece ≠ "" := by simpa using hn
    exact ⟨_, hi, by simp [ht, Event.leaf]⟩

theorem Field.events_mem (hs : f.value.Flat) (he : f.value.isEmpty = false) :
    (f.events tag).map .event ∈ element := by
  cases hv : f.value with
  | simple text =>
    have ht : text ≠ "" := by simpa [hv, Value.isEmpty] using he
    simp only [Field.events, hv]
    exact ⟨_, [.event (.text text)], trivial, .inl ⟨text, ht, rfl⟩, rfl⟩
  | composite parts =>
    have hp := partEvents_mem (hs parts hv) (by simpa [hv, Value.isEmpty] using he)
    simp only [Field.events, hv, List.map_cons, List.map_append, List.cons_append]
    exact ⟨_, _, trivial, .inr hp, rfl⟩

theorem Segment.events_mem (hs : s.Flat) {fits : String → Prop} (ht : fits s.tag) :
    s.events.map .event ∈ segment fits := by
  refine ⟨.ofList [("Id", s.tag)], _, ⟨s.tag, rfl, ht⟩, ?_, by simp [Segment.events]; rfl⟩
  rw [List.map_flatMap]
  refine flatMap_mem_kstar fun f hf ↦ .inr ?_
  obtain ⟨hm, he⟩ := List.mem_filter.1 hf
  exact Field.events_mem (hs f hm) (by simpa using he)

end

namespace LoopNesting

variable {n : LoopNesting} {w s : List Emission}

def openCount (n : LoopNesting) : Nat := (n.frames.filterMap Frame.name).length

theorem map_endEvents (closed : List Frame) :
    (endEvents closed).map .event = List.replicate (closed.filterMap Frame.name).length
      (Emission.event (.elementEnd ElementName.loop)) := by
  simp [endEvents]

theorem openBody_close (deeper : Frame → Bool) (h : OpenBody n.openCount w) :
    OpenBody ((n.frames.dropWhile deeper).filterMap Frame.name).length
      (w ++ (endEvents (n.frames.takeWhile deeper)).map .event) := by
  have hc : n.openCount = ((n.frames.takeWhile deeper).filterMap Frame.name).length +
      ((n.frames.dropWhile deeper).filterMap Frame.name).length := by
    rw [openCount, ← List.length_append, ← List.filterMap_append, List.takeWhile_append_dropWhile]
  rw [map_endEvents]
  rw [hc] at h
  exact h.leave_many

theorem openBody_apply (r : LoopRule) (h : OpenBody n.openCount w) (hs : s ∈ dataSegment) :
    OpenBody (n.apply r).2.2.openCount (w ++ ((n.apply r).2.1.map .event ++ s)) := by
  cases hl : r.loop with
  | none =>
    simp only [apply, hl]
    split
    · exact h.append (.of_segment hs)
    · rw [← List.append_assoc]
      exact (openBody_close _ h).append (.of_segment hs)
  | some name =>
    have ho := openBody_close (fun f ↦ decide (r.level - 1 < f.level)) h
    simp only [apply, hl]
    split
    · rw [← List.append_assoc]
      exact ho.append (.of_segment hs)
    · rw [List.map_append, List.append_assoc, ← List.append_assoc]
      exact ho.enter hs _

theorem openBody_transition (tag : String) (h : OpenBody n.openCount w) (hs : s ∈ dataSegment) :
    OpenBody (n.transition tag).2.2.openCount
      (w ++ ((n.transition tag).2.1.map .event ++ s)) := by
  simp only [transition]
  split
  · exact h.append (.of_segment hs)
  · next r _ => exact openBody_apply r h hs

theorem body_closeAll (h : OpenBody n.openCount w) : Body (w ++ n.closeAll.1.map .event) := by
  rw [closeAll, map_endEvents]
  exact OpenBody.leave_many (k := n.openCount) (n := 0) h

end LoopNesting

end Edi
