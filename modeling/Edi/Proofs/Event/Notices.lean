import Edi.Proofs.Event.Progress

namespace Edi

open scoped Computability
open EventGrammar

namespace EventGrammar

variable {l m : Language Emission} {name : String} {fits : Attributes → Prop}
  {u v w : List Emission} {e : Event} {n : Nat}

theorem append_mem_noticed (hu : u ∈ noticed) (hv : v ∈ noticed) : u ++ v ∈ noticed :=
  append_mem_kstar hu hv

theorem mul_le_noticed (hl : l ≤ noticed) (hm : m ≤ noticed) : l * m ≤ noticed := by
  intro w hm
  obtain ⟨u, hu, v, hv, rfl⟩ := hm
  exact append_mem_noticed (hl hu) (hm hv)

theorem kstar_le_noticed (hl : l ≤ noticed) : l∗ ≤ noticed := by
  have h : l∗ ≤ noticed∗ := kstar_mono hl
  rwa [noticed, kstar_idem] at h

theorem add_le_noticed (hl : l ≤ noticed) (hm : m ≤ noticed) : l + m ≤ noticed :=
  sup_le hl hm

def Quiet (name : String) : Prop :=
  name ≠ ElementName.transaction ∧ name ≠ ElementName.interchange

instance : Decidable (Quiet name) := inferInstanceAs (Decidable (_ ∧ _))

theorem cons_mem_noticed (he : !e.isEndOf ElementName.transaction)
    (he' : !e.isEndOf ElementName.interchange) (hw : w ∈ noticed) :
    .event e :: w ∈ noticed := by
  have hs : [.event e] ∈ noticed := mem_kstar_self (.inr ⟨e, he, he', rfl⟩)
  exact append_mem_noticed hs hw

theorem start_mem_noticed (a : Attributes) (hw : w ∈ noticed) :
    .event (.elementStart name a) :: w ∈ noticed :=
  cons_mem_noticed rfl rfl hw

theorem end_mem_noticed (hq : Quiet name) : [.event (.elementEnd name)] ∈ noticed :=
  cons_mem_noticed (by simp [Event.isEndOf, hq.1]) (by simp [Event.isEndOf, hq.2])
    (Language.nil_mem_kstar _)

theorem within_le_noticed (hq : Quiet name) (hl : l ≤ noticed) :
    within name fits l ≤ noticed := by
  intro w hm
  obtain ⟨a, u, -, hu, rfl⟩ := hm
  exact start_mem_noticed a (append_mem_noticed (hl hu) (end_mem_noticed hq))

theorem within_mul_closed_le_noticed
    (hn : name = ElementName.transaction ∨ name = ElementName.interchange)
    (hl : l ≤ noticed) : within name fits l * closed ≤ noticed := by
  intro w hm
  obtain ⟨-, ⟨a, u, -, hu, rfl⟩, -, ⟨c, rfl⟩, rfl⟩ := hm
  have he : [.event (.elementEnd name), .closed c] ∈ noticed :=
    mem_kstar_self (.inl ⟨name, c, hn, rfl⟩)
  simp only [List.cons_append, List.append_assoc]
  exact start_mem_noticed a (append_mem_noticed (hl hu) he)

theorem text_le_noticed : text ≤ noticed := by
  intro w hm
  obtain ⟨t, -, rfl⟩ := hm
  exact cons_mem_noticed rfl rfl (Language.nil_mem_kstar _)

theorem segment_le_noticed {fits : String → Prop} : segment fits ≤ noticed := by
  have hs : subElement ≤ noticed := within_le_noticed (by decide) text_le_noticed
  refine within_le_noticed (by decide) (kstar_le_noticed ?_)
  refine within_le_noticed (by decide) (add_le_noticed text_le_noticed ?_)
  exact mul_le_noticed hs (kstar_le_noticed hs)

theorem Body.mem_noticed (h : Body w) : w ∈ noticed := by
  induction h with
  | nil => exact Language.nil_mem_kstar _
  | segment hs _ ih => exact append_mem_noticed (segment_le_noticed hs) ih
  | loop hs _ _ ihu ihw =>
    have he : [.event (.elementEnd ElementName.loop)] ∈ noticed := end_mem_noticed (by decide)
    simpa using start_mem_noticed _ (append_mem_noticed (segment_le_noticed hs)
      (append_mem_noticed ihu (append_mem_noticed he ihw)))

theorem OpenBody.mem_noticed (h : OpenBody n w) : w ∈ noticed := by
  induction n generalizing w with
  | zero => exact Body.mem_noticed h
  | succ n ih =>
    obtain ⟨v, a, s, u, hv, hs, hu, rfl⟩ := h
    exact append_mem_noticed (ih hv) (start_mem_noticed a
      (append_mem_noticed (segment_le_noticed hs) hu.mem_noticed))

theorem transaction_le_noticed : transaction ≤ noticed :=
  within_mul_closed_le_noticed (.inl rfl) fun _ ↦ Body.mem_noticed

theorem group_le_noticed : group ≤ noticed :=
  within_le_noticed (by decide) (kstar_le_noticed transaction_le_noticed)

theorem outside_le_noticed {standard : Standard} {grouping : Grouping} :
    outside standard grouping ≤ noticed := by
  have he : emptyGroup∗ ≤ noticed := kstar_le_noticed (emptyGroup_le_group.trans group_le_noticed)
  unfold outside
  split
  · exact kstar_le_noticed (add_le_noticed segment_le_noticed group_le_noticed)
  · cases grouping with
    | undecided => exact he
    | grouped => exact kstar_le_noticed group_le_noticed
    | ungrouped => exact mul_le_noticed he (kstar_le_noticed transaction_le_noticed)

theorem content_le_noticed {standard : Standard} : content standard ≤ noticed := by
  unfold content
  split
  · exact kstar_le_noticed (add_le_noticed segment_le_noticed group_le_noticed)
  · refine add_le_noticed (kstar_le_noticed group_le_noticed) (mul_le_noticed ?_ ?_)
    · exact kstar_le_noticed (emptyGroup_le_group.trans group_le_noticed)
    · exact kstar_le_noticed transaction_le_noticed

theorem party_le_noticed (hq : Quiet name) : party name ≤ noticed := by
  have ha : Quiet ElementName.address := by decide
  refine within_le_noticed hq (within_le_noticed ha ?_)
  intro w hm
  obtain rfl := hm
  exact Language.nil_mem_kstar _

theorem parties_le_noticed :
    party ElementName.sender * party ElementName.receiver ≤ noticed :=
  mul_le_noticed (party_le_noticed (by decide)) (party_le_noticed (by decide))

theorem interchange_le_noticed {standard : Standard} : interchange standard ≤ noticed :=
  within_mul_closed_le_noticed (.inr rfl) (mul_le_noticed parties_le_noticed content_le_noticed)

end EventGrammar

namespace Envelope

variable {e : Envelope}

theorem heldBefore_le_noticed : e.heldBefore ≤ noticed := by
  cases hg : e.group with
  | none =>
    rw [heldBefore_of_group_none hg]
    exact outside_le_noticed
  | some g =>
    rw [heldBefore_of_group hg]
    intro w hm
    obtain ⟨u, a, v, hu, hv, -, rfl⟩ := hm
    exact append_mem_noticed (outside_le_noticed hu)
      (start_mem_noticed a (kstar_le_noticed transaction_le_noticed hv))

theorem held_le_noticed : e.held ≤ noticed := by
  unfold held
  split
  · exact heldBefore_le_noticed
  · intro w hm
    obtain ⟨u, a, v, hu, hv, rfl⟩ := hm
    exact append_mem_noticed (heldBefore_le_noticed hu) (start_mem_noticed a hv.mem_noticed)

theorem emitted_le_noticed : e.emitted ≤ noticed := by
  intro w hm
  obtain ⟨a, u, v, -, hu, hv, rfl⟩ := hm
  exact start_mem_noticed a (append_mem_noticed (parties_le_noticed hu) (held_le_noticed hv))

end Envelope

end Edi
