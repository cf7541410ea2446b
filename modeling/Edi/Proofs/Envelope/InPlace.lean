import Edi.Proofs.Envelope.Language

namespace Edi

/-- The segments that stand in place one after the other, at most through the interchange
trailer. -/
def Standing.inPlace (standard : Standard) (q : Standing) : List Segment → List Segment
  | [] => []
  | s :: ss =>
    match q.next standard (standard.role s.tag) with
    | none => []
    | some q' => s :: q'.inPlace standard ss

def Standard.inPlace (standard : Standard) (ss : List Segment) : List Segment :=
  (Standing.outside .undecided).inPlace standard ss

variable {standard : Standard} {q q' : Standing} {s : Segment} {ss : List Segment} {tag : String}
  {w : List String}

namespace Standing

theorem inPlace_cons (h : q.next standard (standard.role s.tag) = some q') :
    q.inPlace standard (s :: ss) = s :: q'.inPlace standard ss := by
  simp [inPlace, h]

theorem inPlace_cons_of_none (h : q.next standard (standard.role s.tag) = none) :
    q.inPlace standard (s :: ss) = [] := by
  simp [inPlace, h]

theorem inPlace_finished (ss : List Segment) : finished.inPlace standard ss = [] := by
  cases ss with
  | nil => rfl
  | cons s ss => exact inPlace_cons_of_none rfl

theorem begins_cons (hf : q.Fits standard) : Begins (q.rest standard) (tag :: w) ↔
    ∃ q', q.next standard (standard.role tag) = some q' ∧ Begins (q'.rest standard) w := by
  constructor
  · intro h
    obtain ⟨v, hv⟩ := h
    obtain ⟨q', hq, hv⟩ := (cons_mem_rest hf).1 hv
    exact ⟨q', hq, v, hv⟩
  · intro h
    obtain ⟨q', hq, v, hv⟩ := h
    exact ⟨v, (cons_mem_rest hf).2 ⟨q', hq, hv⟩⟩

theorem begins_nil (hf : q.Fits standard) : Begins (q.rest standard) [] := rest_nonempty hf

theorem begins_take_iff (hf : q.Fits standard) {n : Nat} (hn : n ≤ ss.length) :
    Begins (q.rest standard) ((ss.take n).map (·.tag)) ↔ n ≤ (q.inPlace standard ss).length := by
  induction ss generalizing q n with
  | nil =>
    obtain rfl : n = 0 := Nat.le_zero.1 hn
    simpa using begins_nil hf
  | cons s ss ih =>
    cases n with
    | zero => simpa using begins_nil hf
    | succ n =>
      rw [List.take_succ_cons, List.map_cons, begins_cons hf]
      cases hq : q.next standard (standard.role s.tag) with
      | none => simp [inPlace_cons_of_none hq]
      | some q' =>
        have hi := ih (hf.next hq) (Nat.le_of_succ_le_succ hn)
        rw [inPlace_cons hq, List.length_cons, Nat.succ_le_succ_iff, ← hi]
        simp

theorem inPlace_prefix (standard : Standard) (q : Standing) (ss : List Segment) :
    ∃ rest, ss = q.inPlace standard ss ++ rest := by
  induction ss generalizing q with
  | nil => exact ⟨[], rfl⟩
  | cons s ss ih =>
    cases hq : q.next standard (standard.role s.tag) with
    | none => exact ⟨_, by rw [inPlace_cons_of_none hq]; rfl⟩
    | some q' =>
      obtain ⟨rest, hr⟩ := ih q'
      exact ⟨rest, by rw [inPlace_cons hq, List.cons_append, ← hr]⟩

end Standing

/-- The segments in place go as far as the order of segments allows, and no further. -/
theorem Standard.begins_envelopeLanguage_iff {n : Nat} (hn : n ≤ ss.length) :
    Begins standard.envelopeLanguage ((ss.take n).map (·.tag)) ↔
      n ≤ (standard.inPlace ss).length := by
  have hf : (Standing.outside .undecided).Fits standard := fun _ ↦ by simp
  exact Standing.begins_take_iff hf hn

end Edi
