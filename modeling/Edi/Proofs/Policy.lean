import Edi.Reader

namespace Edi

namespace Policy

/-- The policy goes on past each of the problems `ps`, which come one by one after those offered
`earlier`. -/
def Accepts (policy : Policy) (earlier ps : List Problem) : Prop :=
  ∀ a p b, ps = a ++ p :: b → policy (earlier ++ a) p = true

variable {policy : Policy} {earlier ps qs : List Problem} {p : Problem}

theorem accepts_nil : policy.Accepts earlier [] := by
  intro a p b h
  simp at h

theorem accepts_cons : policy.Accepts earlier (p :: ps) ↔
    policy earlier p = true ∧ policy.Accepts (earlier ++ [p]) ps := by
  constructor
  · intro h
    refine ⟨by simpa using h [] p ps rfl, ?_⟩
    intro a q b hq
    simpa using h (p :: a) q b (by simp [hq])
  · rintro ⟨hp, h⟩ a q b hq
    cases a with
    | nil =>
      obtain ⟨rfl, -⟩ := List.cons.inj hq
      simpa using hp
    | cons x a =>
      obtain ⟨rfl, hps⟩ := List.cons.inj hq
      simpa using h a q b hps

theorem accepts_append : policy.Accepts earlier (ps ++ qs) ↔
    policy.Accepts earlier ps ∧ policy.Accepts (earlier ++ ps) qs := by
  induction ps generalizing earlier with
  | nil => simp [accepts_nil]
  | cons p ps ih => simp [accepts_cons, ih, and_assoc]

theorem accepts_lenient : lenient.Accepts earlier ps := fun _ _ _ _ ↦ rfl

theorem accepts_or_refuses (policy : Policy) (earlier ps : List Problem) :
    policy.Accepts earlier ps ∨ ∃ a p b, ps = a ++ p :: b ∧ policy.Accepts earlier a ∧
      policy (earlier ++ a) p = false := by
  induction ps generalizing earlier with
  | nil => exact .inl accepts_nil
  | cons p ps ih =>
    cases hp : policy earlier p with
    | false => exact .inr ⟨[], p, ps, rfl, accepts_nil, by simpa using hp⟩
    | true =>
      rcases ih (earlier ++ [p]) with h | ⟨a, q, b, rfl, ha, hq⟩
      · exact .inl (accepts_cons.2 ⟨hp, h⟩)
      · exact .inr ⟨p :: a, q, b, rfl, accepts_cons.2 ⟨hp, ha⟩, by simpa using hq⟩

theorem judge_of_accepts (h : policy.Accepts earlier ps) :
    policy.judge earlier ps = ps.map (⟨·, true⟩) := by
  induction ps generalizing earlier with
  | nil => rfl
  | cons p ps ih =>
    obtain ⟨hp, h⟩ := accepts_cons.1 h
    simp [judge, hp, ih h]

theorem judge_of_refuses (h : policy.Accepts earlier ps) (hp : policy (earlier ++ ps) p = false) :
    policy.judge earlier (ps ++ p :: qs) = ps.map (⟨·, true⟩) ++ [⟨p, false⟩] := by
  induction ps generalizing earlier with
  | nil =>
    rw [List.append_nil] at hp
    simp [judge, hp]
  | cons q ps ih =>
    obtain ⟨hq, h⟩ := accepts_cons.1 h
    have hr := ih h (by simpa using hp)
    simp [judge, hq, hr]

end Policy

namespace Offer

@[simp] theorem findSome?_refused?_accepted (ps : List Problem) :
    (ps.map fun p ↦ Offer.mk p true).findSome? refused? = none := by
  simp [List.findSome?_eq_none_iff, refused?]

@[simp] theorem filterMap_accepted?_accepted (ps : List Problem) :
    (ps.map fun p ↦ Offer.mk p true).filterMap accepted? = ps := by
  induction ps with
  | nil => rfl
  | cons p ps ih => simp [accepted?, ih]

@[simp] theorem map_problem_accepted (ps : List Problem) :
    (ps.map fun p ↦ Offer.mk p true).map (·.problem) = ps := by
  simp [Function.comp_def]

end Offer

namespace Transition

variable {policy : Policy} {earlier ps qs : List Problem} {p : Problem} {t : Transition}

theorem settle_refused (h : (t.settle policy earlier).refused = some p) :
    (t.settle policy earlier).emissions = t.announced.map .event ∧
      (t.settle policy earlier).envelope = t.halted := by
  simp only [settle] at h ⊢
  split
  · exact ⟨rfl, rfl⟩
  · simp_all

theorem settle_passed (h : (t.settle policy earlier).refused = none) :
    (t.settle policy earlier).emissions = t.announced.map .event ++ t.completed ∧
      (t.settle policy earlier).envelope = t.next := by
  simp only [settle] at h ⊢
  split
  · simp_all
  · exact ⟨rfl, rfl⟩

theorem settle_of_accepts (h : policy.Accepts earlier t.problems) :
    t.settle policy earlier =
      { emissions := t.announced.map .event ++ t.completed, offers := t.problems.map (⟨·, true⟩),
        envelope := t.next, refused := none } := by
  simp only [settle, Policy.judge_of_accepts h, Offer.findSome?_refused?_accepted]

theorem settle_of_refuses (ht : t.problems = ps ++ p :: qs) (h : policy.Accepts earlier ps)
    (hp : policy (earlier ++ ps) p = false) : t.settle policy earlier =
      { emissions := t.announced.map .event, offers := ps.map (⟨·, true⟩) ++ [⟨p, false⟩],
        envelope := t.halted, refused := some p } := by
  have hr : (ps.map (Offer.mk · true) ++ [Offer.mk p false]).findSome? Offer.refused? =
      some p := by
    rw [List.findSome?_append, Offer.findSome?_refused?_accepted]
    rfl
  simp only [settle, ht, Policy.judge_of_refuses h hp, hr]

end Transition

end Edi
