import Edi.Proofs.Envelope.Shift
import Edi.Proofs.Policy

namespace Edi

def Offer.shift (distance : Nat) (o : Offer) : Offer :=
  { o with problem := o.problem.shift distance }

def Reading.shift {α : Type} (distance : Nat) (r : Reading α) : Reading α :=
  { r with
    offers := r.offers.map (·.shift distance)
    result := Error.shiftOr distance id r.result }

def Settlement.shift (distance : Nat) (s : Settlement) : Settlement :=
  { s with
    offers := s.offers.map (·.shift distance)
    refused := s.refused.map (·.shift distance) }

variable {policy : Policy} {distance : Nat} {earlier earlier' : List Problem}

@[simp] theorem Offer.shift_zero (o : Offer) : o.shift 0 = o := rfl

@[simp] theorem Offer.shift_problem (o : Offer) :
    (o.shift distance).problem = o.problem.shift distance := rfl

theorem Offer.refused?_shift (o : Offer) :
    (o.shift distance).refused? = o.refused?.map (·.shift distance) := by
  cases ho : o.accepted <;> simp [refused?, shift, ho]

theorem Reading.shift_after {α : Type} (emissions : List Emission) (offers : List Offer)
    (r : Reading α) : (r.after emissions offers).shift distance =
      (r.shift distance).after emissions (offers.map (·.shift distance)) := by
  simp [shift, after]

namespace Policy

/-- The policy judges problems after those offered `earlier` as it judges the same problems further
on after those offered `earlier'`. -/
def Relocates (policy : Policy) (distance : Nat) (earlier earlier' : List Problem) : Prop :=
  ∀ ps p, policy (earlier' ++ ps.map (·.shift distance)) (p.shift distance) =
    policy (earlier ++ ps) p

theorem relocates_zero (policy : Policy) (earlier : List Problem) :
    policy.Relocates 0 earlier earlier := by
  intro ps p
  simp

theorem relocates_lenient (earlier earlier' : List Problem) :
    lenient.Relocates distance earlier earlier' := fun _ _ ↦ rfl

theorem Relocates.append (h : policy.Relocates distance earlier earlier') (qs : List Problem) :
    policy.Relocates distance (earlier ++ qs) (earlier' ++ qs.map (·.shift distance)) := by
  intro ps p
  simpa using h (qs ++ ps) p

theorem Relocates.judge (h : policy.Relocates distance earlier earlier') (ps : List Problem) :
    policy.judge earlier' (ps.map (·.shift distance)) =
      (policy.judge earlier ps).map (·.shift distance) := by
  induction ps generalizing earlier earlier' with
  | nil => rfl
  | cons p ps ih =>
    have hp : policy earlier' (p.shift distance) = policy earlier p := by simpa using h [] p
    have hr := ih (h.append [p])
    simp only [List.map_cons, List.map_nil] at hr
    simp only [List.map_cons, Policy.judge, hp, hr]
    split <;> rfl

end Policy

theorem Transition.settle_shift (h : policy.Relocates distance earlier earlier') (t : Transition) :
    (t.shift distance).settle policy earlier' = (t.settle policy earlier).shift distance := by
  have hr : ((policy.judge earlier t.problems).map (·.shift distance)).findSome? Offer.refused? =
      ((policy.judge earlier t.problems).findSome? Offer.refused?).map (·.shift distance) := by
    rw [List.findSome?_map, List.map_findSome?]
    exact congrArg (List.findSome? · _) (funext Offer.refused?_shift)
  simp only [settle, shift, h.judge, hr]
  cases (policy.judge earlier t.problems).findSome? Offer.refused? <;> rfl

end Edi
