import Edi.Problem

namespace Edi

/-- Judges a problem, given those offered before it: true means to go on. -/
abbrev Policy := List Problem → Problem → Bool

structure Offer where
  problem : Problem
  accepted : Bool
  deriving DecidableEq, Repr

namespace Policy

def strict : Policy := fun _ _ ↦ false

def lenient : Policy := fun _ _ ↦ true

def ofVerdicts (verdicts : List Bool) : Policy :=
  fun earlier _ ↦ (verdicts[earlier.length]?).getD true

def accepting (kinds : List Problem.Kind) : Policy := fun _ p ↦ kinds.contains p.kind

/-- Offers problems in order, up to and including the first that is refused. -/
def judge (policy : Policy) (earlier : List Problem) : List Problem → List Offer
  | [] => []
  | p :: ps =>
    if policy earlier p then ⟨p, true⟩ :: judge policy (earlier ++ [p]) ps else [⟨p, false⟩]

end Policy

namespace Offer

def accepted? (o : Offer) : Option Problem := if o.accepted then some o.problem else none

def refused? (o : Offer) : Option Problem := if o.accepted then none else some o.problem

end Offer

end Edi
