import Edi.Proofs.Segment.Balanced

namespace Edi

open Event (Balanced)

/-- What stands around a place among the events. -/
structure Surroundings where
  /-- The elements that are open there, innermost first. -/
  around : List (String × Attributes) := []
  /-- The addresses in the interchange that began last. -/
  addresses : List Attributes := []
  deriving DecidableEq, Repr

namespace Surroundings

/-- An end closes the innermost open element of its name. -/
def next (x : Surroundings) : Event → Surroundings
  | .elementStart name a =>
    { around := (name, a) :: x.around
      addresses :=
        if name = ElementName.interchange then []
        else if name = ElementName.address then x.addresses ++ [a]
        else x.addresses }
  | .elementEnd name => { x with around := x.around.eraseP (·.1 = name) }
  | _ => x

def after (x : Surroundings) (es : List Event) : Surroundings := es.foldl next x

def within? (x : Surroundings) (name : String) : Option Attributes := x.around.lookup name

variable {x : Surroundings} {es us : List Event} {names : List String}

@[simp] theorem after_nil : x.after [] = x := rfl

@[simp] theorem after_append : x.after (us ++ es) = (x.after us).after es :=
  List.foldl_append

@[simp] theorem after_cons {e : Event} : x.after (e :: es) = (x.next e).after es := rfl

theorem next_elementStart {name : String} (a : Attributes) (hi : name ≠ ElementName.interchange)
    (ha : name ≠ ElementName.address) :
    x.next (.elementStart name a) = { x with around := (name, a) :: x.around } := by
  simp [next, hi, ha]

@[simp] theorem next_elementEnd {name : String} {a : Attributes}
    {around : List (String × Attributes)} {addresses : List Attributes} :
    ({ around := (name, a) :: around, addresses } : Surroundings).next (.elementEnd name) =
      { around, addresses } := by
  simp [next]

theorem after_balanced (h : Balanced names es) (hi : ElementName.interchange ∉ names)
    (ha : ElementName.address ∉ names) : x.after es = x := by
  induction h generalizing x with
  | nil => rfl
  | text t _ ih => exact ih
  | @element name us es a hn _ _ ihu ihe =>
    have hni : name ≠ ElementName.interchange := fun h ↦ hi (h ▸ hn)
    have hna : name ≠ ElementName.address := fun h ↦ ha (h ▸ hn)
    rw [List.cons_append, after_cons, after_append, ihu, after_cons,
      next_elementStart a hni hna, next_elementEnd, ihe]

theorem after_segment (s : Segment) : x.after s.events = x :=
  after_balanced s.events_balanced (by decide) (by decide)

end Surroundings

def Event.surroundings (es : List Event) : Surroundings := Surroundings.after {} es

theorem Event.surroundings_append (us es : List Event) :
    surroundings (us ++ es) = (surroundings us).after es :=
  Surroundings.after_append

end Edi
