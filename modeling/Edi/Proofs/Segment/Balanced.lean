import Edi.Segment.Events

namespace Edi

namespace Event

/-- Texts and whole elements of some names, one after the other and inside each other. -/
inductive Balanced (names : List String) : List Event → Prop
  | nil : Balanced names []
  | text {es : List Event} (t : String) : Balanced names es → Balanced names (.text t :: es)
  | element {name : String} {us es : List Event} (a : Attributes) : name ∈ names →
      Balanced names us → Balanced names es →
      Balanced names (.elementStart name a :: us ++ .elementEnd name :: es)

variable {names : List String} {name : String} {us es : List Event} {e : Event}

theorem isStartOf_eq_false (h : e.name? ≠ some name) : e.isStartOf name = false := by
  cases e with
  | elementStart n a => simpa [isStartOf, name?] using h
  | _ => rfl

theorem isEndOf_eq_false (h : e.name? ≠ some name) : e.isEndOf name = false := by
  cases e with
  | elementEnd n => simpa [isEndOf, name?] using h
  | _ => rfl

theorem Balanced.append (hu : Balanced names us) (he : Balanced names es) :
    Balanced names (us ++ es) := by
  induction hu with
  | nil => exact he
  | text t _ ih => exact .text t ih
  | element a hn hu _ _ ih =>
    rw [List.append_assoc, List.cons_append]
    exact .element a hn hu ih

theorem Balanced.within (a : Attributes) (hn : name ∈ names) (h : Balanced names es) :
    Balanced names (.elementStart name a :: es ++ [.elementEnd name]) :=
  .element a hn h .nil

theorem balanced_leaf (a : Attributes) (t : String) (hn : name ∈ names) :
    Balanced names (leaf name a t) :=
  .within a hn (.text t .nil)

theorem balanced_flatMap {α : Type} {f : α → List Event} {as : List α}
    (h : ∀ a ∈ as, Balanced names (f a)) : Balanced names (as.flatMap f) := by
  induction as with
  | nil => exact .nil
  | cons a as ih =>
    obtain ⟨ha, has⟩ := List.forall_mem_cons.1 h
    exact ha.append (ih has)

theorem Balanced.name_mem (h : Balanced names es) (he : e ∈ es) (hn : e.name? = some name) :
    name ∈ names := by
  induction h with
  | nil => simp at he
  | text t _ ih =>
    rcases List.mem_cons.1 he with rfl | he
    · simp [name?] at hn
    · exact ih he
  | element a hm _ _ ihu ihe =>
    simp only [List.cons_append, List.mem_cons, List.mem_append] at he
    rcases he with rfl | he | rfl | he
    · exact Option.some.inj hn ▸ hm
    · exact ihu he
    · exact Option.some.inj hn ▸ hm
    · exact ihe he

end Event

namespace Segment

open Event

variable {names : List String}

def elementNames : List String :=
  [ElementName.segment, ElementName.element, ElementName.subElement, ElementName.subSubElement]

def partNames : List String :=
  [ElementName.element, ElementName.subElement, ElementName.subSubElement]

theorem pieceEvents_balanced (hn : partNames ⊆ names) (pieces : List String) :
    Balanced names (pieceEvents pieces) := by
  refine balanced_flatMap fun (piece, i) _ ↦ ?_
  dsimp only
  split
  · exact .nil
  · exact balanced_leaf _ _ (hn (by decide))

theorem partEvents_balanced (hn : partNames ⊆ names) (parts : List (List String)) :
    Balanced names (partEvents parts) := by
  refine balanced_flatMap fun (pieces, i) _ ↦ ?_
  dsimp only
  split
  · exact .nil
  · split
    · exact balanced_leaf _ _ (hn (by decide))
    · exact .within _ (hn (by decide)) (pieceEvents_balanced hn _)

theorem fieldEvents_balanced (hn : partNames ⊆ names) (tag : String) (f : Field) :
    Balanced names (f.events tag) := by
  simp only [Field.events]
  split
  · exact balanced_leaf _ _ (hn (by decide))
  · exact .within _ (hn (by decide)) (partEvents_balanced hn _)

theorem events_balanced (s : Segment) : Balanced elementNames s.events :=
  .within _ (by decide) (balanced_flatMap fun f _ ↦ fieldEvents_balanced (by decide) s.tag f)

end Segment

end Edi
