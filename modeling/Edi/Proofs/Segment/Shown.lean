import Edi.Proofs.Segment.Balanced
import Edi.Proofs.Segment.Flat
import Mathlib.Data.List.Forall2

namespace Edi

namespace Event

def element (name : String) (b : Attributes × List Event) : List Event :=
  .elementStart name b.1 :: b.2 ++ [.elementEnd name]

/-- Elements of a name, and nothing between them, that show the members of a list one by one. -/
def ShowsEach {α : Type} (name : String) (shows : α → Attributes × List Event → Prop)
    (as : List α) (es : List Event) : Prop :=
  ∃ bs, es = bs.flatMap (element name) ∧ List.Forall₂ shows as bs

def texts (es : List Event) : List String :=
  es.filterMap fun
    | .text t => some t
    | _ => none

end Event

open Event (element ShowsEach texts)

namespace Value

def leaves : Value → List String
  | simple text => [text]
  | composite parts => parts.flatten

/-- The element shows the value under the identifier `id`: a simple value as its only text, and of
a composite each part that has a text, with its place among all of them. -/
def Shown (id : String) (v : Value) (b : Attributes × List Event) : Prop :=
  match v with
  | simple text => b = (.ofList [("Id", id)], [.text text])
  | composite parts =>
    b.1 = .ofList [("Id", id), ("Composite", "yes")] ∧
      ShowsEach ElementName.subElement
        (fun part b ↦ ∃ text, part.1 = [text] ∧
          b = (.ofList [("Sequence", toString part.2)], [.text text]))
        ((parts.zipIdx 1).filter fun part ↦ part.1.any (!·.isEmpty)) b.2

end Value

def Field.Shown (tag : String) (f : Field) (b : Attributes × List Event) : Prop :=
  f.value.Shown (tag ++ Text.zeroPadded 2 f.position) b

namespace Segment

def leaves (s : Segment) : List String := (s.fields.flatMap (·.value.leaves)).filter (!·.isEmpty)

def Shown (s : Segment) (b : Attributes × List Event) : Prop :=
  b.1 = .ofList [("Id", s.tag)] ∧
    ShowsEach ElementName.element (Field.Shown s.tag)
      (s.fields.filter fun f ↦ f.value.leaves.any (!·.isEmpty)) b.2

end Segment

namespace Event

variable {α : Type} {name : String} {as : List α}

theorem showsEach_flatMap {shows : α → Attributes × List Event → Prop} {f : α → List Event}
    (h : ∀ a ∈ as, ∃ b, f a = element name b ∧ shows a b) :
    ShowsEach name shows as (as.flatMap f) := by
  induction as with
  | nil => exact ⟨[], rfl, .nil⟩
  | cons a as ih =>
    obtain ⟨⟨b, hb, hs⟩, has⟩ := List.forall_mem_cons.1 h
    obtain ⟨bs, hbs, hall⟩ := ih has
    exact ⟨b :: bs, by rw [List.flatMap_cons, List.flatMap_cons, hb, hbs], .cons hs hall⟩

@[simp] theorem texts_append (us es : List Event) : texts (us ++ es) = texts us ++ texts es :=
  List.filterMap_append

@[simp] theorem texts_element (name : String) (b : Attributes × List Event) :
    texts (element name b) = texts b.2 := by
  simp [texts, element]

theorem ShowsEach.texts {shows : α → Attributes × List Event → Prop} {p : α → Bool}
    {f : α → List String} {es : List Event} (h : ShowsEach name shows (as.filter p) es)
    (hs : ∀ a b, p a → shows a b → texts b.2 = f a) (hn : ∀ a, p a = false → f a = []) :
    texts es = as.flatMap f := by
  obtain ⟨bs, rfl, hall⟩ := h
  induction as generalizing bs with
  | nil =>
    cases hall
    rfl
  | cons a as ih =>
    cases hp : p a with
    | false =>
      rw [List.filter_cons_of_neg (by simp [hp])] at hall
      rw [List.flatMap_cons, hn a hp, List.nil_append, ih bs hall]
    | true =>
      rw [List.filter_cons_of_pos hp] at hall
      cases hall with
      | cons hb hrest =>
        rw [List.flatMap_cons, List.flatMap_cons, texts_append, texts_element, hs a _ hp hb,
          ih _ hrest]

end Event

theorem flatMap_filter_of_nil {α β : Type} {p : α → Bool} {f : α → List β}
    (h : ∀ a, p a = false → f a = []) (as : List α) : (as.filter p).flatMap f = as.flatMap f := by
  induction as with
  | nil => rfl
  | cons a as ih => cases hp : p a <;> simp [hp, ih, h]

theorem Value.any_leaves (v : Value) : v.leaves.any (!·.isEmpty) = !v.isEmpty := by
  rw [← List.not_all_eq_any_not]
  cases v with
  | simple value => simp [leaves, isEmpty]
  | composite parts => simp only [leaves, isEmpty, List.all_flatten]

namespace Segment

theorem partEvents_shown {parts : List (List String)} (h : ∀ pieces ∈ parts, pieces.length = 1) :
    ShowsEach ElementName.subElement
      (fun part b ↦ ∃ text, part.1 = [text] ∧
        b = (.ofList [("Sequence", toString part.2)], [.text text]))
      ((parts.zipIdx 1).filter fun part ↦ part.1.any (!·.isEmpty)) (partEvents parts) := by
  rw [partEvents, ← flatMap_filter_of_nil (p := fun part ↦ part.1.any (!·.isEmpty))
    fun part hp ↦ if_pos (by simpa using hp)]
  refine Event.showsEach_flatMap fun part hp ↦ ?_
  obtain ⟨hm, hp⟩ := List.mem_filter.1 hp
  obtain ⟨value, hv⟩ := List.length_eq_one_iff.1 (h part.1 (List.fst_mem_of_mem_zipIdx hm))
  rw [if_neg (by simpa using hp)]
  exact ⟨_, by simp only [hv]; rfl, value, hv, rfl⟩

theorem fieldEvents_shown (tag : String) {f : Field} (h : f.value.Flat) :
    ∃ b, f.events tag = element ElementName.element b ∧ f.Shown tag b := by
  let id := tag ++ Text.zeroPadded 2 f.position
  simp only [Field.events, Field.Shown]
  cases hv : f.value with
  | simple value => exact ⟨(.ofList [("Id", id)], [.text value]), rfl, rfl⟩
  | composite parts =>
    exact ⟨(.ofList [("Id", id), ("Composite", "yes")], partEvents parts), rfl, rfl,
      partEvents_shown (h parts hv)⟩

def block (s : Segment) : Attributes × List Event :=
  (.ofList [("Id", s.tag)], (s.fields.filter (!·.value.isEmpty)).flatMap (Field.events s.tag))

theorem events_eq (s : Segment) : s.events = element ElementName.segment s.block := rfl

/-- The element that a segment hands out shows it. -/
theorem block_shown {s : Segment} (h : s.Flat) : s.Shown s.block := by
  refine ⟨rfl, ?_⟩
  simp only [Value.any_leaves]
  exact Event.showsEach_flatMap fun f hf ↦ fieldEvents_shown s.tag (h f (List.mem_filter.1 hf).1)

end Segment

theorem List.filter_eq_nil_of_any {values : List String} (h : values.any (!·.isEmpty) = false) :
    values.filter (!·.isEmpty) = [] := by
  simpa using h

theorem Value.Shown.texts {id : String} {v : Value} {b : Attributes × List Event}
    (h : v.Shown id b) (hv : v.leaves.any (!·.isEmpty)) :
    texts b.2 = v.leaves.filter (!·.isEmpty) := by
  cases v with
  | simple value =>
    obtain rfl := h
    have hv : value.isEmpty = false := by simpa [leaves] using hv
    simp [leaves, Event.texts, hv]
  | composite parts =>
    rw [h.2.texts (f := fun part ↦ part.1.filter (!·.isEmpty)) ?_ ?_]
    · calc (parts.zipIdx 1).flatMap (fun part ↦ part.1.filter (!·.isEmpty))
          = ((parts.zipIdx 1).map Prod.fst).flatMap (·.filter (!·.isEmpty)) := by
            rw [List.flatMap_map]
        _ = (composite parts).leaves.filter (!·.isEmpty) := by
            rw [List.zipIdx_map_fst, leaves, List.filter_flatten, List.flatMap_def]
    · rintro part b hp ⟨value, hvalue, rfl⟩
      have hne : value.isEmpty = false := by simpa [hvalue] using hp
      simp [hvalue, Event.texts, hne]
    · exact fun part ↦ List.filter_eq_nil_of_any

theorem Segment.Shown.texts {s : Segment} {b : Attributes × List Event} (h : s.Shown b) :
    texts b.2 = s.leaves := by
  rw [h.2.texts (f := fun f ↦ f.value.leaves.filter (!·.isEmpty)) (fun f b hf hb ↦ hb.texts hf)
    fun f ↦ List.filter_eq_nil_of_any, Segment.leaves, List.filter_flatMap]

end Edi
