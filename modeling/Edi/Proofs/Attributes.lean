import Edi.Envelope.Header

namespace Edi

namespace Attributes

def text (a : Attributes) (name : String) : String := (a.get? name).getD ""

variable {name other value : String} {es : List (String × String)} {a : Attributes}

theorem lookup_insertEntry (h : other ≠ name) :
    (insertEntry name value es).lookup other = es.lookup other := by
  induction es with
  | nil =>
    have hb : (other == name) = false := beq_false_of_ne h
    simp only [insertEntry, List.lookup_cons, hb]
  | cons e es ih =>
    obtain ⟨k, v⟩ := e
    have hb : (other == name) = false := beq_false_of_ne h
    simp only [insertEntry]
    split
    · next he => simp [List.lookup_cons, he, hb]
    · simp only [List.lookup_cons, ih]

theorem lookup_eq_none_of_notMem (h : name ∉ es.map Prod.fst) : es.lookup name = none := by
  refine List.lookup_eq_none_iff.2 fun p hp ↦ ?_
  have hne : name ≠ p.1 := fun he ↦ h (he ▸ List.mem_map.2 ⟨p, hp, rfl⟩)
  simpa using hne

theorem lookup_insertEntry_self : (insertEntry name value es).lookup name = some value := by
  induction es with
  | nil => simp [insertEntry]
  | cons e es ih =>
    obtain ⟨k, v⟩ := e
    simp only [insertEntry]
    split
    · simp
    · next he =>
      have hb : (name == k) = false := beq_false_of_ne (Ne.symm he)
      simp only [List.lookup_cons, hb, ih]

@[simp] theorem get?_insert_self : (a.insert name value).get? name = some value :=
  lookup_insertEntry_self

theorem get?_insert_of_ne (h : other ≠ name) : (a.insert name value).get? other = a.get? other :=
  lookup_insertEntry h

theorem get?_insertNonempty_of_ne (h : other ≠ name) :
    (a.insertNonempty name value).get? other = a.get? other := by
  simp only [insertNonempty]
  split
  · rfl
  · exact get?_insert_of_ne h

theorem text_insertNonempty (h : a.text name = "") :
    (a.insertNonempty name value).text name = value := by
  by_cases hv : value = ""
  · simp [insertNonempty, hv, h]
  · simp [insertNonempty, hv, text]

theorem get?_extendNonempty (h : name ∉ es.map Prod.fst) :
    (a.extendNonempty es).get? name = a.get? name := by
  induction es generalizing a with
  | nil => rfl
  | cons e es ih =>
    simp only [List.map_cons, List.mem_cons, not_or] at h
    exact (ih h.2).trans (get?_insertNonempty_of_ne h.1)

theorem text_extendNonempty (hn : (es.map Prod.fst).Nodup) (h : a.text name = "") :
    (a.extendNonempty es).text name = (es.lookup name).getD "" := by
  induction es generalizing a with
  | nil => exact h
  | cons e es ih =>
    obtain ⟨k, v⟩ := e
    obtain ⟨hk, hn⟩ := List.nodup_cons.1 hn
    have hc : (a.extendNonempty ((k, v) :: es)).text name =
      ((a.insertNonempty k v).extendNonempty es).text name := rfl
    by_cases hne : name = k
    · subst hne
      rw [hc, text, get?_extendNonempty hk, List.lookup_cons_self]
      exact text_insertNonempty h
    · have hb : (name == k) = false := beq_false_of_ne hne
      have ht : (a.insertNonempty k v).text name = "" := by
        rw [text, get?_insertNonempty_of_ne hne]
        exact h
      rw [hc, ih hn ht, List.lookup_cons, hb]

theorem text_extendNonempty_insert {fs : List (String × String)}
    (hn : ((es ++ fs).map Prod.fst).Nodup) (h : name ≠ other) :
    (((empty.extendNonempty es).insert other value).extendNonempty fs).text name =
      ((es ++ fs).lookup name).getD "" := by
  rw [List.map_append, List.nodup_append] at hn
  obtain ⟨hes, hfs, hd⟩ := hn
  have he : ((empty.extendNonempty es).insert other value).text name =
      (es.lookup name).getD "" := by
    rw [text, get?_insert_of_ne h]
    exact text_extendNonempty hes rfl
  rw [List.lookup_append]
  by_cases hm : name ∈ es.map Prod.fst
  · have hf : name ∉ fs.map Prod.fst := fun hf ↦ hd _ hm _ hf rfl
    rw [text, get?_extendNonempty hf, lookup_eq_none_of_notMem hf, Option.or_none]
    exact he
  · rw [lookup_eq_none_of_notMem hm] at he ⊢
    exact text_extendNonempty hfs he

theorem get?_extend (h : name ∉ es.map Prod.fst) : (a.extend es).get? name = a.get? name := by
  induction es generalizing a with
  | nil => rfl
  | cons e es ih =>
    simp only [List.map_cons, List.mem_cons, not_or] at h
    exact (ih h.2).trans (lookup_insertEntry h.1)

theorem get?_extend_of_nodup (h : (es.map Prod.fst).Nodup) :
    (a.extend es).get? name = (es.lookup name).or (a.get? name) := by
  induction es generalizing a with
  | nil => rfl
  | cons e es ih =>
    obtain ⟨k, v⟩ := e
    obtain ⟨hk, h⟩ := List.nodup_cons.1 h
    have hi : (a.extend ((k, v) :: es)).get? name =
        (es.lookup name).or ((a.insert k v).get? name) := ih h
    rw [hi]
    by_cases hn : name = k
    · simp [hn, lookup_eq_none_of_notMem hk]
    · have hb : (name == k) = false := beq_false_of_ne hn
      simp only [get?_insert_of_ne hn, List.lookup_cons, hb]

theorem get?_ofList (h : (es.map Prod.fst).Nodup) : (ofList es).get? name = es.lookup name :=
  (get?_extend_of_nodup h).trans (Option.or_none ..)

theorem get?_ofList_pair {v w : String} (h : name ≠ other) :
    (ofList [(name, v), (other, w)]).get? name = some v ∧
      (ofList [(name, v), (other, w)]).get? other = some w := by
  have hb : (other == name) = false := beq_false_of_ne h.symm
  simp [get?_ofList, h, List.lookup_cons, hb]

theorem text_ofList_of_notMem (h : name ∉ es.map Prod.fst) : (ofList es).text name = "" :=
  congrArg (·.getD "") (get?_extend h)

theorem notMem_insert (hn : name ≠ other) (h : name ∉ a.names) :
    name ∉ (a.insert other value).names := by
  intro hm
  rcases mem_insertEntry.1 hm with hm | hm
  · exact hn hm
  · exact h hm

theorem notMem_extendNonempty (hn : name ∉ es.map Prod.fst) (h : name ∉ a.names) :
    name ∉ (a.extendNonempty es).names := by
  induction es generalizing a with
  | nil => exact h
  | cons e es ih =>
    simp only [List.map_cons, List.mem_cons, not_or] at hn
    refine ih hn.2 ?_
    simp only [insertNonempty]
    split
    · exact h
    · exact notMem_insert hn.1 h

end Attributes

namespace InterchangeHeader

open Attributes

theorem standard_notMem_attributes (standard : Standard) (s : Segment) :
    "Standard" ∉ (ofSegment standard s).value.attributes.names := by
  cases standard with
  | x12 =>
    refine notMem_extendNonempty (by simp) (notMem_insert (by simp) ?_)
    exact notMem_extendNonempty (by simp) List.not_mem_nil
  | edifact =>
    refine notMem_extendNonempty (by simp) (notMem_insert (by simp) ?_)
    exact notMem_extendNonempty (by simp) List.not_mem_nil
  | tradacoms =>
    refine notMem_extendNonempty (by simp) (notMem_insert (by simp) ?_)
    exact notMem_extendNonempty (by simp) List.not_mem_nil

end InterchangeHeader

end Edi
