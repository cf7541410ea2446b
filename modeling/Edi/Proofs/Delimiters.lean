import Mathlib.Data.List.Pairwise
import Edi.Delimiters

namespace Edi.Delimiters

variable {d : Delimiters} {c : Char} {k : CharClass}

def character? (d : Delimiters) : CharClass → Option Char
  | .data => none
  | .field => some d.field
  | .subElement => d.subElement
  | .subSubElement => d.subSubElement
  | .terminator => some d.terminator
  | .release => d.release
  | .repetition => d.repetition

theorem character?_of_classify (h : d.classify c = k) (hk : k ≠ .data) :
    d.character? k = some c := by
  subst h
  simp only [classify] at hk ⊢
  repeat' split at hk
  all_goals simp_all [character?]

theorem classify_ne (k : CharClass) (h : d.character? k = none) (hk : k ≠ .data) (c : Char) :
    d.classify c ≠ k := by
  intro hc
  rw [character?_of_classify hc hk] at h
  cases h

def roles : List CharClass :=
  [.field, .terminator, .subElement, .subSubElement, .repetition, .release]

def configured (d : Delimiters) : List Char := roles.filterMap d.character? ++ d.tag.toList

theorem mem_roles (h : k ≠ .data) : k ∈ roles := by cases k <;> simp_all [roles]

theorem mem_configured (h : d.character? k = some c) : c ∈ d.configured := by
  refine List.mem_append_left _ (List.mem_filterMap.2 ⟨k, mem_roles ?_, h⟩)
  rintro rfl
  cases h

theorem classify_ne_data (h : d.character? k = some c) : d.classify c ≠ .data := by
  intro hc
  simp only [classify] at hc
  repeat' split at hc
  all_goals cases k <;> simp_all [character?]

/-- Where no character means two things, each is read as what it is configured for. -/
theorem classify_of_character? (hd : d.configured.Nodup) (h : d.character? k = some c) :
    d.classify c = k := by
  by_contra hne
  have hk : k ≠ .data := by
    rintro rfl
    cases h
  have hc := classify_ne_data h
  have hsymm : Std.Symm fun k k' ↦
      ∀ c, d.character? k = some c → ∀ c', d.character? k' = some c' → c ≠ c' :=
    ⟨fun _ _ h c hc c' hc' ↦ (h c' hc' c hc).symm⟩
  have hp := List.pairwise_filterMap.1 (List.nodup_append.1 hd).1
  exact hp.forall (mem_roles hc) (mem_roles hk) hne c (character?_of_classify rfl hc) c h rfl

end Edi.Delimiters
