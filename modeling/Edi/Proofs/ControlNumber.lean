import Edi.Envelope.Checked
import Edi.Proofs.Text.Numeral
import Mathlib.Data.List.TakeWhile

namespace Edi

namespace Text

variable {p : Char → Bool} {before cs behind : List Char}

theorem strip_append (hb : ∀ c ∈ before, p c) (ha : ∀ c ∈ behind, p c) :
    strip p (before ++ cs ++ behind) = strip p cs := by
  have hr : ∀ c ∈ behind.reverse, p c := by simpa using ha
  have hd : behind.dropWhile p = [] := List.dropWhile_eq_nil_iff.2 ha
  rw [strip, List.append_assoc, List.dropWhile_append_of_pos hb, List.dropWhile_append]
  split
  · next he => rw [hd, strip, List.isEmpty_iff.1 he]
  · rw [List.reverse_append, List.dropWhile_append_of_pos hr, strip]

theorem trim_ofList (hb : ∀ c ∈ before, isWhite c) (ha : ∀ c ∈ behind, isWhite c) (s : String) :
    trim (String.ofList (before ++ s.toList ++ behind)) = trim s := by
  rw [trim, String.toList_ofList, strip_append hb ha, trim]

end Text

variable {a b c : String}

theorem sameControl_iff : sameControl a b ↔ Text.trim a = Text.trim b ∨
    ∃ n, Text.Numeral (Text.trim a).toList n ∧ Text.Numeral (Text.trim b).toList n := by
  simp only [← Text.natural?_eq_some_iff, sameControl, Text.trim, String.toList_ofList,
    String.ofList_inj, Bool.or_eq_true, Bool.and_eq_true, decide_eq_true_eq,
    Option.isSome_iff_exists]
  refine or_congr_right ⟨?_, ?_⟩
  · rintro ⟨⟨n, hn⟩, he⟩
    exact ⟨n, hn, he ▸ hn⟩
  · rintro ⟨n, ha, hb⟩
    exact ⟨⟨n, ha⟩, ha.trans hb.symm⟩

theorem sameControl_comm (a b : String) : sameControl a b = sameControl b a := by
  rw [Bool.eq_iff_iff, sameControl_iff, sameControl_iff, eq_comm]
  simp only [and_comm]

theorem sameControl_trans (hab : sameControl a b) (hbc : sameControl b c) : sameControl a c := by
  rw [sameControl_iff] at hab hbc ⊢
  rcases hab with hab | ⟨n, ha, hb⟩ <;> rcases hbc with hbc | ⟨m, hb', hc⟩
  · exact .inl (hab.trans hbc)
  · exact .inr ⟨m, hab ▸ hb', hc⟩
  · exact .inr ⟨n, ha, hbc ▸ hb⟩
  · obtain rfl := hb.unique hb'
    exact .inr ⟨n, ha, hc⟩

/-- Control numbers agree, whatever white space is around them, if they are the same number, and
those that are not both numbers of 64 bits if they are the same text. -/
theorem sameControl_exact :
    (Equivalence fun a b ↦ sameControl a b = true) ∧
    (∀ (a b : String) (before behind : List Char), (∀ c ∈ before ++ behind, Text.isWhite c) →
      let padded := String.ofList (before ++ a.toList ++ behind)
      sameControl padded b = sameControl a b ∧ sameControl b padded = sameControl b a) ∧
    (∀ a b m n, Text.Numeral (Text.trim a).toList m → Text.Numeral (Text.trim b).toList n →
      (sameControl a b ↔ m = n)) ∧
    ∀ a b, (∀ n, ¬Text.Numeral (Text.trim a).toList n) ∨
        (∀ n, ¬Text.Numeral (Text.trim b).toList n) →
      (sameControl a b ↔ Text.trim a = Text.trim b) := by
  refine ⟨⟨fun a ↦ ?_, fun h ↦ ?_, sameControl_trans⟩, fun a b before behind hw ↦ ?_,
    fun a b m n ha hb ↦ ?_, fun a b h ↦ ?_⟩
  · exact sameControl_iff.2 (.inl rfl)
  · rwa [sameControl_comm]
  · have ht := Text.trim_ofList (fun c hc ↦ hw c (List.mem_append_left _ hc))
      (fun c hc ↦ hw c (List.mem_append_right _ hc)) a
    have hs : sameControl (String.ofList (before ++ a.toList ++ behind)) b = sameControl a b := by
      rw [Bool.eq_iff_iff, sameControl_iff, sameControl_iff, ht]
    exact ⟨hs, by rw [sameControl_comm, hs, sameControl_comm]⟩
  · rw [sameControl_iff]
    constructor
    · rintro (he | ⟨l, hl, hl'⟩)
      · exact ha.unique (he ▸ hb)
      · exact (ha.unique hl).trans (hl'.unique hb)
    · rintro rfl
      exact .inr ⟨m, ha, hb⟩
  · rw [sameControl_iff]
    refine or_iff_left ?_
    rintro ⟨n, ha, hb⟩
    exact h.elim (fun hn ↦ hn n ha) fun hn ↦ hn n hb

/-- The greatest number of 64 bits with zeros and a sign before it, and the number after it, which
is compared as a text. -/
theorem sameControl_exact_limits :
    let greatest := "18446744073709551615"
    let padded := "\t +0018446744073709551615\u3000"
    let beyond := "18446744073709551616"
    (Text.Numeral (Text.trim greatest).toList (2 ^ 64 - 1) ∧
      Text.Numeral (Text.trim padded).toList (2 ^ 64 - 1) ∧ sameControl greatest padded) ∧
    (∀ n, ¬Text.Numeral (Text.trim beyond).toList n) ∧ ¬sameControl beyond ("0" ++ beyond) ∧
    sameControl (String.ofList (['\u2003'] ++ beyond.toList ++ ['\n'])) beyond := by
  intro greatest padded beyond
  have hg : Text.Numeral (Text.trim greatest).toList (2 ^ 64 - 1) :=
    Text.natural?_eq_some_iff.1 (by decide +kernel)
  have hp : Text.Numeral (Text.trim padded).toList (2 ^ 64 - 1) :=
    Text.natural?_eq_some_iff.1 (by decide +kernel)
  have hb : ∀ n, ¬Text.Numeral (Text.trim beyond).toList n :=
    Text.natural?_eq_none_iff.1 (by decide +kernel)
  obtain ⟨he, hw, hn, ht⟩ := sameControl_exact
  refine ⟨⟨hg, hp, (hn _ _ _ _ hg hp).2 rfl⟩, hb, fun h ↦ ?_, ?_⟩
  · exact absurd ((ht beyond _ (.inl hb)).1 h) (by decide +kernel)
  · rw [(hw beyond beyond ['\u2003'] ['\n'] (by simp [Text.isWhite])).1]
    exact he.refl beyond

end Edi
