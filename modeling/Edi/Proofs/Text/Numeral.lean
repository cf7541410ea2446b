import Edi.Text.Blank
import Edi.Text.Numeral
import Mathlib.Data.List.Induction
import Mathlib.Data.Nat.Digits.Defs

namespace Edi.Text

/-- A run of ASCII digits, with any number of zeros at its beginning, and the number it stands
for. -/
structure Decimal (ds : List Char) (n : Nat) : Prop where
  ne_nil : ds ≠ []
  digits : ∀ d ∈ ds, d.isDigit
  value : Nat.ofDigits 10 (ds.reverse.map digitValue) = n

/-- A decimal number that fits into 64 bits, with at most one plus sign before it. -/
inductive Numeral : List Char → Nat → Prop
  | unsigned {ds : List Char} {n : Nat} (h : Decimal ds n) (hn : n < 2 ^ 64) : Numeral ds n
  | signed {ds : List Char} {n : Nat} (h : Decimal ds n) (hn : n < 2 ^ 64) : Numeral ('+' :: ds) n

variable {cs ds : List Char} {c : Char} {m n : Nat}

theorem toNat_of_isDigit (h : c.isDigit) : 48 ≤ c.toNat ∧ c.toNat ≤ 57 := by
  simp only [Char.isDigit, Bool.and_eq_true, decide_eq_true_eq, UInt32.le_iff_toNat_le] at h
  exact h

theorem utf8Size_of_isDigit (h : c.isDigit) : c.utf8Size = 1 := by
  rw [Char.utf8Size_eq_one_iff, UInt32.le_iff_toNat_le]
  exact (toNat_of_isDigit h).2.trans (by decide)

theorem not_isWhite_of_isDigit (h : c.isDigit) : ¬isWhite c := by
  obtain ⟨h₁, h₂⟩ := toNat_of_isDigit h
  simp only [isWhite, Bool.or_eq_true, Bool.and_eq_true, decide_eq_true_eq, beq_iff_eq]
  omega

theorem Decimal.exists_cons (h : Decimal ds n) : ∃ d ds', ds = d :: ds' ∧ d.isDigit := by
  obtain ⟨d, ds', rfl⟩ := List.exists_cons_of_ne_nil h.ne_nil
  exact ⟨d, ds', rfl, h.digits d List.mem_cons_self⟩

theorem ofDigits_eq (ds : List Char) :
    ofDigits ds = Nat.ofDigits 10 (ds.reverse.map digitValue) := by
  induction ds using List.reverseRecOn with
  | nil => rfl
  | append_singleton ds d ih =>
    have hd : ofDigits (ds ++ [d]) = 10 * ofDigits ds + digitValue d := by simp [ofDigits]
    rw [hd, ih, List.reverse_concat, List.map_cons, Nat.ofDigits_cons, Nat.add_comm]

theorem decimal_iff : Decimal ds n ↔ ds ≠ [] ∧ ds.all Char.isDigit ∧ ofDigits ds = n := by
  rw [ofDigits_eq, List.all_eq_true]
  exact ⟨fun h ↦ ⟨h.ne_nil, h.digits, h.value⟩, fun ⟨hn, hd, hv⟩ ↦ ⟨hn, hd, hv⟩⟩

theorem numeral_iff_of_head_ne (h : cs.head? ≠ some '+') :
    Numeral cs n ↔ Decimal cs n ∧ n < 2 ^ 64 := by
  constructor
  · rintro (⟨hd, hn⟩ | ⟨hd, hn⟩)
    · exact ⟨hd, hn⟩
    · exact absurd rfl h
  · exact fun ⟨hd, hn⟩ ↦ .unsigned hd hn

theorem numeral_plus_iff : Numeral ('+' :: ds) n ↔ Decimal ds n ∧ n < 2 ^ 64 := by
  constructor
  · rintro (⟨hd, hn⟩ | ⟨hd, hn⟩)
    · exact absurd (hd.digits '+' List.mem_cons_self) (by decide)
    · exact ⟨hd, hn⟩
  · exact fun ⟨hd, hn⟩ ↦ .signed hd hn

theorem natural?_eq_some_iff : natural? cs = some n ↔ Numeral cs n := by
  have hread (ds : List Char) :
      (if ds ≠ [] ∧ ds.all Char.isDigit ∧ ofDigits ds < UInt64.size then some (ofDigits ds)
        else none) = some n ↔ Decimal ds n ∧ n < 2 ^ 64 := by
    rw [decimal_iff, Option.ite_none_right_eq_some, Option.some.injEq]
    constructor
    · rintro ⟨⟨hn, hd, hs⟩, rfl⟩
      exact ⟨⟨hn, hd, rfl⟩, hs⟩
    · rintro ⟨⟨hn, hd, rfl⟩, hs⟩
      exact ⟨⟨hn, hd, hs⟩, rfl⟩
  simp only [natural?]
  by_cases h : cs.head? = some '+'
  · obtain ⟨ds, rfl⟩ := List.head?_eq_some_iff.1 h
    rw [if_pos h, numeral_plus_iff]
    exact hread ds
  · rw [if_neg h, numeral_iff_of_head_ne h]
    exact hread cs

theorem natural?_eq_none_iff : natural? cs = none ↔ ∀ n, ¬Numeral cs n := by
  simp only [← natural?_eq_some_iff, Option.eq_none_iff_forall_ne_some, ne_eq]

theorem Numeral.unique (h : Numeral cs m) (h' : Numeral cs n) : m = n :=
  Option.some.inj ((natural?_eq_some_iff.2 h).symm.trans (natural?_eq_some_iff.2 h'))

end Edi.Text
