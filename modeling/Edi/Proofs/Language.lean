import Mathlib.Computability.Language
import Mathlib.Order.CompletePartialOrder
import Mathlib.Tactic.Abel

namespace Edi

open scoped Computability

variable {α : Type} {l m : Language α} {u v w : List α}

def Begins (l : Language α) (w : List α) : Prop := ∃ v, w ++ v ∈ l

theorem Begins.of_mem (h : w ∈ l) : Begins l w := ⟨[], by rwa [List.append_nil]⟩

theorem Begins.of_append (h : Begins l (u ++ v)) : Begins l u := by
  obtain ⟨x, hx⟩ := h
  exact ⟨v ++ x, by rwa [← List.append_assoc]⟩

theorem kstar_mul_eq (l n : Language α) : l∗ * n = n + l * (l∗ * n) := by
  calc l∗ * n = (1 + l * l∗) * n := by rw [Language.one_add_self_mul_kstar_eq_kstar]
    _ = n + l * (l∗ * n) := by rw [add_mul, one_mul, mul_assoc]

theorem kstar_mul_add_eq (g e u f z k : Language α) (hu : u = z + k) :
    (g * e)∗ * u + (z + g * f) = z + (g * (e * ((g * e)∗ * u) + f) + k) := by
  have hx := kstar_mul_eq (g * e) u
  generalize (g * e)∗ * u = x at hx ⊢
  calc x + (z + g * f) = u + g * e * x + (z + g * f) := by rw [← hx]
    _ = z + z + (g * (e * x + f) + k) := by
      rw [hu, mul_add, mul_assoc]
      abel
    _ = z + (g * (e * x + f) + k) := by rw [Language.add_self]

theorem append_mem_kstar (hu : u ∈ l∗) (hv : v ∈ l∗) : u ++ v ∈ l∗ := by
  rw [← kstar_mul_kstar l]
  exact Language.append_mem_mul hu hv

theorem mem_kstar_self (hu : u ∈ l) : u ∈ l∗ := (le_kstar : l ≤ l∗) hu

theorem kstar_append_mem (hu : u ∈ l∗) (hv : v ∈ l) : u ++ v ∈ l∗ :=
  append_mem_kstar hu (mem_kstar_self hv)

end Edi
