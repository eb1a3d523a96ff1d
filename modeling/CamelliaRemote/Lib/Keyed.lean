import Mathlib.Algebra.BigOperators.Fin
import Mathlib.Algebra.Order.BigOperators.Group.Finset
import Mathlib.Tactic.Common

namespace Keyed

variable {α : Type*}

/-- The pieces under a key, put together. -/
def under (pieces : List (Nat × List α)) (key : Nat) : List α :=
  (pieces.filter fun p => p.1 = key).flatMap Prod.snd

theorem under_append_self (pieces : List (Nat × List α)) (key : Nat) (piece : List α) :
    under (pieces ++ [(key, piece)]) key = under pieces key ++ piece := by
  simp [under, List.filter_append]

theorem under_append_other (pieces : List (Nat × List α)) {key other : Nat} (piece : List α)
    (h : other ≠ key) : under (pieces ++ [(other, piece)]) key = under pieces key := by
  simp [under, List.filter_append, h]

theorem under_eq_nil {pieces : List (Nat × List α)} {key : Nat} (h : ∀ p ∈ pieces, p.1 ≠ key) :
    under pieces key = [] := by
  have none' : (pieces.filter fun p => p.1 = key) = [] :=
    List.filter_eq_nil_iff.mpr fun p mem => by simpa using h p mem
  rw [under, none', List.flatMap_nil]

theorem sum_length_under {n : Nat} {pieces : List (Nat × List α)} (h : ∀ p ∈ pieces, p.1 < n) :
    ((Finset.range n).sum fun key => (under pieces key).length) =
      (pieces.map fun p => p.2.length).sum := by
  induction pieces with
  | nil => simp [under]
  | cons p pieces ih =>
    have split (key : Nat) : (under (p :: pieces) key).length =
        (if p.1 = key then p.2.length else 0) + (under pieces key).length := by
      by_cases here : p.1 = key
      · simp [under, here]
      · simp [under, here]
    have below := Finset.mem_range.mpr (h p List.mem_cons_self)
    simp only [split, Finset.sum_add_distrib, Finset.sum_ite_eq, below, if_true, List.map_cons,
      List.sum_cons]
    rw [ih fun q mem => h q (List.mem_cons_of_mem p mem)]

/-- Numbers that are not below others, and sum up to no more, are the same. -/
theorem eq_of_sum_eq {sizes : List Nat} {got : Nat → Nat}
    (enough : ∀ i size, sizes[i]? = some size → size ≤ got i)
    (same : (Finset.range sizes.length).sum got = sizes.sum) {i size : Nat}
    (at_i : sizes[i]? = some size) : got i = size := by
  have total : (Finset.univ.sum fun i : Fin sizes.length => sizes[i.1]) =
      Finset.univ.sum fun i : Fin sizes.length => got i := by
    rw [Fin.sum_univ_getElem, Fin.sum_univ_eq_sum_range, same]
  have each := (Finset.sum_eq_sum_iff_of_le fun (j : Fin sizes.length) _ =>
    enough j _ (List.getElem?_eq_getElem j.2)).mp total
  obtain ⟨below, rfl⟩ := List.getElem?_eq_some_iff.mp at_i
  exact (each ⟨i, below⟩ (Finset.mem_univ _)).symm

end Keyed
