import Mathlib.Data.List.Pairwise
import Mathlib.Order.Lattice
import Mathlib.Tactic.Common

namespace BinarySearch

variable {α : Type} [LinearOrder α]

/-- One element stays of the `size` elements from `base`; `fuel` bounds the halvings. -/
def narrow (xs : List α) (x : α) : Nat → Nat → Nat → Nat
  | 0, base, _ => base
  | fuel + 1, base, size =>
    if size ≤ 1 then base
    else
      let half := size / 2
      let mid := base + half
      match xs[mid]? with
      | none => base
      | some y => narrow xs x fuel (if x < y then base else mid) (size - half)

/-- The position of `x`, or the one where it would stand. -/
def search (xs : List α) (x : α) : Except Nat Nat :=
  let base := narrow xs x xs.length 0 xs.length
  match xs[base]? with
  | none => .error base
  | some y => if y = x then .ok base else .error (if y < x then base + 1 else base)

variable {xs : List α} {x y : α} {i k : Nat}

theorem lt_of_sorted (sorted : xs.Pairwise (· < ·)) (hi : xs[i]? = some x) (hk : xs[k]? = some y)
    (lt : i < k) : x < y := by
  obtain ⟨inI, rfl⟩ := List.getElem?_eq_some_iff.mp hi
  obtain ⟨inK, rfl⟩ := List.getElem?_eq_some_iff.mp hk
  exact List.pairwise_iff_getElem.mp sorted i k inI inK lt

theorem eq_of_sorted (sorted : xs.Pairwise (· < ·)) (hi : xs[i]? = some x)
    (hk : xs[k]? = some x) : i = k := by
  rcases Nat.lt_trichotomy i k with lt | eq | gt
  · exact absurd (lt_of_sorted sorted hi hk lt) (lt_irrefl x)
  · exact eq
  · exact absurd (lt_of_sorted sorted hk hi gt) (lt_irrefl x)

/-- A value in the window is the one that stays. -/
theorem narrow_eq (sorted : xs.Pairwise (· < ·)) (found : xs[k]? = some x) {fuel base size : Nat}
    (enough : size ≤ fuel) (low : base ≤ k) (high : k < base + size)
    (inside : base + size ≤ xs.length) : narrow xs x fuel base size = k := by
  induction fuel generalizing base size with
  | zero => omega
  | succ fuel ih =>
    unfold narrow
    by_cases small : size ≤ 1
    · rw [if_pos small]
      omega
    · have inMid : base + size / 2 < xs.length := by omega
      rw [if_neg small]
      simp only [List.getElem?_eq_getElem inMid]
      by_cases left : x < xs[base + size / 2]
      · rw [if_pos left]
        have before : k < base + size / 2 := by
          by_contra after
          rcases Nat.eq_or_lt_of_le (Nat.not_lt.mp after) with same | later
          · rw [← same, List.getElem?_eq_getElem inMid] at found
            exact absurd left (by simp [Option.some.inj found])
          · exact lt_asymm left
              (lt_of_sorted sorted (List.getElem?_eq_getElem inMid) found later)
        exact ih (by omega) low (by omega) (by omega)
      · rw [if_neg left]
        have notBefore : base + size / 2 ≤ k := by
          by_contra before
          exact left (lt_of_sorted sorted found (List.getElem?_eq_getElem inMid) (by omega))
        exact ih (by omega) notBefore (by omega) (by omega)

/-- **The search is right on a strictly sorted list.** -/
theorem search_eq_ok_iff (sorted : xs.Pairwise (· < ·)) :
    search xs x = .ok i ↔ xs[i]? = some x := by
  unfold search
  constructor
  · intro found
    simp only at found
    split at found
    · cases found
    · rename_i y here
      split at found
      · rename_i same
        cases found
        rw [here, same]
      · cases found
  · intro found
    have inside := (List.getElem?_eq_some_iff.mp found).1
    have stays := narrow_eq sorted found (Nat.le_refl xs.length) (Nat.zero_le i)
      (by omega) (by omega)
    simp only [stays, found, if_true]

theorem search_isOk_iff (sorted : xs.Pairwise (· < ·)) : (search xs x).isOk = true ↔ x ∈ xs := by
  rw [List.mem_iff_getElem?]
  cases found : search xs x with
  | ok i => exact ⟨fun _ => ⟨i, (search_eq_ok_iff sorted).mp found⟩, fun _ => rfl⟩
  | error at' =>
    refine ⟨fun ok => Bool.noConfusion ok, ?_⟩
    rintro ⟨i, here⟩
    rw [(search_eq_ok_iff sorted).mpr here] at found
    cases found

/-- What is left after the value at a position is removed. -/
theorem mem_eraseIdx_iff (sorted : xs.Pairwise (· < ·)) (found : xs[i]? = some x) :
    y ∈ xs.eraseIdx i ↔ y ∈ xs ∧ y ≠ x := by
  rw [List.mem_eraseIdx_iff_getElem?]
  constructor
  · rintro ⟨k, other, here⟩
    refine ⟨List.mem_of_getElem? here, ?_⟩
    rintro rfl
    exact other (eq_of_sorted sorted here found)
  · rintro ⟨mem, differs⟩
    obtain ⟨k, here⟩ := List.mem_iff_getElem?.mp mem
    refine ⟨k, ?_, here⟩
    rintro rfl
    rw [here] at found
    exact differs (Option.some.inj found)

theorem sorted_eraseIdx (sorted : xs.Pairwise (· < ·)) (i : Nat) :
    (xs.eraseIdx i).Pairwise (· < ·) :=
  sorted.sublist (List.eraseIdx_sublist xs i)

theorem sorted_append (sorted : xs.Pairwise (· < ·)) (greatest : ∀ y ∈ xs, y < x) :
    (xs ++ [x]).Pairwise (· < ·) := by
  rw [List.pairwise_append]
  refine ⟨sorted, List.pairwise_singleton _ _, ?_⟩
  intro y mem z last
  rw [List.mem_singleton.mp last]
  exact greatest y mem

end BinarySearch
