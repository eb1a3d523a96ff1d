import Mathlib.Data.List.Count
import Mathlib.Data.List.Induction
import Mathlib.Data.List.MinMax

namespace Tally

variable {α : Type*} [DecidableEq α]

/-- One more of a value. -/
def bump : List (α × Nat) → α → List (α × Nat)
  | [], a => [(a, 1)]
  | (b, n) :: rest, a => if b = a then (b, n + 1) :: rest else (b, n) :: bump rest a

def tally (l : List α) : List (α × Nat) := l.foldl bump []

def maxCount (counts : List (α × Nat)) : Nat := (counts.map Prod.snd).max?.getD 0

def mostFrequent (l : List α) : Option α :=
  ((tally l).find? fun c => c.2 = maxCount (tally l)).map Prod.fst

/-- `a` occurs most often, and before all that occur as often. -/
def Wins (l : List α) (a : α) : Prop :=
  a ∈ l ∧ ∀ b ∈ l, l.count b < l.count a ∨ l.count b = l.count a ∧ l.idxOf a ≤ l.idxOf b

instance (l : List α) (a : α) : Decidable (Wins l a) := inferInstanceAs (Decidable (_ ∧ _))

/-- What a tally is: the values with their counts, by first occurrence. -/
structure Tallies (l : List α) (counts : List (α × Nat)) : Prop where
  keys : ∀ a, a ∈ counts.map Prod.fst ↔ a ∈ l
  count : ∀ c ∈ counts, c.2 = l.count c.1
  sorted : (counts.map Prod.fst).Pairwise fun a b => l.idxOf a < l.idxOf b

theorem keys_bump (counts : List (α × Nat)) (a : α) :
    (bump counts a).map Prod.fst =
      if a ∈ counts.map Prod.fst then counts.map Prod.fst else counts.map Prod.fst ++ [a] := by
  induction counts with
  | nil => simp [bump]
  | cons c counts ih =>
    obtain ⟨b, n⟩ := c
    by_cases same : b = a
    · simp [bump, same]
    · have other : ¬ a = b := fun h => same h.symm
      rw [bump, if_neg same, List.map_cons, ih]
      by_cases mem : a ∈ counts.map Prod.fst <;> simp_all

theorem count_bump {l : List α} {counts : List (α × Nat)} {a : α}
    (nodup : (counts.map Prod.fst).Nodup) (h : ∀ c ∈ counts, c.2 = l.count c.1)
    (new : a ∈ l → a ∈ counts.map Prod.fst) :
    ∀ c ∈ bump counts a, c.2 = (l ++ [a]).count c.1 := by
  induction counts with
  | nil =>
    intro c mem
    rw [bump, List.mem_singleton] at mem
    subst mem
    have absent : a ∉ l := fun mem => List.not_mem_nil (new mem)
    simp [List.count_eq_zero_of_not_mem absent]
  | cons c counts ih =>
    obtain ⟨b, n⟩ := c
    rw [List.map_cons, List.nodup_cons] at nodup
    simp only [List.mem_cons, forall_eq_or_imp] at h
    by_cases same : b = a
    · subst same
      rw [bump, if_pos rfl]
      intro c mem
      rcases List.mem_cons.mp mem with rfl | mem
      · simp [h.1]
      · have other : ¬ b = c.1 := by
          intro same
          exact nodup.1 (List.mem_map.mpr ⟨c, mem, same.symm⟩)
        simp [List.count_append, other, h.2 c mem]
    · rw [bump, if_neg same]
      intro c mem
      rcases List.mem_cons.mp mem with rfl | mem
      · have other : ¬ a = b := fun h => same h.symm
        simp [List.count_append, other, h.1]
      · refine ih nodup.2 h.2 (fun mem => ?_) c mem
        rcases List.mem_cons.mp (new mem) with is | mem
        · exact absurd is.symm same
        · exact mem

theorem tallies_concat {l : List α} {counts : List (α × Nat)} (h : Tallies l counts) (a : α) :
    Tallies (l ++ [a]) (bump counts a) := by
  have nodup : (counts.map Prod.fst).Nodup := by
    refine h.sorted.imp ?_
    rintro b c lt rfl
    exact lt_irrefl _ lt
  have kept : (counts.map Prod.fst).Pairwise
      fun b c => (l ++ [a]).idxOf b < (l ++ [a]).idxOf c := by
    refine h.sorted.imp_of_mem fun memB memC lt => ?_
    rwa [List.idxOf_append_of_mem ((h.keys _).mp memB),
      List.idxOf_append_of_mem ((h.keys _).mp memC)]
  refine ⟨?_, count_bump nodup h.count (h.keys a).mpr, ?_⟩
  · intro b
    rw [keys_bump]
    split
    · rename_i mem
      rw [h.keys, List.mem_append, List.mem_singleton]
      constructor
      · exact .inl
      · rintro (mem' | rfl)
        · exact mem'
        · exact (h.keys _).mp mem
    · rw [List.mem_append, List.mem_append, h.keys]
  · rw [keys_bump]
    split
    · exact kept
    · rename_i absent
      rw [List.pairwise_append]
      refine ⟨kept, List.pairwise_singleton _ _, ?_⟩
      intro b mem c isLast
      obtain rfl := List.mem_singleton.mp isLast
      have inside := (h.keys b).mp mem
      rw [List.idxOf_append_of_mem inside,
        List.idxOf_append_of_notMem fun mem => absent ((h.keys c).mpr mem)]
      exact Nat.lt_of_lt_of_le (List.idxOf_lt_length_of_mem inside) (Nat.le_add_right _ _)

theorem tallies_tally (l : List α) : Tallies l (tally l) := by
  induction l using List.reverseRecOn with
  | nil => exact ⟨by simp [tally], by simp [tally], List.Pairwise.nil⟩
  | append_singleton l a ih =>
    rw [tally, List.foldl_append]
    exact tallies_concat ih a

omit [DecidableEq α] in
theorem max_spec {counts : List (α × Nat)} (nonempty : counts ≠ []) :
    (∃ c ∈ counts, c.2 = maxCount counts) ∧ ∀ c ∈ counts, c.2 ≤ maxCount counts := by
  cases isMax : (counts.map Prod.snd).max? with
  | none => simp [nonempty] at isMax
  | some n =>
    have most : maxCount counts = n := by simp [maxCount, isMax]
    obtain ⟨mem, le⟩ := List.max?_eq_some_iff.mp isMax
    obtain ⟨c, isCount, same⟩ := List.mem_map.mp mem
    rw [most]
    exact ⟨⟨c, isCount, same⟩, fun c mem => le _ (List.mem_map_of_mem mem)⟩

theorem mostFrequent_eq_none {l : List α} : mostFrequent l = none ↔ l = [] := by
  have h := tallies_tally l
  have empty : tally l = [] ↔ l = [] := by
    constructor
    · intro none
      refine List.eq_nil_iff_forall_not_mem.mpr fun a mem => ?_
      have key := (h.keys a).mpr mem
      rw [none] at key
      cases key
    · rintro rfl
      rfl
  rw [← empty, mostFrequent, Option.map_eq_none_iff, List.find?_eq_none]
  constructor
  · intro none
    by_contra nonempty
    obtain ⟨⟨c, mem, isMax⟩, -⟩ := max_spec nonempty
    exact none c mem (decide_eq_true isMax)
  · intro none
    simp [none]

theorem mostFrequent_eq_some {l : List α} {a : α} : mostFrequent l = some a ↔ Wins l a := by
  have h := tallies_tally l
  have counted : ∀ b ∈ l, (b, l.count b) ∈ tally l := by
    intro b mem
    obtain ⟨c, isCount, rfl⟩ := List.mem_map.mp ((h.keys b).mpr mem)
    rw [← h.count c isCount]
    exact isCount
  have wins : ∀ a, mostFrequent l = some a → Wins l a := by
    intro a first
    obtain ⟨⟨b, n⟩, found, rfl⟩ := Option.map_eq_some_iff.mp first
    obtain ⟨isMax, before, after, split, smaller⟩ := List.find?_eq_some_iff_append.mp found
    have mem : (b, n) ∈ tally l := List.mem_of_find?_eq_some found
    have nonempty : tally l ≠ [] := List.ne_nil_of_mem mem
    have isCount : n = l.count b := h.count _ mem
    have isMax : n = maxCount (tally l) := of_decide_eq_true isMax
    refine ⟨(h.keys b).mp (List.mem_map_of_mem mem), fun c inList => ?_⟩
    have le := (max_spec nonempty).2 _ (counted c inList)
    dsimp only at le ⊢
    rcases Nat.lt_or_eq_of_le le with lt | same
    · exact .inl (by omega)
    · refine .inr ⟨by omega, ?_⟩
      have place := counted c inList
      have sorted := h.sorted
      rw [split, List.map_append, List.map_cons] at sorted
      rw [split, List.mem_append, List.mem_cons] at place
      rcases place with place | place | place
      · exact absurd same (by simpa using smaller _ place)
      · exact (congrArg (l.idxOf ·.1) place.symm).le
      · exact ((List.pairwise_cons.mp (List.pairwise_append.mp sorted).2.1).1 c
          (List.mem_map.mpr ⟨_, place, rfl⟩)).le
  refine ⟨wins a, fun isWinner => ?_⟩
  cases first : mostFrequent l with
  | none =>
    rw [mostFrequent_eq_none.mp first] at isWinner
    cases isWinner.1
  | some b =>
    have other := wins b first
    have ab := isWinner.2 b other.1
    have ba := other.2 a isWinner.1
    have same : l.idxOf b = l.idxOf a := by omega
    rw [(List.idxOf_inj other.1).mp same]

end Tally
