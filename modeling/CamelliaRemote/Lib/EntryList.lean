import Mathlib.Data.List.Nodup
import Mathlib.Tactic.Common

namespace EntryList

variable {α β : Type*} [DecidableEq α]

/-- The value of the first entry with the key. -/
def get (m : List (α × β)) (k : α) : Option β := (m.find? fun entry => entry.1 = k).map Prod.snd

/-- The entry goes behind the others, and any older one of its key is dropped. -/
def set (m : List (α × β)) (k : α) (v : β) : List (α × β) :=
  (m.filter fun entry => entry.1 ≠ k) ++ [(k, v)]

omit [DecidableEq α] in
def delete (m : List (α × β)) (p : α → Bool) : List (α × β) := m.filter fun entry => !p entry.1

/-- No key has two entries. -/
def Distinct (m : List (α × β)) : Prop := (m.map Prod.fst).Nodup

variable {m : List (α × β)} {k j : α} {v w : β} {p : α → Bool}

theorem mem_of_get (found : get m k = some v) : (k, v) ∈ m := by
  obtain ⟨⟨j, w⟩, is, rfl⟩ := Option.map_eq_some_iff.mp found
  obtain rfl : j = k := by simpa using List.find?_some is
  exact List.mem_of_find?_eq_some is

theorem get_of_mem (distinct : Distinct m) (mem : (k, v) ∈ m) : get m k = some v := by
  induction m with
  | nil => cases mem
  | cons entry m ih =>
    obtain ⟨absent, rest⟩ := List.nodup_cons.mp distinct
    by_cases here : entry.1 = k
    · obtain rfl : (k, v) = entry := by
        refine (List.mem_cons.mp mem).resolve_right fun later => absent ?_
        exact List.mem_map.mpr ⟨(k, v), later, here.symm⟩
      simp [get]
    · have later : (k, v) ∈ m := (List.mem_cons.mp mem).resolve_left fun same => here (same ▸ rfl)
      have found := ih rest later
      rw [get] at found ⊢
      rw [List.find?_cons_of_neg (by simpa using here)]
      exact found

theorem get_iff (distinct : Distinct m) : get m k = some v ↔ (k, v) ∈ m :=
  ⟨mem_of_get, get_of_mem distinct⟩

/-- Entries that are kept by their key are found as before. -/
theorem get_filter : get (m.filter fun entry => p entry.1) j = if p j then get m j else none := by
  rw [get, List.find?_filter]
  by_cases kept : p j
  · have same : (fun entry : α × β => decide (p entry.1 = true ∧ decide (entry.1 = j) = true)) =
        fun entry => decide (entry.1 = j) := by
      funext entry
      by_cases here : entry.1 = j <;> simp [here, kept]
    rw [if_pos kept, get, same]
  · rw [if_neg kept, Option.map_eq_none_iff, List.find?_eq_none]
    rintro entry -
    by_cases here : entry.1 = j <;> simp [here, kept]

theorem get_delete : get (delete m p) j = if p j then none else get m j := by
  rw [delete, get_filter (p := fun k => !p k)]
  by_cases gone : p j <;> simp [gone]

theorem get_set : get (set m k v) j = if j = k then some v else get m j := by
  have kept := get_filter (m := m) (p := fun i => decide (i ≠ k)) (j := j)
  rw [get] at kept
  rw [get, set, List.find?_append, Option.map_or, kept]
  by_cases same : j = k
  · simp [same]
  · simp [same, Ne.symm same]

theorem set_eq : set m k v = delete m (fun j => j = k) ++ [(k, v)] := by
  simp [set, delete]

omit [DecidableEq α] in
theorem mem_delete : (j, w) ∈ delete m p ↔ (j, w) ∈ m ∧ p j = false := by
  simp [delete]

omit [DecidableEq α] in
theorem distinct_delete (distinct : Distinct m) : Distinct (delete m p) :=
  distinct.sublist (List.filter_sublist.map Prod.fst)

end EntryList
