import Mathlib.Data.List.Perm.Basic
import Mathlib.Tactic.Common
import Std.Data.ExtTreeMap

namespace TreeMaps
open Std (ExtTreeMap TransCmp LawfulEqCmp)

variable {α β : Type*} {cmp : α → α → Ordering} [TransCmp cmp] [LawfulEqCmp cmp]
  {m : ExtTreeMap α β cmp} {k j : α} {v w : β}

theorem of_insert (h : (m.insert k v)[j]? = some w) :
    j = k ∧ w = v ∨ j ≠ k ∧ m[j]? = some w := by
  rw [ExtTreeMap.getElem?_insert] at h
  split at h
  · rename_i same
    exact .inl ⟨(LawfulEqCmp.eq_of_compare same).symm, (Option.some.inj h).symm⟩
  · rename_i other
    refine .inr ⟨?_, h⟩
    rintro rfl
    exact other Std.ReflCmp.compare_self

theorem of_erase (h : (m.erase k)[j]? = some w) : j ≠ k ∧ m[j]? = some w := by
  rw [ExtTreeMap.getElem?_erase] at h
  split at h
  · cases h
  · rename_i other
    refine ⟨?_, h⟩
    rintro rfl
    exact other Std.ReflCmp.compare_self

theorem insert_of_ne (other : j ≠ k) : (m.insert k v)[j]? = m[j]? := by
  rw [ExtTreeMap.getElem?_insert, if_neg]
  intro same
  exact other (LawfulEqCmp.eq_of_compare same).symm

/-- An insertion at a new key keeps what is found. -/
theorem insert_of_absent (absent : m[k]? = none) (found : m[j]? = some w) :
    (m.insert k v)[j]? = some w := by
  have other : j ≠ k := by
    rintro rfl
    rw [absent] at found
    cases found
  exact (insert_of_ne other).trans found

theorem erase_of_ne (other : j ≠ k) : (m.erase k)[j]? = m[j]? := by
  rw [ExtTreeMap.getElem?_erase, if_neg]
  intro same
  exact other (LawfulEqCmp.eq_of_compare same).symm

omit [LawfulEqCmp cmp] in
theorem ne_of_value (hj : m[j]? = some w) (hk : m[k]? = some v) (differ : w ≠ v) : j ≠ k := by
  rintro rfl
  exact differ (Option.some.inj (hj.symm.trans hk))

omit [LawfulEqCmp cmp] in
theorem nodup_toList : m.toList.Nodup := by
  have ordered := m.ordered_keys_toList
  refine ordered.imp ?_
  rintro a b lt rfl
  simp [Std.ReflCmp.compare_self] at lt

theorem toList_insert_perm (absent : m[k]? = none) :
    (m.insert k v).toList.Perm ((k, v) :: m.toList) := by
  have new : (k, v) ∉ m.toList := by
    rw [ExtTreeMap.mem_toList_iff_getElem?_eq_some, absent]
    simp
  refine (List.perm_ext_iff_of_nodup nodup_toList (List.nodup_cons.mpr ⟨new, nodup_toList⟩)).mpr ?_
  rintro ⟨j, w⟩
  rw [List.mem_cons, ExtTreeMap.mem_toList_iff_getElem?_eq_some,
    ExtTreeMap.mem_toList_iff_getElem?_eq_some, Prod.mk.injEq]
  constructor
  · intro found
    rcases of_insert found with here | ⟨-, old⟩
    · exact .inl here
    · exact .inr old
  · rintro (⟨rfl, rfl⟩ | old)
    · simp
    · exact insert_of_absent absent old

theorem toList_erase_perm (found : m[k]? = some v) :
    m.toList.Perm ((k, v) :: (m.erase k).toList) := by
  have gone : (k, v) ∉ (m.erase k).toList := by
    rw [ExtTreeMap.mem_toList_iff_getElem?_eq_some]
    intro still
    exact (of_erase still).1 rfl
  refine (List.perm_ext_iff_of_nodup nodup_toList (List.nodup_cons.mpr ⟨gone, nodup_toList⟩)).mpr ?_
  rintro ⟨j, w⟩
  rw [List.mem_cons, ExtTreeMap.mem_toList_iff_getElem?_eq_some,
    ExtTreeMap.mem_toList_iff_getElem?_eq_some, Prod.mk.injEq]
  constructor
  · intro here
    by_cases same : j = k
    · subst same
      exact .inl ⟨rfl, Option.some.inj (here.symm.trans found)⟩
    · exact .inr ((erase_of_ne same).trans here)
  · rintro (⟨rfl, rfl⟩ | old)
    · exact found
    · exact (of_erase old).2

/-- The values, as often as they stand in the map. -/
def values (m : ExtTreeMap α β cmp) : List β := m.toList.map Prod.snd

theorem values_insert_perm (absent : m[k]? = none) :
    (values (m.insert k v)).Perm (v :: values m) :=
  (toList_insert_perm absent).map Prod.snd

/-- Moving a value to a new key keeps the values. -/
theorem values_move_perm (found : m[j]? = some v) (absent : m[k]? = none) :
    (values ((m.erase j).insert k v)).Perm (values m) := by
  have absent' : (m.erase j)[k]? = none := by
    rw [ExtTreeMap.getElem?_erase, absent, ite_self]
  exact (values_insert_perm absent').trans ((toList_erase_perm found).map Prod.snd).symm

end TreeMaps
