import Mathlib.Data.List.Basic
import Mathlib.Tactic.Common

namespace GrowingFile

variable {α : Type} {head start len i : Nat} {f g h s : List α}

def Grows (head : Nat) (f g : List α) : Prop :=
  f.length ≤ g.length ∧ ∀ i, head ≤ i → i < f.length → f[i]? = g[i]?

/-- The piece takes the place of what was there. -/
def writeAt (file : List α) (start : Nat) (piece : List α) : List α :=
  file.take start ++ piece ++ file.drop (start + piece.length)

theorem Grows.refl (head : Nat) (f : List α) : Grows head f f := ⟨Nat.le_refl _, fun _ _ _ => rfl⟩

theorem Grows.trans (first : Grows head f g) (second : Grows head g h) : Grows head f h := by
  refine ⟨Nat.le_trans first.1 second.1, fun i low high => ?_⟩
  rw [first.2 i low high]
  exact second.2 i low (Nat.lt_of_lt_of_le high first.1)

theorem grows_nil (head : Nat) (f : List α) : Grows head [] f :=
  ⟨Nat.zero_le _, fun _ _ high => absurd high (Nat.not_lt_zero _)⟩

theorem grows_of_short (short : f.length ≤ head) (longer : f.length ≤ g.length) :
    Grows head f g :=
  ⟨longer, fun _ low high => absurd (Nat.lt_of_lt_of_le high short) (Nat.not_lt_of_le low)⟩

theorem length_writeAt {piece : List α} (inside : start ≤ s.length) :
    (writeAt s start piece).length = max s.length (start + piece.length) := by
  simp only [writeAt, List.length_append, List.length_take, List.length_drop]
  omega

theorem getElem?_writeAt {piece : List α} (inside : start ≤ s.length) (i : Nat) :
    (writeAt s start piece)[i]? =
      if i < start then s[i]? else if i < start + piece.length then piece[i - start]?
      else s[i]? := by
  have front : (s.take start).length = start := by
    rw [List.length_take]
    omega
  unfold writeAt
  by_cases before : i < start
  · rw [if_pos before, List.append_assoc, List.getElem?_append_left (by omega),
      List.getElem?_take_of_lt before]
  rw [if_neg before]
  by_cases within : i < start + piece.length
  · rw [if_pos within, List.getElem?_append_left (by simp; omega),
      List.getElem?_append_right (by omega), front]
  · rw [if_neg within, List.getElem?_append_right (by simp; omega), List.getElem?_drop]
    congr 1
    simp only [List.length_append, front]
    omega

/-- A piece of the later file, written at its place in a copy. -/
theorem grows_writeAt (copy : Grows head s f) (later : Grows head f g) (inside : start ≤ s.length)
    (len : Nat) : Grows head (writeAt s start ((g.drop start).take len)) g := by
  have whole := copy.trans later
  have piece : ((g.drop start).take len).length = min len (g.length - start) := by
    rw [List.length_take, List.length_drop]
  refine ⟨?_, fun i low high => ?_⟩
  · rw [length_writeAt inside, piece]
    have bound := whole.1
    omega
  · rw [length_writeAt inside] at high
    rw [getElem?_writeAt inside]
    by_cases before : i < start
    · rw [if_pos before]
      exact whole.2 i low (by omega)
    rw [if_neg before]
    by_cases within : i < start + ((g.drop start).take len).length
    · rw [if_pos within, List.getElem?_take_of_lt (by omega), List.getElem?_drop]
      congr 1
      omega
    · rw [if_neg within]
      exact whole.2 i low (by omega)

/-- The head of the file over a copy of its length. -/
theorem writeAt_head (copy : Grows head s f) (length : f.length ≤ s.length) :
    writeAt s 0 (f.take head) = f := by
  apply List.ext_getElem?
  intro i
  rw [getElem?_writeAt (Nat.zero_le _), if_neg (Nat.not_lt_zero i), Nat.zero_add, Nat.sub_zero,
    List.length_take]
  by_cases within : i < min head f.length
  · rw [if_pos within, List.getElem?_take_of_lt (by omega)]
  · rw [if_neg within]
    by_cases inside : i < s.length
    · have same := copy.1
      exact copy.2 i (by omega) inside
    · have same := copy.1
      rw [List.getElem?_eq_none (by omega), List.getElem?_eq_none (by omega)]

end GrowingFile
