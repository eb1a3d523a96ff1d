import Mathlib.Data.Int.Bitwise
import Mathlib.Data.Nat.Bitwise
import Mathlib.Tactic.Common

namespace Numerals

theorem digitChar_inj {m n : Nat} (hm : m < 16) (hn : n < 16)
    (same : m.digitChar = n.digitChar) : m = n := by
  have all : ∀ m < 16, ∀ n < 16, Nat.digitChar m = Nat.digitChar n → m = n := by decide
  exact all m hm n hn same

theorem toDigits_inj {b : Nat} (hb : 1 < b) (few : b ≤ 16) {m n : Nat}
    (same : Nat.toDigits b m = Nat.toDigits b n) : m = n := by
  induction m using Nat.strong_induction_on generalizing n with
  | _ m ih =>
    rw [Nat.toDigits_eq_if hb, Nat.toDigits_eq_if (n := n) hb] at same
    have positive : ∀ k, 0 < (Nat.toDigits b k).length := fun k => Nat.length_toDigits_pos
    split_ifs at same with shortM shortN shortN
    · exact digitChar_inj (by omega) (by omega) (List.singleton_inj.mp same)
    · have lengths := congrArg List.length same
      have front := positive (n / b)
      simp only [List.length_append, List.length_singleton] at lengths
      omega
    · have lengths := congrArg List.length same
      have front := positive (m / b)
      simp only [List.length_append, List.length_singleton] at lengths
      omega
    · obtain ⟨front, last⟩ := List.append_inj' same rfl
      have quotients := ih (m / b) (Nat.div_lt_self (by omega) hb) front
      have remainders := digitChar_inj
        (Nat.lt_of_lt_of_le (Nat.mod_lt m (by omega)) few)
        (Nat.lt_of_lt_of_le (Nat.mod_lt n (by omega)) few) (List.singleton_inj.mp last)
      rw [← Nat.div_add_mod m b, ← Nat.div_add_mod n b, quotients, remainders]

theorem digit_of_mem_toDigits {b : Nat} (hb : 1 < b) (few : b ≤ 16) {n : Nat} {c : Char}
    (mem : c ∈ Nat.toDigits b n) : ∃ d < 16, c = d.digitChar := by
  induction n using Nat.strong_induction_on with
  | _ n ih =>
    rw [Nat.toDigits_eq_if hb] at mem
    split_ifs at mem with short
    · exact ⟨n, by omega, List.mem_singleton.mp mem⟩
    · rcases List.mem_append.mp mem with mem | mem
      · exact ih (n / b) (Nat.div_lt_self (by omega) hb) mem
      · exact ⟨n % b, Nat.lt_of_lt_of_le (Nat.mod_lt n (by omega)) few, List.mem_singleton.mp mem⟩

theorem sep_notMem_toDigits {b : Nat} (hb : 1 < b) (few : b ≤ 16) {sep : Char}
    (noDigit : ∀ d < 16, sep ≠ Nat.digitChar d) (n : Nat) : sep ∉ Nat.toDigits b n := by
  intro mem
  obtain ⟨d, small, is⟩ := digit_of_mem_toDigits hb few mem
  exact noDigit d small is

theorem append_sep_inj {α : Type} {sep : α} {x y r s : List α} (hx : sep ∉ x) (hy : sep ∉ y)
    (same : x ++ sep :: r = y ++ sep :: s) : x = y ∧ r = s := by
  induction x generalizing y with
  | nil =>
    cases y with
    | nil => exact ⟨rfl, (List.cons.inj same).2⟩
    | cons b y =>
      obtain ⟨rfl, -⟩ := List.cons.inj same
      exact absurd List.mem_cons_self hy
  | cons a x ih =>
    cases y with
    | nil =>
      obtain ⟨rfl, -⟩ := List.cons.inj same
      exact absurd List.mem_cons_self hx
    | cons b y =>
      obtain ⟨rfl, rest⟩ := List.cons.inj same
      obtain ⟨rfl, tail⟩ := ih (fun mem => hx (List.mem_cons_of_mem _ mem))
        (fun mem => hy (List.mem_cons_of_mem _ mem)) rest
      exact ⟨rfl, tail⟩

theorem intercalate_cons_cons {α : Type} (sep : α) (x y : List α) (xs : List (List α)) :
    [sep].intercalate (x :: y :: xs) = x ++ sep :: [sep].intercalate (y :: xs) := by
  simp [List.intercalate, List.intersperse]

theorem mem_intercalate {α : Type} {sep a : α} {xs : List (List α)}
    (mem : a ∈ [sep].intercalate xs) : a = sep ∨ ∃ x ∈ xs, a ∈ x := by
  induction xs with
  | nil => simp [List.intercalate] at mem
  | cons x xs ih =>
    cases xs with
    | nil => exact .inr ⟨x, List.mem_cons_self, by simpa [List.intercalate] using mem⟩
    | cons y xs =>
      rw [intercalate_cons_cons, List.mem_append, List.mem_cons] at mem
      rcases mem with mem | rfl | mem
      · exact .inr ⟨x, List.mem_cons_self, mem⟩
      · exact .inl rfl
      · obtain same | ⟨z, among, inside⟩ := ih mem
        · exact .inl same
        · exact .inr ⟨z, List.mem_cons_of_mem _ among, inside⟩

/-- As many texts, joined, determine the texts. -/
theorem intercalate_inj {α : Type} {sep : α} {xs ys : List (List α)}
    (count : xs.length = ys.length) (hx : ∀ x ∈ xs, sep ∉ x) (hy : ∀ y ∈ ys, sep ∉ y)
    (same : [sep].intercalate xs = [sep].intercalate ys) : xs = ys := by
  induction xs generalizing ys with
  | nil => exact (List.length_eq_zero_iff.mp count.symm).symm
  | cons x xs ih =>
    cases ys with
    | nil => cases count
    | cons y ys =>
      have counts : xs.length = ys.length := Nat.succ.inj count
      cases xs with
      | nil =>
        obtain rfl := List.length_eq_zero_iff.mp counts.symm
        simpa [List.intercalate] using same
      | cons x' xs =>
        cases ys with
        | nil => cases counts
        | cons y' ys =>
          rw [intercalate_cons_cons, intercalate_cons_cons] at same
          obtain ⟨rfl, rest⟩ :=
            append_sep_inj (hx x List.mem_cons_self) (hy y List.mem_cons_self) same
          rw [ih counts (fun z mem => hx z (List.mem_cons_of_mem _ mem))
            (fun z mem => hy z (List.mem_cons_of_mem _ mem)) rest]

section
variable {b : Nat} (hb : 1 < b) (few : b ≤ 16) {sep : Char}
  (noDigit : ∀ d < 16, sep ≠ Nat.digitChar d)
include hb few noDigit

/-- As many numbers, joined by what is no digit, determine the numbers. -/
theorem joined_inj {ns ms : List Nat} (count : ns.length = ms.length)
    (same : [sep].intercalate (ns.map (Nat.toDigits b)) =
      [sep].intercalate (ms.map (Nat.toDigits b))) : ns = ms := by
  have apart : ∀ ls : List Nat, ∀ x ∈ ls.map (Nat.toDigits b), sep ∉ x := by
    intro ls x mem
    obtain ⟨n, -, rfl⟩ := List.mem_map.mp mem
    exact sep_notMem_toDigits hb few noDigit n
  have texts := intercalate_inj (by simpa using count) (apart ns) (apart ms) same
  exact (List.map_inj_right fun _ _ => toDigits_inj hb few).mp texts

/-- What is no digit and does not join them is not there. -/
theorem notMem_joined {other : Char} (differs : sep ≠ other) (ns : List Nat) :
    sep ∉ [other].intercalate (ns.map (Nat.toDigits b)) := by
  intro mem
  obtain same | ⟨x, among, inside⟩ := mem_intercalate mem
  · exact differs same
  · obtain ⟨n, -, rfl⟩ := List.mem_map.mp among
    exact sep_notMem_toDigits hb few noDigit n inside

end

theorem ldiff_mask (m w : Nat) : Nat.ldiff (2 ^ w - 1) m = 2 ^ w - (m % 2 ^ w + 1) := by
  refine Nat.eq_of_testBit_eq fun i => ?_
  rw [Nat.testBit_ldiff, Nat.testBit_two_pow_sub_one,
    Nat.testBit_two_pow_sub_succ (Nat.mod_lt m (Nat.two_pow_pos w)), Nat.testBit_mod_two_pow]
  by_cases inside : i < w
  · simp [inside]
  · simp [inside]

/-- The low bits of an integer, in two's complement. -/
theorem land_mask (n : Int) (w : Nat) : n.land (2 ^ w - 1 : Nat) = n % 2 ^ w := by
  cases n with
  | ofNat n =>
    change ((n &&& (2 ^ w - 1) : Nat) : Int) = _
    rw [Nat.and_two_pow_sub_one_eq_mod]
    simp
  | negSucc m =>
    change ((Nat.ldiff (2 ^ w - 1) m : Nat) : Int) = _
    have modulus : (0 : Int) < 2 ^ w := Int.pow_pos (by decide)
    have small : m % 2 ^ w + 1 ≤ 2 ^ w := Nat.mod_lt m (Nat.two_pow_pos w)
    rw [ldiff_mask, Int.negSucc_emod _ modulus, Nat.cast_sub small]
    push_cast
    omega

end Numerals
