import Mathlib.Algebra.Ring.Int.Defs
import Mathlib.Algebra.Ring.Nat
import Mathlib.Tactic.Common

namespace MachineInt

/-- `as i32`. -/
def asI32 (n : Int) : Int := n.bmod (2 ^ 32)

/-- `as u64`. -/
def asU64 (n : Int) : Nat := (n % 2 ^ 64).toNat

/-- A low half without its sign bit survives the way through `i32`. -/
theorem asU64_asI32_of_lt {n : Nat} (h : n < 2 ^ 31) : asU64 (asI32 n) = n := by
  unfold asU64 asI32
  rw [Int.bmod_eq_of_le (by omega) (by omega)]
  omega

/-- With its sign bit it becomes a number of 64 bits. -/
theorem asU64_asI32_of_le {n : Nat} (h : 2 ^ 31 ≤ n) (fits : n < 2 ^ 32) :
    asU64 (asI32 n) = n + (2 ^ 64 - 2 ^ 32) := by
  have negative : (n : Int).bmod (2 ^ 32) = n - 2 ^ 32 := by
    rw [Int.bmod_def, if_neg (by omega)]
    omega
  unfold asU64 asI32
  rw [negative]
  omega

/-- A result in an `i64`; `none` is an overflow. -/
def checkI64 (n : Int) : Option Int := if -2 ^ 63 ≤ n ∧ n < 2 ^ 63 then some n else none

/-- A result in an `i32`. -/
def checkI32 (n : Int) : Option Int := if -2 ^ 31 ≤ n ∧ n < 2 ^ 31 then some n else none

def saturateI64 (n : Int) : Int := max (-2 ^ 63) (min (2 ^ 63 - 1) n)

def saturateI32 (n : Int) : Int := max (-2 ^ 31) (min (2 ^ 31 - 1) n)

theorem checkI64_of_bounds {n : Int} (low : -2 ^ 63 ≤ n) (high : n < 2 ^ 63) :
    checkI64 n = some n := by
  rw [checkI64, if_pos ⟨low, high⟩]

theorem checkI32_of_bounds {n : Int} (low : -2 ^ 31 ≤ n) (high : n < 2 ^ 31) :
    checkI32 n = some n := by
  rw [checkI32, if_pos ⟨low, high⟩]

/-- A cast keeps what fits. -/
theorem asI32_of_bounds {n : Int} (low : -2 ^ 31 ≤ n) (high : n < 2 ^ 31) : asI32 n = n := by
  unfold asI32
  exact Int.bmod_eq_of_le (by omega) (by omega)

/-- Saturation does not move a number across one that fits. -/
theorem le_saturateI64_iff {m n : Int} (low : -2 ^ 63 < m) (high : m < 2 ^ 63) :
    m ≤ saturateI64 n ↔ m ≤ n := by
  unfold saturateI64
  omega

end MachineInt
