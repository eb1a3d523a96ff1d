import CamelliaRemote.Lib.Codec

namespace CheckedReading
open Codec

inductive Fault where
  | outOfBounds
  | overflow
  deriving DecidableEq, Repr

abbrev Checked := Reader Fault

variable {α β : Type} {data : Bytes} {i len : Nat}

/-- What was read goes on to the rest of the program. -/
theorem bind_of_ok {p : Checked α} {f : α → Checked β} {a : α} {j : Nat} (h : p i = .ok (a, j)) :
    (p >>= f) i = f a j := by
  change (p i >>= fun x => f x.1 x.2) = f a j
  rw [h]
  rfl

/-- Nothing runs after a fault. -/
theorem bind_of_error {p : Checked α} {f : α → Checked β} {fault : Fault}
    (h : p i = .error fault) : (p >>= f) i = .error fault := by
  change (p i >>= fun x => f x.1 x.2) = .error fault
  rw [h]
  rfl

/-- The next `len` bytes. -/
def takeBytes (data : Bytes) (len : Nat) : Checked Bytes := fun cursor =>
  if cursor + len ≤ data.length then .ok ((data.drop cursor).take len, cursor + len)
  else .error .outOfBounds

/-- The next `len` bytes, not moved over. -/
def peekBytes (data : Bytes) (len : Nat) : Checked Bytes := fun cursor =>
  if cursor + len ≤ data.length then .ok ((data.drop cursor).take len, cursor)
  else .error .outOfBounds

def advance (data : Bytes) (len : Nat) : Checked Unit := do
  let _ ← takeBytes data len

/-- The number in the next `len` bytes. -/
def getUintLe (data : Bytes) (len : Nat) : Checked Nat := do
  return ofLittleEndian (← takeBytes data len)

/-- How many bytes are left. -/
def remaining (data : Bytes) : Checked Nat := fun cursor => .ok (data.length - cursor, cursor)

/-- A result that has to fit in `width` bits. -/
def fit (width n : Nat) : Checked Nat := if n < 2 ^ width then pure n else throw .overflow

def checkedAdd (width m n : Nat) : Checked Nat := fit width (m + n)

def checkedMul (width m n : Nat) : Checked Nat := fit width (m * n)

/-- The difference of unsigned numbers. -/
def checkedSub (m n : Nat) : Checked Nat := if n ≤ m then pure (m - n) else throw .overflow

theorem takeBytes_ok (room : i + len ≤ data.length) :
    takeBytes data len i = .ok ((data.drop i).take len, i + len) := by
  rw [takeBytes, if_pos room]

theorem peekBytes_ok (room : i + len ≤ data.length) :
    peekBytes data len i = .ok ((data.drop i).take len, i) := by
  rw [peekBytes, if_pos room]

theorem advance_ok (room : i + len ≤ data.length) : advance data len i = .ok ((), i + len) :=
  bind_of_ok (takeBytes_ok room)

theorem getUintLe_ok (room : i + len ≤ data.length) :
    getUintLe data len i = .ok (ofLittleEndian ((data.drop i).take len), i + len) :=
  bind_of_ok (takeBytes_ok room)

theorem remaining_ok : remaining data i = .ok (data.length - i, i) := rfl

theorem fit_ok {width n : Nat} (fits : n < 2 ^ width) : fit width n i = .ok (n, i) := by
  rw [fit, if_pos fits]
  rfl

theorem fit_overflow {width n : Nat} (wide : 2 ^ width ≤ n) :
    fit width n i = .error .overflow := by
  rw [fit, if_neg (Nat.not_lt.mpr wide)]
  rfl

theorem checkedSub_ok {m n : Nat} (le : n ≤ m) : checkedSub m n i = .ok (m - n, i) := by
  rw [checkedSub, if_pos le]
  rfl

end CheckedReading
