import Mathlib.Data.List.Infix
import Mathlib.Tactic.Ring
import Mathlib.Tactic.Common

/-!
Reading bytes from a cursor. A reader runs over fixed `data` from a cursor and either fails or
gives a value and the next cursor. `Exact data p enc valid` says all about such a reader at once:
it accepts exactly the valid values whose encoding stands at the cursor, and leaves the cursor
after it. From it follow both directions of a round trip, and `Exact.bind` composes it along the
sequence of reads.

Numbers of a fixed length are the first instance.
-/

namespace Codec

abbrev Bytes := List UInt8

/-- The last `len` base-256 digits of `n`, most significant first. -/
def toBigEndian : Nat → Nat → Bytes
  | 0, _ => []
  | len + 1, n => UInt8.ofNat (n / 256 ^ len) :: toBigEndian len (n % 256 ^ len)

def ofBigEndian : Bytes → Nat
  | [] => 0
  | b :: bs => b.toNat * 256 ^ bs.length + ofBigEndian bs

@[simp] theorem length_toBigEndian (len n : Nat) : (toBigEndian len n).length = len := by
  induction len generalizing n with
  | zero => rfl
  | succ len ih => simp [toBigEndian, ih]

theorem ofBigEndian_lt (bs : Bytes) : ofBigEndian bs < 256 ^ bs.length := by
  induction bs with
  | nil => simp [ofBigEndian]
  | cons b bs ih =>
    have byte : b.toNat + 1 ≤ 256 := b.toNat_lt
    calc ofBigEndian (b :: bs) < b.toNat * 256 ^ bs.length + 256 ^ bs.length :=
          Nat.add_lt_add_left ih _
      _ = (b.toNat + 1) * 256 ^ bs.length := by ring
      _ ≤ 256 * 256 ^ bs.length := Nat.mul_le_mul_right _ byte
      _ = 256 ^ (b :: bs).length := by rw [List.length_cons, pow_succ, mul_comm]

theorem ofBigEndian_toBigEndian {len n : Nat} (h : n < 256 ^ len) :
    ofBigEndian (toBigEndian len n) = n := by
  induction len generalizing n with
  | zero =>
    have : n = 0 := by simpa using h
    simp [toBigEndian, ofBigEndian, this]
  | succ len ih =>
    have digit : n / 256 ^ len < 256 := by
      rw [Nat.div_lt_iff_lt_mul (Nat.pow_pos (by decide)), ← pow_succ']
      exact h
    have rest : n % 256 ^ len < 256 ^ len := Nat.mod_lt _ (Nat.pow_pos (by decide))
    rw [toBigEndian, ofBigEndian, ih rest, length_toBigEndian, UInt8.toNat_ofNat',
      Nat.mod_eq_of_lt digit, mul_comm]
    exact Nat.div_add_mod n _

theorem toBigEndian_ofBigEndian (bs : Bytes) : toBigEndian bs.length (ofBigEndian bs) = bs := by
  induction bs with
  | nil => rfl
  | cons b bs ih =>
    have lt := ofBigEndian_lt bs
    have digit : (b.toNat * 256 ^ bs.length + ofBigEndian bs) / 256 ^ bs.length = b.toNat := by
      rw [mul_comm, Nat.mul_add_div (Nat.pow_pos (by decide)), Nat.div_eq_of_lt lt, add_zero]
    have rest : (b.toNat * 256 ^ bs.length + ofBigEndian bs) % 256 ^ bs.length =
        ofBigEndian bs := by
      rw [mul_comm, Nat.mul_add_mod, Nat.mod_eq_of_lt lt]
    simp [ofBigEndian, toBigEndian, digit, rest, ih]

def toLittleEndian (len n : Nat) : Bytes := (toBigEndian len n).reverse

def ofLittleEndian (bs : Bytes) : Nat := ofBigEndian bs.reverse

@[simp] theorem length_toLittleEndian (len n : Nat) : (toLittleEndian len n).length = len := by
  simp [toLittleEndian]

theorem ofLittleEndian_toLittleEndian {len n : Nat} (h : n < 256 ^ len) :
    ofLittleEndian (toLittleEndian len n) = n := by
  rw [ofLittleEndian, toLittleEndian, List.reverse_reverse]
  exact ofBigEndian_toBigEndian h

/-- The UTF-8 bytes of a string. -/
def utf8 (s : String) : Bytes := s.toUTF8.data.toList

def strFromUtf8 (raw : Bytes) : Option String := String.fromUTF8? ⟨raw.toArray⟩

theorem strFromUtf8_eq_some {raw : Bytes} {value : String} :
    strFromUtf8 raw = some value ↔ raw = utf8 value := by
  unfold strFromUtf8 String.fromUTF8? utf8
  split
  · simp only [Option.some.injEq]
    constructor
    · rintro rfl
      simp [String.fromUTF8]
    · rintro rfl
      simp [String.fromUTF8]
  · rename_i invalid
    simp only [reduceCtorEq, false_iff]
    rintro rfl
    exact invalid (by simpa using value.isValidUTF8)

/-- How many bytes at an ill-formed start one replacement character stands for. -/
def illFormedLength : Bytes → Nat
  | b0 :: b1 :: rest =>
    let least : UInt8 := if b0 = 0xE0 then 0xA0 else if b0 = 0xF0 then 0x90 else 0x80
    let most : UInt8 := if b0 = 0xED then 0x9F else if b0 = 0xF4 then 0x8F else 0xBF
    if 0xE0 ≤ b0 && b0 ≤ 0xF4 && least ≤ b1 && b1 ≤ most then
      match rest with
      | b2 :: _ => if 0xF0 ≤ b0 && 0x80 ≤ b2 && b2 ≤ 0xBF then 3 else 2
      | [] => 2
    else 1
  | _ => 1

/-- One character, or one replacement character, at a time. -/
def replaceIllFormed : Nat → Bytes → List Char
  | 0, _ => []
  | _, [] => []
  | fuel + 1, bytes =>
    match [1, 2, 3, 4].findSome? fun k => (strFromUtf8 (bytes.take k)).map (·, k) with
    | some (s, k) => s.toList ++ replaceIllFormed fuel (bytes.drop k)
    | none => '\uFFFD' :: replaceIllFormed fuel (bytes.drop (illFormedLength bytes))

/-- `String::from_utf8_lossy`. -/
def fromUtf8Lossy (bytes : Bytes) : String :=
  match strFromUtf8 bytes with
  | some s => s
  | none => String.ofList (replaceIllFormed bytes.length bytes)

@[simp] theorem fromUtf8Lossy_utf8 (s : String) : fromUtf8Lossy (utf8 s) = s := by
  rw [fromUtf8Lossy, strFromUtf8_eq_some.mpr rfl]

theorem utf8_append (s t : String) : utf8 (s ++ t) = utf8 s ++ utf8 t := by
  simp [utf8, String.toUTF8, String.toByteArray_append]

/-- The characters of a text of bytes. -/
def chars (bytes : Bytes) : List Char := (fromUtf8Lossy bytes).toList

@[simp] theorem chars_utf8 (s : String) : chars (utf8 s) = s.toList := by
  rw [chars, fromUtf8Lossy_utf8]

theorem notMem_of_mem_splitOn {α : Type} [BEq α] [LawfulBEq α] {sep : α} {xs piece : List α}
    (h : piece ∈ xs.splitOn sep) : sep ∉ piece := by
  induction xs generalizing piece with
  | nil =>
    simp only [List.splitOn_nil, List.mem_singleton] at h
    simp [h]
  | cons c xs ih =>
    rw [List.splitOn_cons_eq_if_modifyHead] at h
    split at h
    · rcases List.mem_cons.mp h with rfl | h
      · simp
      · exact ih h
    · rename_i other
      obtain ⟨first, rest, pieces⟩ := List.exists_cons_of_ne_nil (List.splitOn_ne_nil sep xs)
      rw [pieces, List.modifyHead_cons] at h
      rw [pieces] at ih
      rcases List.mem_cons.mp h with rfl | h
      · have inner := ih List.mem_cons_self
        simp only [beq_iff_eq] at other
        simp [inner, Ne.symm other]
      · exact ih (List.mem_cons_of_mem _ h)

variable {ε α β : Type} {data : Bytes}

abbrev Reader (ε α : Type) := StateT Nat (Except ε) α

/-- `p` accepts exactly the valid values encoded at the cursor. -/
def Exact (data : Bytes) (p : Reader ε α) (enc : α → Bytes) (valid : α → Prop) : Prop :=
  ∀ i a j, i ≤ data.length →
    (p i = .ok (a, j) ↔ valid a ∧ enc a <+: data.drop i ∧ j = i + (enc a).length)

theorem length_le_of_prefix_drop {enc : Bytes} {i : Nat} (hi : i ≤ data.length)
    (h : enc <+: data.drop i) : i + enc.length ≤ data.length := by
  have := h.length_le
  rw [List.length_drop] at this
  omega

theorem append_prefix_drop {enc next : Bytes} {i : Nat} :
    enc ++ next <+: data.drop i ↔
      enc <+: data.drop i ∧ next <+: data.drop (i + enc.length) := by
  rw [← List.drop_drop]
  constructor
  · rintro ⟨rest, h⟩
    rw [← h]
    exact ⟨⟨next ++ rest, by simp⟩, by simp⟩
  · rintro ⟨⟨rest, h⟩, tail⟩
    rw [← h, List.drop_left] at tail
    obtain ⟨rest', h'⟩ := tail
    exact ⟨rest', by rw [← h, ← h', List.append_assoc]⟩

theorem except_bind_eq_ok {x : Except ε α} {f : α → Except ε β} {b : β} :
    x >>= f = .ok b ↔ ∃ a, x = .ok a ∧ f a = .ok b := by
  cases x <;> simp [Bind.bind, Except.bind]

theorem bind_eq_ok {p : Reader ε α} {f : α → Reader ε β} {i : Nat} {b : β} {k : Nat} :
    (p >>= f) i = .ok (b, k) ↔ ∃ a j, p i = .ok (a, j) ∧ f a j = .ok (b, k) := by
  change (p i >>= fun x => f x.1 x.2) = .ok (b, k) ↔ _
  rw [except_bind_eq_ok]
  simp

theorem Exact.pure {a : α} : Exact (ε := ε) data (Pure.pure a) (fun _ => []) (· = a) := by
  intro i b j _
  change Except.ok (a, i) = Except.ok (b, j) ↔ _
  simp [eq_comm]

/-- A check that reads nothing. -/
def failIf (p : Prop) [Decidable p] (e : ε) : Reader ε Unit :=
  if p then throw e else Pure.pure ()

theorem failIf_eq_ok {p : Prop} [Decidable p] {e : ε} {i j : Nat} :
    failIf p e i = .ok ((), j) ↔ ¬ p ∧ j = i := by
  unfold failIf
  by_cases h : p
  · simp only [h, if_true, not_true_eq_false, false_and, iff_false]
    exact fun h => by cases h
  · simp only [h, if_false, not_false_eq_true, true_and]
    change Except.ok ((), i) = Except.ok ((), j) ↔ _
    simp [eq_comm]

theorem exact_failIf {p : Prop} [Decidable p] {e : ε} :
    Exact data (failIf p e) (fun _ => []) (fun _ => ¬ p) := by
  rintro i ⟨⟩ j -
  simpa using failIf_eq_ok

/-- Readers in sequence. The later value shows what the earlier one was. -/
theorem Exact.bind {p : Reader ε α} {f : α → Reader ε β} {enc : α → Bytes} {valid : α → Prop}
    {g : α → β → Bytes} {w : α → β → Prop} (earlier : β → α)
    (hp : Exact data p enc valid) (hf : ∀ a, valid a → Exact data (f a) (g a) (w a))
    (determined : ∀ a b, valid a → w a b → a = earlier b) :
    Exact data (p >>= f) (fun b => enc (earlier b) ++ g (earlier b) b)
      (fun b => valid (earlier b) ∧ w (earlier b) b) := by
  intro i b k hi
  rw [bind_eq_ok]
  constructor
  · rintro ⟨a, j, first, second⟩
    obtain ⟨va, pa, rfl⟩ := (hp i a j hi).mp first
    obtain ⟨vb, pb, rfl⟩ := (hf a va _ b k (length_le_of_prefix_drop hi pa)).mp second
    obtain rfl := determined a b va vb
    exact ⟨⟨va, vb⟩, append_prefix_drop.mpr ⟨pa, pb⟩, by simp [Nat.add_assoc]⟩
  · rintro ⟨⟨va, vb⟩, whole, rfl⟩
    obtain ⟨pa, pb⟩ := append_prefix_drop.mp whole
    refine ⟨earlier b, i + (enc (earlier b)).length, (hp i _ _ hi).mpr ⟨va, pa, rfl⟩, ?_⟩
    refine (hf _ va _ b _ (length_le_of_prefix_drop hi pa)).mpr ⟨vb, pb, ?_⟩
    simp [Nat.add_assoc]

/-- The same reader, described in other words. -/
theorem Exact.congr {p : Reader ε α} {enc enc' : α → Bytes} {valid valid' : α → Prop}
    (h : Exact data p enc valid) (same : ∀ a, valid a ↔ valid' a)
    (bytes : ∀ a, valid' a → enc a = enc' a) : Exact data p enc' valid' := by
  intro i a j hi
  rw [h i a j hi, same]
  constructor
  · rintro ⟨v, rest⟩
    exact ⟨v, by rwa [bytes a v] at rest⟩
  · rintro ⟨v, rest⟩
    exact ⟨v, by rwa [bytes a v]⟩

end Codec
