import CamelliaRemote.Lib.Codec

namespace Utf16
open Codec

def encodeChar (c : Char) : List Nat :=
  if c.toNat < 0x10000 then [c.toNat]
  else [0xD800 + (c.toNat - 0x10000) / 0x400, 0xDC00 + (c.toNat - 0x10000) % 0x400]

def encodeUnits (cs : List Char) : List Nat := cs.flatMap encodeChar

def unitBytes (unit : Nat) : Bytes := toLittleEndian 2 unit

/-- The UTF-16LE bytes of a text. -/
def encode (cs : List Char) : Bytes := (encodeUnits cs).flatMap unitBytes

def isHigh (unit : Nat) : Bool := 0xD800 ≤ unit && unit < 0xDC00

def isLow (unit : Nat) : Bool := 0xDC00 ≤ unit && unit < 0xE000

def decodeUnits : List Nat → Option (List Char)
  | [] => some []
  | unit :: units =>
    if isHigh unit then
      match units with
      | [] => none
      | low :: units =>
        if isLow low then
          (decodeUnits units).map
            (Char.ofNat (0x10000 + (unit - 0xD800) * 0x400 + (low - 0xDC00)) :: ·)
        else none
    else if isLow unit then none
    else (decodeUnits units).map (Char.ofNat unit :: ·)

def units : Bytes → Option (List Nat)
  | [] => some []
  | [_] => none
  | low :: high :: rest => (units rest).map (ofLittleEndian [low, high] :: ·)

def decode (bytes : Bytes) : Option (List Char) := (units bytes).bind decodeUnits

theorem encodeUnits_append (cs ds : List Char) :
    encodeUnits (cs ++ ds) = encodeUnits cs ++ encodeUnits ds := by
  simp [encodeUnits]

theorem encode_append (cs ds : List Char) : encode (cs ++ ds) = encode cs ++ encode ds := by
  simp [encode, encodeUnits_append]

theorem length_flatMap_unitBytes (us : List Nat) :
    (us.flatMap unitBytes).length = 2 * us.length := by
  induction us with
  | nil => rfl
  | cons u us ih =>
    rw [List.flatMap_cons, List.length_append, ih]
    simp only [unitBytes, length_toLittleEndian, List.length_cons]
    omega

theorem length_encode (cs : List Char) : (encode cs).length = 2 * (encodeUnits cs).length :=
  length_flatMap_unitBytes _

/-- NUL characters are zero bytes. -/
theorem encode_replicate_nul (n : Nat) :
    encode (List.replicate n '\x00') = List.replicate (2 * n) 0 := by
  induction n with
  | zero => rfl
  | succ n ih =>
    have first : encode ['\x00'] = [0, 0] := by decide
    rw [List.replicate_succ', encode_append, first, ih, Nat.mul_add]
    simp [List.replicate_succ']

theorem toNat_valid (c : Char) : c.toNat < 0xD800 ∨ 0xDFFF < c.toNat ∧ c.toNat < 0x110000 :=
  c.valid

theorem encodeChar_lt (c : Char) : ∀ unit ∈ encodeChar c, unit < 0x10000 := by
  have valid := toNat_valid c
  intro unit mem
  unfold encodeChar at mem
  split at mem
  · simp only [List.mem_singleton] at mem
    omega
  · simp only [List.mem_cons, List.not_mem_nil, or_false] at mem
    omega

theorem decodeUnits_encodeChar (c : Char) (us : List Nat) :
    decodeUnits (encodeChar c ++ us) = (decodeUnits us).map (c :: ·) := by
  have valid := toNat_valid c
  unfold encodeChar
  by_cases small : c.toNat < 0x10000
  · have notHigh : isHigh c.toNat = false := by
      simp only [isHigh, Bool.and_eq_false_iff, decide_eq_false_iff_not]
      omega
    have notLow : isLow c.toNat = false := by
      simp only [isLow, Bool.and_eq_false_iff, decide_eq_false_iff_not]
      omega
    rw [if_pos small, List.singleton_append, decodeUnits.eq_def]
    simp [notHigh, notLow]
  · have high : isHigh (0xD800 + (c.toNat - 0x10000) / 0x400) = true := by
      simp only [isHigh, Bool.and_eq_true, decide_eq_true_eq]
      omega
    have low : isLow (0xDC00 + (c.toNat - 0x10000) % 0x400) = true := by
      simp only [isLow, Bool.and_eq_true, decide_eq_true_eq]
      omega
    have joined : 0x10000 + (0xD800 + (c.toNat - 0x10000) / 0x400 - 0xD800) * 0x400 +
        (0xDC00 + (c.toNat - 0x10000) % 0x400 - 0xDC00) = c.toNat := by
      omega
    rw [if_neg small, List.cons_append, List.singleton_append, decodeUnits.eq_def]
    simp only [high, low, if_true, joined, Char.ofNat_toNat]

theorem decodeUnits_encodeUnits (cs : List Char) : decodeUnits (encodeUnits cs) = some cs := by
  induction cs with
  | nil => rfl
  | cons c cs ih =>
    have split : encodeUnits (c :: cs) = encodeChar c ++ encodeUnits cs := by simp [encodeUnits]
    rw [split, decodeUnits_encodeChar, ih]
    rfl

theorem units_flatMap {us : List Nat} (fits : ∀ u ∈ us, u < 0x10000) :
    units (us.flatMap unitBytes) = some us := by
  induction us with
  | nil => rfl
  | cons u us ih =>
    obtain ⟨low, high, two⟩ : ∃ low high, unitBytes u = [low, high] :=
      List.length_eq_two.mp (length_toLittleEndian 2 u)
    have value : ofLittleEndian [low, high] = u := by
      rw [← two]
      exact ofLittleEndian_toLittleEndian (fits u List.mem_cons_self)
    rw [List.flatMap_cons, two, List.cons_append, List.singleton_append, units,
      ih fun u mem => fits u (List.mem_cons_of_mem _ mem), value]
    rfl

/-- **Every text survives UTF-16.** -/
theorem decode_encode (cs : List Char) : decode (encode cs) = some cs := by
  have fits : ∀ u ∈ encodeUnits cs, u < 0x10000 := by
    intro u mem
    obtain ⟨c, -, mem⟩ := List.mem_flatMap.mp mem
    exact encodeChar_lt c u mem
  rw [decode, encode, units_flatMap fits]
  exact decodeUnits_encodeUnits cs

end Utf16
