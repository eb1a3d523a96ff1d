import CamelliaRemote.Lib.Codec
import CamelliaRemote.Lib.Numerals
import Mathlib.Data.List.DropRight

/-!
Mangled addresses, `flutter/web/js/src/runtime/rendezvous.ts`. `decodeAddrMangle` gives the text
of an address. What the native side makes of an address is `mangle`; it comes from outside the
repository.
-/

namespace CamelliaRemote.Web
open Codec Numerals

/-- A `:`-separated text of 16 bytes, in groups of two. -/
def ipv6Groups : Codec.Bytes → List (List Char)
  | high :: low :: rest =>
    Nat.toDigits 16 ((high.toNat <<< 8) ||| low.toNat) :: ipv6Groups rest
  | _ => []

def ipv6BytesToString (bytes : Codec.Bytes) : List Char := [':'].intercalate (ipv6Groups bytes)

/-- The loop from the last byte to the first. -/
def bytesValue (padded : Codec.Bytes) : Nat :=
  padded.foldr (fun b value => (value <<< 8) ||| b.toNat) 0

def decodeAddrMangle (bytes : Codec.Bytes) : Option (List Char) :=
  if bytes.isEmpty then none
  else if 16 < bytes.length then
    if bytes.length ≠ 18 then none
    else
      let port := (bytes.getD 16 0).toNat ||| ((bytes.getD 17 0).toNat <<< 8)
      if port = 0 ∨ 65535 < port then none
      else some ('[' :: ipv6BytesToString (bytes.take 16) ++ "]:".toList ++ Nat.toDigits 10 port)
  else
    let padded := bytes ++ List.replicate (16 - bytes.length) 0
    let value := bytesValue padded
    let tm := (value >>> 17) &&& 0xffffffff
    let ipRaw := (((value >>> 49 : Nat) - tm : Int).land (0xffffffff : Nat)).toNat
    let portRaw : Int := (value &&& 0xffffff : Nat) - (tm &&& 0xffff : Nat)
    if portRaw ≤ 0 ∨ 65535 < portRaw then none
    else
      let b0 := ipRaw &&& 0xff
      let b1 := (ipRaw >>> 8) &&& 0xff
      let b2 := (ipRaw >>> 16) &&& 0xff
      let b3 := (ipRaw >>> 24) &&& 0xff
      some (['.'].intercalate ([b0, b1, b2, b3].map (Nat.toDigits 10)) ++ ':' ::
        Nat.toDigits 10 portRaw.toNat)

inductive SocketAddr where
  /-- The octets of `ip` are its bytes, the lowest first. -/
  | v4 (ip : UInt32) (port : UInt16)
  | v6 (ip : Codec.Bytes) (length : ip.length = 16) (port : UInt16)

def octets (ip : UInt32) : List Nat :=
  [ip.toNat % 256, ip.toNat / 256 % 256, ip.toNat / 65536 % 256, ip.toNat / 16777216]

/-- The numbers of 16 bits that the bytes are. -/
def segments : Codec.Bytes → List Nat
  | high :: low :: rest => (256 * high.toNat + low.toNat) :: segments rest
  | _ => []

namespace SocketAddr

/-- The text of an address and a port. -/
def text : SocketAddr → List Char
  | v4 ip port =>
    ['.'].intercalate ((octets ip).map (Nat.toDigits 10)) ++ ':' :: Nat.toDigits 10 port.toNat
  | v6 ip _ port =>
    '[' :: [':'].intercalate ((segments ip).map (Nat.toDigits 16)) ++
      ']' :: ':' :: Nat.toDigits 10 port.toNat

end SocketAddr

/-- What the native side makes of an address at a time: the bytes of the number without
the last zeros. -/
def mangle (ip : UInt32) (port : UInt16) (tm : UInt32) : Codec.Bytes :=
  let number := ((ip.toNat + tm.toNat) <<< 49) ||| (tm.toNat <<< 17) |||
    (port.toNat + (tm.toNat &&& 0xffff))
  (toLittleEndian 16 number).rdropWhile (· = 0)

theorem octets_inj {ip ip' : UInt32} (same : octets ip = octets ip') : ip = ip' := by
  have bound := ip.toNat_lt
  have bound' := ip'.toNat_lt
  simp only [octets, List.cons.injEq, and_true] at same
  refine UInt32.toNat_inj.mp ?_
  omega

theorem segments_inj : ∀ {ip ip' : Codec.Bytes}, ip.length = ip'.length → Even ip.length →
    segments ip = segments ip' → ip = ip'
  | [], [], _, _, _ => rfl
  | [_], _, _, odd, _ => by simp at odd
  | high :: low :: rest, high' :: low' :: rest', lengths, even, same => by
    simp only [segments, List.cons.injEq] at same
    have bound := low.toNat_lt
    have bound' := low'.toNat_lt
    have highs : high = high' := UInt8.toNat_inj.mp (by omega)
    have lows : low = low' := UInt8.toNat_inj.mp (by omega)
    have rests : rest = rest' := by
      refine segments_inj (by simpa using lengths) ?_ same.2
      simpa [Nat.even_add_one] using even
    rw [highs, lows, rests]

theorem length_segments : ∀ {ip : Codec.Bytes} {n : Nat},
    ip.length = 2 * n → (segments ip).length = n
  | [], n, length => by
    rw [List.length_nil] at length
    simp only [segments, List.length_nil]
    omega
  | [_], n, length => by
    rw [List.length_singleton] at length
    omega
  | _ :: _ :: rest, n, length => by
    rw [List.length_cons, List.length_cons] at length
    rw [segments, List.length_cons, length_segments (n := n - 1) (by omega)]
    omega

namespace SocketAddr

theorem text_v6_ne_v4 {ip ip' length port port'} :
    (v6 ip length port).text ≠ (v4 ip' port').text := by
  intro same
  have noBracket : '[' ∉ (v4 ip' port').text := by
    rw [text, List.mem_append, List.mem_cons]
    rintro (mem | same | mem)
    · exact notMem_joined (by decide) (by decide) (by decide) (by decide) _ mem
    · cases same
    · exact sep_notMem_toDigits (by decide) (by decide) (by decide) _ mem
  exact noBracket (same ▸ List.mem_cons_self)

/-- A text is the text of one address. -/
theorem text_inj {a b : SocketAddr} (same : a.text = b.text) : a = b := by
  cases a with
  | v4 ip port =>
    cases b with
    | v4 ip' port' =>
      have hosts : ∀ ip, ':' ∉ ['.'].intercalate ((octets ip).map (Nat.toDigits 10)) :=
        fun ip => notMem_joined (by decide) (by decide) (by decide) (by decide) (octets ip)
      obtain ⟨host, ports⟩ := append_sep_inj (hosts ip) (hosts ip') same
      have numbers : octets ip = octets ip' :=
        joined_inj (b := 10) (by decide) (by decide) (by decide) rfl host
      rw [octets_inj numbers,
        UInt16.toNat_inj.mp (toDigits_inj (by decide) (by decide) ports)]
    | v6 ip' length' port' => exact absurd same.symm text_v6_ne_v4
  | v6 ip length port =>
    cases b with
    | v4 ip' port' => exact absurd same text_v6_ne_v4
    | v6 ip' length' port' =>
      have hosts : ∀ ip, ']' ∉ [':'].intercalate ((segments ip).map (Nat.toDigits 16)) :=
        fun ip => notMem_joined (by decide) (by decide) (by decide) (by decide) (segments ip)
      obtain ⟨host, ports⟩ := append_sep_inj (hosts ip) (hosts ip') (List.cons.inj same).2
      have count : (segments ip).length = (segments ip').length :=
        (length_segments (n := 8) length).trans (length_segments (n := 8) length').symm
      have numbers := joined_inj (by decide) (by decide) (by decide) count host
      have ips := segments_inj (length.trans length'.symm) (length ▸ by decide) numbers
      subst ips
      rw [UInt16.toNat_inj.mp (toDigits_inj (by decide) (by decide) (List.cons.inj ports).2)]

end SocketAddr

theorem ipv6Groups_eq : ∀ ip : Codec.Bytes, ipv6Groups ip = (segments ip).map (Nat.toDigits 16)
  | [] => rfl
  | [_] => rfl
  | high :: low :: rest => by
    have joined := Nat.shiftLeft_add_eq_or_of_lt low.toNat_lt high.toNat
    rw [ipv6Groups, segments, List.map_cons, ipv6Groups_eq rest, ← joined, Nat.shiftLeft_eq,
      Nat.mul_comm]

/-- The port of 18 bytes, the lower byte first. -/
def lastPort (bytes : Codec.Bytes) : UInt16 :=
  .ofNat ((bytes.getD 16 0).toNat + 256 * (bytes.getD 17 0).toNat)

theorem toNat_lastPort (bytes : Codec.Bytes) :
    (lastPort bytes).toNat = (bytes.getD 16 0).toNat ||| ((bytes.getD 17 0).toNat <<< 8) := by
  have low := (bytes.getD 16 0).toNat_lt
  have high := (bytes.getD 17 0).toNat_lt
  rw [Nat.or_comm, ← Nat.shiftLeft_add_eq_or_of_lt low, Nat.shiftLeft_eq, lastPort,
    UInt16.toNat_ofNat']
  omega

theorem decode_ipv6 (bytes : Codec.Bytes) (length : bytes.length = 18) :
    decodeAddrMangle bytes = if lastPort bytes = 0 then none
      else some (SocketAddr.v6 (bytes.take 16) (by rw [List.length_take]; omega)
        (lastPort bytes)).text := by
  have some' : bytes.isEmpty = false := by
    cases bytes with
    | nil => cases length
    | cons b bs => rfl
  have zero : lastPort bytes = 0 ↔ (lastPort bytes).toNat = 0 := by
    rw [← UInt16.toNat_inj]
    rfl
  have bound := (lastPort bytes).toNat_lt
  have long : 16 < bytes.length := by omega
  rw [decodeAddrMangle, some', if_neg (by decide), if_pos long, if_neg (not_not_intro length)]
  simp only [← toNat_lastPort]
  by_cases port : lastPort bytes = 0
  · rw [if_pos port, if_pos (.inl (zero.mp port))]
  · have inRange : ¬ ((lastPort bytes).toNat = 0 ∨ 65535 < (lastPort bytes).toNat) := by
      rw [← zero, not_or]
      exact ⟨port, by omega⟩
    rw [if_neg port, if_neg inRange, ipv6BytesToString, ipv6Groups_eq]
    simp [SocketAddr.text]

theorem bytesValue_eq (bytes : Codec.Bytes) : bytesValue bytes = ofLittleEndian bytes := by
  induction bytes with
  | nil => rfl
  | cons b bytes ih =>
    have snoc : ∀ l : Codec.Bytes, ofBigEndian (l ++ [b]) = ofBigEndian l * 256 + b.toNat := by
      intro l
      induction l with
      | nil => simp [ofBigEndian]
      | cons a l ih =>
        simp only [List.cons_append, ofBigEndian, ih, List.length_append, List.length_singleton]
        ring
    have joined := Nat.shiftLeft_add_eq_or_of_lt b.toNat_lt (bytesValue bytes)
    have last : ofLittleEndian (b :: bytes) = ofLittleEndian bytes * 256 + b.toNat := by
      rw [ofLittleEndian, List.reverse_cons, snoc, ofLittleEndian]
    rw [bytesValue, List.foldr_cons, ← bytesValue, ← joined, Nat.shiftLeft_eq, ih, last]

/-- The zeros that were left out are put back. -/
theorem padded_eq (l : Codec.Bytes) :
    l.rdropWhile (· = 0) ++ List.replicate (l.length - (l.rdropWhile (· = 0)).length) 0 = l := by
  have whole := congrArg List.reverse
    (List.takeWhile_append_dropWhile (p := (· = 0)) (l := l.reverse))
  rw [List.reverse_append, List.reverse_reverse] at whole
  have zeros : (l.reverse.takeWhile (· = 0)).reverse =
      List.replicate (l.length - (l.rdropWhile (· = 0)).length) 0 := by
    rw [List.eq_replicate_iff]
    constructor
    · have lengths := congrArg List.length whole
      rw [List.length_append] at lengths
      rw [List.rdropWhile]
      omega
    · intro b mem
      simpa using List.mem_takeWhile_imp (List.mem_reverse.mp mem)
  rw [← zeros]
  exact whole

theorem number_eq (ip : UInt32) (port : UInt16) (tm : UInt32) :
    ((ip.toNat + tm.toNat) <<< 49) ||| (tm.toNat <<< 17) |||
      (port.toNat + (tm.toNat &&& 0xffff)) =
    (ip.toNat + tm.toNat) * 2 ^ 49 + tm.toNat * 2 ^ 17 + (port.toNat + tm.toNat % 2 ^ 16) := by
  have portBound := port.toNat_lt
  have tmBound := tm.toNat_lt
  have low : tm.toNat &&& 0xffff = tm.toNat % 2 ^ 16 := Nat.and_two_pow_sub_one_eq_mod _ 16
  have lowBound : port.toNat + tm.toNat % 2 ^ 16 < 2 ^ 17 := by omega
  have middle := Nat.shiftLeft_add_eq_or_of_lt lowBound tm.toNat
  have middleBound : tm.toNat <<< 17 + (port.toNat + tm.toNat % 2 ^ 16) < 2 ^ 49 := by
    rw [Nat.shiftLeft_eq]
    omega
  have high := Nat.shiftLeft_add_eq_or_of_lt middleBound (ip.toNat + tm.toNat)
  rw [low, Nat.or_assoc, ← middle, ← high, Nat.shiftLeft_eq, Nat.shiftLeft_eq, Nat.add_assoc]

/-- What is read of the bytes is the number. -/
theorem value_mangle (ip : UInt32) (port : UInt16) (tm : UInt32) :
    bytesValue (mangle ip port tm ++ List.replicate (16 - (mangle ip port tm).length) 0) =
      (ip.toNat + tm.toNat) * 2 ^ 49 + tm.toNat * 2 ^ 17 + (port.toNat + tm.toNat % 2 ^ 16) := by
  have ipBound := ip.toNat_lt
  have portBound := port.toNat_lt
  have tmBound := tm.toNat_lt
  have padded := padded_eq (toLittleEndian 16 (((ip.toNat + tm.toNat) <<< 49) |||
    (tm.toNat <<< 17) ||| (port.toNat + (tm.toNat &&& 0xffff))))
  rw [length_toLittleEndian] at padded
  rw [mangle, padded, bytesValue_eq, number_eq]
  refine ofLittleEndian_toLittleEndian ?_
  omega

theorem octet_eq (ip : Nat) (shift : Nat) : (ip >>> shift) &&& 0xff = ip / 2 ^ shift % 256 := by
  rw [Nat.shiftRight_eq_div_pow]
  exact Nat.and_two_pow_sub_one_eq_mod _ 8

/-- The mask of the port is seven bits too wide: they are the lowest of the time. -/
theorem decode_ipv4 (ip : UInt32) (port : UInt16) (tm : UInt32) (some' : port ≠ 0) :
    decodeAddrMangle (mangle ip port tm) =
      if tm.toNat % 128 = 0 then some (SocketAddr.v4 ip port).text else none := by
  have ipBound := ip.toNat_lt
  have portBound := port.toNat_lt
  have tmBound := tm.toNat_lt
  have portPos : 0 < port.toNat := by
    refine Nat.pos_of_ne_zero fun zero => some' ?_
    exact UInt16.toNat_inj.mp zero
  have value := value_mangle ip port tm
  have short : (mangle ip port tm).length ≤ 16 := by
    rw [mangle, ← length_toLittleEndian 16]
    exact (List.rdropWhile_prefix _ _).length_le
  have nonempty : (mangle ip port tm).isEmpty = false := by
    cases bytes : mangle ip port tm with
    | nil =>
      rw [bytes] at value
      have zero : bytesValue (([] : Codec.Bytes) ++
          List.replicate (16 - ([] : Codec.Bytes).length) 0) = 0 := by
        decide
      omega
    | cons b bs => rfl
  generalize mangle ip port tm = bytes at value short nonempty ⊢
  rw [decodeAddrMangle, nonempty, if_neg (by decide), if_neg (by omega)]
  simp only [value]
  generalize number : (ip.toNat + tm.toNat) * 2 ^ 49 + tm.toNat * 2 ^ 17 +
    (port.toNat + tm.toNat % 2 ^ 16) = n
  have time : (n >>> 17) &&& 0xffffffff = tm.toNat := by
    have quotient : n / 2 ^ 17 = (ip.toNat + tm.toNat) * 2 ^ 32 + tm.toNat := by omega
    rw [Nat.shiftRight_eq_div_pow, quotient]
    refine (Nat.and_two_pow_sub_one_eq_mod _ 32).trans ?_
    exact Nat.mul_add_mod_of_lt tmBound
  have sum : n >>> 49 = ip.toNat + tm.toNat := by
    rw [Nat.shiftRight_eq_div_pow]
    omega
  have host : (((n >>> 49 : Nat) - tm.toNat : Int).land (0xffffffff : Nat)).toNat = ip.toNat := by
    rw [sum, show (0xffffffff : Nat) = 2 ^ 32 - 1 from rfl, land_mask]
    omega
  have wide : n &&& 0xffffff = tm.toNat % 128 * 2 ^ 17 + (port.toNat + tm.toNat % 2 ^ 16) := by
    refine (Nat.and_two_pow_sub_one_eq_mod _ 24).trans ?_
    omega
  have narrow : tm.toNat &&& 0xffff = tm.toNat % 2 ^ 16 := Nat.and_two_pow_sub_one_eq_mod _ 16
  rw [time, host, wide, narrow]
  by_cases aligned : tm.toNat % 128 = 0
  · have portRaw : ((tm.toNat % 128 * 2 ^ 17 + (port.toNat + tm.toNat % 2 ^ 16) : Nat) -
        (tm.toNat % 2 ^ 16 : Nat) : Int) = port.toNat := by omega
    rw [if_pos aligned, portRaw, if_neg (by omega)]
    have first : ip.toNat &&& 0xff = ip.toNat % 256 := Nat.and_two_pow_sub_one_eq_mod _ 8
    have last : ip.toNat / 2 ^ 24 % 256 = ip.toNat / 16777216 := by omega
    simp only [SocketAddr.text, octets, octet_eq, first, last, Int.toNat_natCast]
    rfl
  · rw [if_neg aligned, if_pos (by omega)]

/-- **A mangled address is decoded to itself** when the seven lowest bits of the time are
zero; 18 bytes are the address and the port that they hold, if the port is not zero; and
the text says the address and the port. -/
theorem addr_mangle_decoded :
    (∀ (ip : UInt32) (port : UInt16) (tm : UInt32), port ≠ 0 → tm.toNat % 128 = 0 →
      decodeAddrMangle (mangle ip port tm) = some (SocketAddr.v4 ip port).text) ∧
    (∀ bytes : Codec.Bytes, bytes.length = 18 →
      if lastPort bytes = 0 then decodeAddrMangle bytes = none
      else ∃ length, decodeAddrMangle bytes =
        some (SocketAddr.v6 (bytes.take 16) length (lastPort bytes)).text) ∧
    ∀ a b : SocketAddr, a.text = b.text → a = b := by
  refine ⟨fun ip port tm some' aligned => ?_, fun bytes length => ?_,
    fun _ _ => SocketAddr.text_inj⟩
  · rw [decode_ipv4 ip port tm some', if_pos aligned]
  · have decoded := decode_ipv6 bytes length
    split
    · rename_i noPort
      rw [decoded, if_pos noPort]
    · rename_i port
      exact ⟨_, decoded.trans (if_neg port)⟩

theorem addr_mangle_decoded_aligned :
    decodeAddrMangle (mangle 0x04030201 21118 128) = some "1.2.3.4:21118".toList :=
  (addr_mangle_decoded.1 0x04030201 21118 128 (by decide) (by decide)).trans (by decide +kernel)

/-- At a time whose lowest bits are not zero nothing is decoded, nor is a port of zero. -/
theorem addr_mangle_refused :
    decodeAddrMangle (mangle 0x04030201 21118 1) = none ∧
      decodeAddrMangle (List.replicate 18 0) = none := by
  decide +kernel

end CamelliaRemote.Web
