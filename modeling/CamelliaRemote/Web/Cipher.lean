import CamelliaRemote.Lib.Codec
import CamelliaRemote.Protocol
import Mathlib.Algebra.Ring.Int.Defs

/-!
The cipher of a web session, `flutter/web/js/src/runtime/crypto.ts`. A `SecretBoxCipher` counts
the frames that it seals and those that it opens, and the count is the nonce. A frame of at most
one byte is not opened but passed on.
-/

namespace CamelliaRemote.Web
open Codec

/-- `nacl.secretbox` under one key. -/
structure SecretBox where
  secretbox : (payload nonce : Bytes) → Bytes
  length_secretbox : ∀ payload nonce, (secretbox payload nonce).length = payload.length + 16
  /-- What is sealed can be opened to one thing only. -/
  secretbox_inj : ∀ nonce m m', secretbox m nonce = secretbox m' nonce → m = m'

/-- A number of JavaScript stops counting at 2^53. -/
def increment (seq : Nat) : Nat := if seq < 2 ^ 53 then seq + 1 else seq

structure SecretBoxCipher where
  sendSeq : Nat := 0
  recvSeq : Nat := 0
  deriving DecidableEq, Repr

def makeNonce (seq : Nat) : Bytes := toLittleEndian 8 seq ++ List.replicate 16 0

namespace SecretBoxCipher

def encrypt (box : SecretBox) (c : SecretBoxCipher) (payload : Bytes) : SecretBoxCipher × Bytes :=
  let c := { c with sendSeq := increment c.sendSeq }
  (c, box.secretbox payload (makeNonce c.sendSeq))

/-- `secretbox.open` is given; `none` is the error. -/
def decrypt (openBox : Bytes → Bytes → Option Bytes) (c : SecretBoxCipher) (payload : Bytes) :
    SecretBoxCipher × Option Bytes :=
  if payload.length ≤ 1 then (c, some payload)
  else
    let c := { c with recvSeq := increment c.recvSeq }
    (c, openBox payload (makeNonce c.recvSeq))

end SecretBoxCipher

/-- Numbers that fit eight bytes have nonces of their own. -/
theorem makeNonce_inj {m n : Nat} (hm : m < 2 ^ 64) (hn : n < 2 ^ 64)
    (same : makeNonce m = makeNonce n) : m = n := by
  have digits : toLittleEndian 8 m = toLittleEndian 8 n :=
    List.append_cancel_right same
  rw [← ofLittleEndian_toLittleEndian (show m < 256 ^ 8 by omega),
    ← ofLittleEndian_toLittleEndian (show n < 256 ^ 8 by omega), digits]

end CamelliaRemote.Web
