import Mathlib.Logic.Function.Basic
import Mathlib.Tactic.Common

/-!
The failure counters of `server/connection.rs`. `LOGIN_FAILURES[0]` counts wrong passwords and
`LOGIN_FAILURES[1]` wrong second factors. A client is counted under its address and, with an IPv6
address, under its /64, /56 and /48 prefixes too. `ip` is the text of a socket address, so the
address itself stands for it here.
-/

namespace CamelliaRemote.Login

inductive IpAddr where
  | v4 (bits : BitVec 32)
  | v6 (bits : BitVec 128)
  deriving DecidableEq, Repr

/-- A key of the failure maps: the text of an address, or of an address and a
prefix length. -/
inductive FailureKey where
  | ip (addr : IpAddr)
  | net (len : Nat) (bits : BitVec 128)
  deriving DecidableEq, Repr

/-- The minute of the last failure, the failures in that minute, and all of them. -/
structure FailureEntry where
  time : Int := 0
  inMinute : Nat := 0
  total : Nat := 0
  deriving DecidableEq, Repr

abbrev FailureMap := FailureKey → Option FailureEntry

def FailureMap.entry (m : FailureMap) (k : FailureKey) : FailureEntry := (m k).getD {}

def FailureMap.insert (m : FailureMap) (k : FailureKey) (e : FailureEntry) : FailureMap :=
  Function.update m k (some e)

def FailureMap.remove (m : FailureMap) (k : FailureKey) : FailureMap :=
  Function.update m k none

def maskU128 (addr : BitVec 128) (len : Nat) : BitVec 128 :=
  addr &&& (if len = 0 ∨ 128 < len then 0 else BitVec.allOnes 128 <<< (128 - len))

def getIpv6Prefixes : IpAddr → Option (FailureKey × FailureKey × FailureKey)
  | .v4 _ => none
  | .v6 bits =>
    some (.net 64 (maskU128 bits 64), .net 56 (maskU128 bits 56), .net 48 (maskU128 bits 48))

/-- The keys a client is counted under. -/
def failureKeys (ip : IpAddr) : List FailureKey :=
  match getIpv6Prefixes ip with
  | none => [.ip ip]
  | some (p64, p56, p48) => [p64, p56, p48, .ip ip]

def bumpFailureEntry (cur : FailureEntry) (time : Int) : FailureEntry :=
  if cur.time = time then ⟨cur.time, cur.inMinute + 1, cur.total + 1⟩
  else ⟨time, 1, cur.total + 1⟩

def FailureMap.bump (m : FailureMap) (time : Int) (k : FailureKey) : FailureMap :=
  m.insert k (bumpFailureEntry (m.entry k) time)

/-- `update_failure` with the default scope, under one lock. -/
def updateFailure (m : FailureMap) (ip : IpAddr) (failure : FailureEntry) (time : Int)
    (remove : Bool) : FailureMap :=
  if remove then
    if failure.time ≠ 0 then (failureKeys ip).foldl FailureMap.remove m else m
  else (failureKeys ip).foldl (FailureMap.bump · time) m

inductive AlarmAuditType where
  | exceedThirtyAttempts
  | sixAttemptsWithinOneMinute
  | exceedIPv6PrefixAttempts
  deriving DecidableEq, Repr

/-- Why `check_failure` refuses: the login error and the alarm it posts. -/
structure Refusal where
  error : String
  audit : AlarmAuditType
  deriving DecidableEq, Repr

def checkFailureIpv6Prefix (m : FailureMap) (k : FailureKey) (prefixNum thresh : Nat) :
    Option Refusal :=
  if thresh < (m.entry k).total then
    some ⟨s!"Too many wrong attempts for IPv6 prefix /{prefixNum}", .exceedIPv6PrefixAttempts⟩
  else none

def checkFailureIpv6Prefixes (m : FailureMap) (ip : IpAddr) : Option (FailureEntry × Refusal) :=
  match getIpv6Prefixes ip with
  | none => none
  | some (p64, p56, p48) =>
    (checkFailureIpv6Prefix m p64 64 60).map (m.entry p64, ·) <|>
    (checkFailureIpv6Prefix m p56 56 80).map (m.entry p56, ·) <|>
    (checkFailureIpv6Prefix m p48 48 100).map (m.entry p48, ·)

/-- `check_failure` at the clock value `time`: the entry it read, and why it
refuses if it does. -/
def checkFailure (m : FailureMap) (ip : IpAddr) (time : Int) : FailureEntry × Option Refusal :=
  match checkFailureIpv6Prefixes m ip with
  | some (failure, refusal) => (failure, some refusal)
  | none =>
    let failure := m.entry (.ip ip)
    if 30 < failure.total then
      (failure, some ⟨"Too many wrong attempts", .exceedThirtyAttempts⟩)
    else if time = failure.time ∧ 6 < failure.inMinute then
      (failure, some ⟨"Please try 1 minute later", .sixAttemptsWithinOneMinute⟩)
    else (failure, none)

/-- The highest total with which an attempt is still admitted. -/
def limit : FailureKey → Nat
  | .ip _ => 30
  | .net 64 _ => 60
  | .net 56 _ => 80
  | .net _ _ => 100

theorem failureKeys_nodup (ip : IpAddr) : (failureKeys ip).Nodup := by
  cases ip <;> simp [failureKeys, getIpv6Prefixes]

theorem ip_mem_failureKeys {a ip : IpAddr} : .ip a ∈ failureKeys ip ↔ a = ip := by
  cases ip <;> simp [failureKeys, getIpv6Prefixes]

theorem foldl_remove (ks : List FailureKey) (m : FailureMap) (k : FailureKey) :
    ks.foldl FailureMap.remove m k = if k ∈ ks then none else m k := by
  induction ks generalizing m with
  | nil => simp
  | cons j ks ih =>
    simp only [List.foldl_cons, ih, FailureMap.remove, List.mem_cons, Function.update_apply]
    by_cases hk : k ∈ ks
    · simp [hk]
    · by_cases hj : k = j <;> simp [hk, hj]

theorem foldl_bump {ks : List FailureKey} (nodup : ks.Nodup) (m : FailureMap) (time : Int)
    (k : FailureKey) :
    ks.foldl (FailureMap.bump · time) m k =
      if k ∈ ks then some (bumpFailureEntry (m.entry k) time) else m k := by
  induction ks generalizing m with
  | nil => simp
  | cons j ks ih =>
    obtain ⟨absent, nodup⟩ := List.nodup_cons.mp nodup
    rw [List.foldl_cons, ih nodup]
    by_cases hj : k = j
    · subst hj
      simp [absent, FailureMap.bump, FailureMap.insert]
    · simp [hj, FailureMap.bump, FailureMap.insert, FailureMap.entry]

theorem updateFailure_bump (m : FailureMap) (ip : IpAddr) (failure : FailureEntry) (time : Int)
    (k : FailureKey) :
    updateFailure m ip failure time false k =
      if k ∈ failureKeys ip then some (bumpFailureEntry (m.entry k) time) else m k := by
  simp [updateFailure, foldl_bump (failureKeys_nodup ip)]

theorem updateFailure_remove (m : FailureMap) (ip : IpAddr) (failure : FailureEntry) (time : Int)
    (k : FailureKey) :
    updateFailure m ip failure time true k =
      if k ∈ failureKeys ip ∧ failure.time ≠ 0 then none else m k := by
  by_cases h : failure.time = 0 <;> simp [updateFailure, h, foldl_remove]

theorem checkFailureIpv6Prefix_eq_none {m : FailureMap} {k : FailureKey} {num thresh : Nat} :
    checkFailureIpv6Prefix m k num thresh = none ↔ (m.entry k).total ≤ thresh := by
  simp [checkFailureIpv6Prefix]

theorem checkFailureIpv6Prefixes_eq_none {m : FailureMap} {ip : IpAddr} :
    checkFailureIpv6Prefixes m ip = none ↔
      ∀ len bits, .net len bits ∈ failureKeys ip →
        (m.entry (.net len bits)).total ≤ limit (.net len bits) := by
  cases ip with
  | v4 => simp [checkFailureIpv6Prefixes, failureKeys, getIpv6Prefixes]
  | v6 bits =>
    simp [checkFailureIpv6Prefixes, failureKeys, getIpv6Prefixes, checkFailureIpv6Prefix_eq_none,
      or_imp, forall_and, limit]

/-- `check_failure` admits an attempt only while every key of the client is
within its limit and the minute of its address is not used up. -/
theorem checkFailure_admits {m : FailureMap} {ip : IpAddr} {time : Int} {failure : FailureEntry}
    (h : checkFailure m ip time = (failure, none)) :
    (∀ k ∈ failureKeys ip, (m.entry k).total ≤ limit k) ∧
      (time = (m.entry (.ip ip)).time → (m.entry (.ip ip)).inMinute ≤ 6) := by
  unfold checkFailure at h
  split at h
  · simp at h
  · rename_i nets
    simp only at h
    split at h
    · simp at h
    · rename_i total
      split at h
      · simp at h
      · rename_i minute
        refine ⟨fun k hk => ?_, fun same => ?_⟩
        · cases k with
          | ip a =>
            cases ip_mem_failureKeys.mp hk
            simpa [limit] using total
          | net len bits => exact checkFailureIpv6Prefixes_eq_none.mp nets len bits hk
        · simpa [same] using minute

end CamelliaRemote.Login
