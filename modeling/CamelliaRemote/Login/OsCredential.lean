import CamelliaRemote.Lib.MachineInt
import CamelliaRemote.Lib.Runs

/-!
Backoff after wrong OS credentials, `server/login_failure_check.rs`. The state behind one mutex
counts the failures, and forgets them after two hours without one. Both calls tidy it up before
they use it. Where the source would overflow, a call has no result.
-/

namespace CamelliaRemote.Login.OsCredential
open MachineInt

def totalIdleResetMs : Int := 120 * 60 * 1000

def backoffBaseSeconds : Int := 15

def backoffMaxSeconds : Int := 30 * 60

inductive FailureScope where
  | default
  | terminalOsLogin
  deriving DecidableEq, Repr

inductive Alarm where
  | terminalOsLoginBackoff
  deriving DecidableEq, Repr

/-- `OsCredentialPolicyDecision`. -/
structure Decision where
  allowed : Bool
  loginError : Option String
  audit : Option Alarm
  deriving DecidableEq, Repr

/-- `OsCredentialFailureState`. -/
structure FailureState where
  totalFailures : Int := 0
  backoffUntilMs : Option Int := none
  lastFailureMs : Option Int := none
  deriving DecidableEq, Repr

def isOsCredentialScope (scope : FailureScope) : Bool := scope = .terminalOsLogin

def backoffAuditTypeForScope : FailureScope → Option Alarm
  | .terminalOsLogin => some .terminalOsLoginBackoff
  | .default => none

def loginBackoffSeconds (totalFailures : Int) : Int :=
  if totalFailures ≤ 2 then 0
  else
    let exp := min (totalFailures - 3) 7
    let seconds := backoffBaseSeconds * 2 ^ exp.toNat
    min seconds backoffMaxSeconds

def normalizeBackoff (s : FailureState) (nowMs : Int) : FailureState :=
  match s.backoffUntilMs with
  | some untilMs => if untilMs ≤ nowMs then { s with backoffUntilMs := none } else s
  | none => s

def resetTotalsOnIdle (s : FailureState) (nowMs : Int) : FailureState :=
  match s.lastFailureMs with
  | some lastMs => if totalIdleResetMs ≤ saturateI64 (nowMs - lastMs) then {} else s
  | none => s

/-- What both calls do first. -/
def tidy (s : FailureState) (nowMs : Int) : FailureState :=
  normalizeBackoff (resetTotalsOnIdle s nowMs) nowMs

def allowDecision : Decision := ⟨true, none, none⟩

def blockDecision (loginError : String) (alarmType : Option Alarm) : Decision :=
  ⟨false, some loginError, alarmType⟩

def retryText (remainingSeconds : Int) : String :=
  let secondsLabel := if remainingSeconds = 1 then "second" else "seconds"
  s!"Please try again in {remainingSeconds} {secondsLabel}."

/-- `evaluate_os_credential_policy`. -/
def evaluate (s : FailureState) (scope : FailureScope) (nowMs : Int) :
    Option (FailureState × Decision) := do
  if !isOsCredentialScope scope then return (s, allowDecision)
  else
    let s := tidy s nowMs
    match s.backoffUntilMs with
    | some untilMs =>
      let remainingMs := max (← checkI64 (untilMs - nowMs)) 0
      let roundedMs ← checkI64 (remainingMs + 999)
      let remainingSeconds := max (roundedMs / 1000) 1
      return (s, blockDecision (retryText remainingSeconds) (backoffAuditTypeForScope scope))
    | none => return (s, allowDecision)

/-- `record_os_credential_failure` at the clock value `nowMs`. -/
def record (s : FailureState) (scope : FailureScope) (nowMs : Int) : Option FailureState := do
  if !isOsCredentialScope scope then return s
  else
    let s := tidy s nowMs
    let totalFailures := saturateI32 (s.totalFailures + 1)
    let s := { s with totalFailures, lastFailureMs := some nowMs }
    let backoffSeconds := loginBackoffSeconds totalFailures
    if 0 < backoffSeconds then
      let backoffMs ← checkI64 (backoffSeconds * 1000)
      let untilMs ← checkI64 (nowMs + backoffMs)
      return { s with backoffUntilMs := some untilMs }
    else return s

inductive Call where
  | evaluate (scope : FailureScope) (nowMs : Int)
  | record (scope : FailureScope) (nowMs : Int)
  deriving DecidableEq, Repr

def Call.nowMs : Call → Int
  | .evaluate _ nowMs => nowMs
  | .record _ nowMs => nowMs

/-- No state is left after an overflow. -/
def step (s : Option FailureState) (call : Call) : Option FailureState :=
  s.bind fun s =>
    match call with
    | .evaluate scope nowMs => (evaluate s scope nowMs).map Prod.fst
    | .record scope nowMs => record s scope nowMs

def after (calls : List Call) : Option FailureState := Runs.run step (some {}) calls

/-- What an evaluation at `nowMs` after the calls decides. -/
def decisionAfter (calls : List Call) (scope : FailureScope) (nowMs : Int) : Option Decision :=
  ((after calls).bind fun s => evaluate s scope nowMs).map Prod.snd

/-- The times of the failures of OS credentials, the last one first. -/
def failures (calls : List Call) : List Int :=
  (calls.filterMap fun
    | .record .terminalOsLogin nowMs => some nowMs
    | _ => none).reverse

/-- How many failures there are with no gap of two hours. -/
def streak : List Int → Nat
  | [] => 0
  | [_] => 1
  | last :: earlier :: rest =>
    if last - earlier < totalIdleResetMs then streak (earlier :: rest) + 1 else 1

/-- The seconds of waiting after `n` failures. -/
def waitSeconds (n : Nat) : Int := min (15 * 2 ^ min (n - 3) 7) 1800

/-- The end of the waiting, if there is any. -/
def deadline (last : Int) (n : Nat) : Option Int :=
  if 3 ≤ n then some (last + waitSeconds n * 1000) else none

def Blocked (failures : List Int) (nowMs : Int) : Prop :=
  ∃ last, failures.head? = some last ∧ 3 ≤ streak failures ∧
    nowMs < last + waitSeconds (streak failures) * 1000

/-- The calls that are not evaluations. -/
def records (calls : List Call) : List Call :=
  calls.filter fun
    | .record _ _ => true
    | .evaluate _ _ => false

/-- The times do not decrease, and are `i64`s below 2^62. -/
structure Timely (times : List Int) : Prop where
  ordered : times.Pairwise (· ≤ ·)
  bounds : ∀ t ∈ times, -2 ^ 63 ≤ t ∧ t < 2 ^ 62

/-- The end of the waiting, where it is still to come. -/
def openDeadline (failures : List Int) (nowMs : Int) : Option Int :=
  failures.head?.bind fun last => (deadline last (streak failures)).filter fun until' =>
    nowMs < until'

/-- A count that stops at the greatest `i32`. -/
def countI32 (n : Nat) : Int := min (n : Int) (2 ^ 31 - 1)

/-- The state of a call that has tidied up at `nowMs`, from the failures alone. -/
inductive Settled (failures : List Int) (nowMs : Int) : FailureState → Prop where
  | forgotten (idle : ∀ last, failures.head? = some last → totalIdleResetMs ≤ nowMs - last) :
      Settled failures nowMs {}
  | counted (last : Int) (head : failures.head? = some last) (past : last ≤ nowMs)
      (recent : nowMs - last < totalIdleResetMs) :
      Settled failures nowMs
        ⟨countI32 (streak failures), openDeadline failures nowMs, some last⟩

variable {fs : List Int} {now later : Int} {s : FailureState} {calls : List Call}

theorem waitSeconds_bounds (n : Nat) : 0 < waitSeconds n ∧ waitSeconds n ≤ 1800 := by
  have positive : (0 : Int) < 2 ^ min (n - 3) 7 := Int.pow_pos (by decide)
  unfold waitSeconds
  omega

theorem loginBackoffSeconds_eq (n : Nat) :
    loginBackoffSeconds (countI32 n) = if 3 ≤ n then waitSeconds n else 0 := by
  unfold loginBackoffSeconds waitSeconds countI32
  by_cases few : n ≤ 2
  · rw [if_pos (by omega), if_neg (by omega)]
  · have exp : (min (min (n : Int) (2 ^ 31 - 1) - 3) 7).toNat = min (n - 3) 7 := by omega
    rw [if_neg (by omega), if_pos (by omega)]
    simp only [exp]
    rfl

theorem openDeadline_eq_some {until' : Int} :
    openDeadline fs now = some until' ↔
      ∃ last, fs.head? = some last ∧ 3 ≤ streak fs ∧
        until' = last + waitSeconds (streak fs) * 1000 ∧ now < until' := by
  unfold openDeadline deadline
  rw [Option.bind_eq_some_iff]
  constructor
  · rintro ⟨last, head, is⟩
    obtain ⟨is, open'⟩ := Option.filter_eq_some_iff.mp is
    split at is
    · rename_i many
      exact ⟨last, head, many, (Option.some.inj is).symm, of_decide_eq_true open'⟩
    · cases is
  · rintro ⟨last, head, many, rfl, open'⟩
    refine ⟨last, head, Option.filter_eq_some_iff.mpr ⟨?_, decide_eq_true open'⟩⟩
    rw [if_pos many]

theorem blocked_iff : Blocked fs now ↔ ∃ until', openDeadline fs now = some until' := by
  unfold Blocked
  constructor
  · rintro ⟨last, head, many, open'⟩
    exact ⟨_, openDeadline_eq_some.mpr ⟨last, head, many, rfl, open'⟩⟩
  · rintro ⟨until', is⟩
    obtain ⟨last, head, many, rfl, open'⟩ := openDeadline_eq_some.mp is
    exact ⟨last, head, many, open'⟩

theorem openDeadline_later (le : now ≤ later) :
    openDeadline fs later = (openDeadline fs now).filter fun until' => later < until' := by
  unfold openDeadline
  cases fs.head? with
  | none => rfl
  | some last =>
    rw [Option.bind_some, Option.bind_some, Option.filter_filter]
    congr 1
    funext until'
    rw [Bool.eq_iff_iff]
    simp only [decide_eq_true_eq, Bool.and_eq_true]
    omega

theorem normalizeBackoff_eq (s : FailureState) (now : Int) :
    normalizeBackoff s now =
      { s with backoffUntilMs := s.backoffUntilMs.filter fun until' => now < until' } := by
  unfold normalizeBackoff
  cases is : s.backoffUntilMs with
  | none =>
    obtain ⟨total, until', last⟩ := s
    cases is
    rfl
  | some until' =>
    obtain ⟨total, until'', last⟩ := s
    cases is
    by_cases past : until' ≤ now
    · simp [Option.filter_some, past, Int.not_lt.mpr past]
    · simp [Option.filter_some, past, Int.not_le.mp past]

/-- What is settled is settled again at a later time. -/
theorem Settled.tidy (h : Settled fs now s) (le : now ≤ later) :
    Settled fs later (tidy s later) := by
  cases h with
  | forgotten idle =>
    refine .forgotten fun last head => ?_
    have gap := idle last head
    omega
  | counted last head past recent =>
    unfold OsCredential.tidy resetTotalsOnIdle
    simp only
    have gap := le_saturateI64_iff (m := totalIdleResetMs) (n := later - last) (by decide)
      (by decide)
    by_cases idle : totalIdleResetMs ≤ later - last
    · rw [if_pos (gap.mpr idle)]
      refine .forgotten fun last' head' => ?_
      rw [head] at head'
      cases head'
      exact idle
    · rw [if_neg (mt gap.mp idle), normalizeBackoff_eq]
      simp only [← openDeadline_later le]
      exact .counted last head (by omega) (by omega)

/-- What an evaluation decides, from the failures alone. -/
def specifiedDecision (failures : List Int) (nowMs : Int) : Decision :=
  match openDeadline failures nowMs with
  | some untilMs =>
    blockDecision (retryText (max ((untilMs - nowMs + 999) / 1000) 1))
      (some .terminalOsLoginBackoff)
  | none => allowDecision

theorem allowed_specifiedDecision :
    (specifiedDecision fs now).allowed = false ↔ Blocked fs now := by
  rw [blocked_iff]
  unfold specifiedDecision
  cases openDeadline fs now with
  | none => simp [allowDecision]
  | some until' => simp [blockDecision]

/-- The state before a call, which need not be tidy: it becomes settled at every later time. -/
def Ready (failures : List Int) (nowMs : Int) (s : FailureState) : Prop :=
  Settled failures nowMs (tidy s nowMs)

theorem evaluate_eq (h : Ready fs now s) :
    evaluate s .terminalOsLogin now = some (tidy s now, specifiedDecision fs now) := by
  unfold Ready at h
  unfold evaluate
  rw [if_neg (by decide)]
  generalize tidy s now = tidied at h
  cases h with
  | forgotten idle =>
    have none' : openDeadline fs now = none := by
      by_contra some'
      obtain ⟨until', is⟩ := Option.ne_none_iff_exists'.mp some'
      obtain ⟨last, head, -, rfl, open'⟩ := openDeadline_eq_some.mp is
      have gap := idle last head
      have wait := waitSeconds_bounds (streak fs)
      unfold totalIdleResetMs at gap
      omega
    rw [specifiedDecision, none']
    rfl
  | counted last head past recent =>
    unfold specifiedDecision
    cases is : openDeadline fs now with
    | none => rfl
    | some until' =>
      obtain ⟨last', head', -, rfl, open'⟩ := openDeadline_eq_some.mp is
      rw [head] at head'
      cases head'
      have wait := waitSeconds_bounds (streak fs)
      generalize remains : last + waitSeconds (streak fs) * 1000 - now = remaining
      have remaining_bounds : 0 < remaining ∧ remaining ≤ 1800000 := by omega
      have nonneg : max remaining 0 = remaining := by omega
      simp only [Option.bind_eq_bind, remains]
      rw [checkI64_of_bounds (by omega) (by omega), Option.bind_some, nonneg,
        checkI64_of_bounds (by omega) (by omega), Option.bind_some]
      rfl

theorem streak_cons_idle (idle : ∀ last, fs.head? = some last → totalIdleResetMs ≤ now - last) :
    streak (now :: fs) = 1 := by
  cases fs with
  | nil => rfl
  | cons last rest =>
    have gap := idle last rfl
    rw [streak, if_neg (by omega)]

theorem streak_cons_recent {last : Int} (head : fs.head? = some last)
    (recent : now - last < totalIdleResetMs) : streak (now :: fs) = streak fs + 1 := by
  cases fs with
  | nil => cases head
  | cons last' rest =>
    cases head
    rw [streak, if_pos recent]

theorem openDeadline_cons (now : Int) :
    openDeadline (now :: fs) now =
      if 3 ≤ streak (now :: fs) then some (now + waitSeconds (streak (now :: fs)) * 1000)
      else none := by
  have wait := waitSeconds_bounds (streak (now :: fs))
  unfold openDeadline deadline
  rw [List.head?_cons, Option.bind_some]
  split
  · have future : now < now + waitSeconds (streak (now :: fs)) * 1000 := by omega
    rw [Option.filter_some, if_pos (decide_eq_true future)]
  · rfl

/-- What a failure finds when it has tidied up. -/
theorem Settled.counts (h : Settled fs now s) :
    saturateI32 (s.totalFailures + 1) = countI32 (streak (now :: fs)) ∧
      (s.backoffUntilMs = none ∨ 3 ≤ streak (now :: fs)) := by
  cases h with
  | forgotten idle =>
    rw [streak_cons_idle idle]
    exact ⟨rfl, .inl rfl⟩
  | counted last head past recent =>
    rw [streak_cons_recent head recent]
    constructor
    · unfold saturateI32 countI32
      dsimp only
      omega
    · cases is : openDeadline fs now with
      | none => exact .inl rfl
      | some until' =>
        obtain ⟨-, -, many, -⟩ := openDeadline_eq_some.mp is
        exact .inr (by omega)

theorem settled_record (h : Ready fs now s) (low : -2 ^ 63 ≤ now) (high : now < 2 ^ 62) :
    ∃ s', record s .terminalOsLogin now = some s' ∧ Settled (now :: fs) now s' := by
  obtain ⟨total, keeps⟩ := Settled.counts h
  have settled : Settled (now :: fs) now
      ⟨countI32 (streak (now :: fs)), openDeadline (now :: fs) now, some now⟩ :=
    .counted now rfl (Int.le_refl now) (by rw [Int.sub_self]; decide)
  have wait := waitSeconds_bounds (streak (now :: fs))
  refine ⟨_, ?_, settled⟩
  unfold record
  rw [if_neg (by decide)]
  simp only [total, loginBackoffSeconds_eq, openDeadline_cons]
  by_cases many : 3 ≤ streak (now :: fs)
  · rw [if_pos many, if_pos many, if_pos wait.1]
    simp only [Option.bind_eq_bind]
    rw [checkI64_of_bounds (by omega) (by omega), Option.bind_some,
      checkI64_of_bounds (by omega) (by omega), Option.bind_some]
    rfl
  · rw [if_neg many, if_neg many, if_neg (Int.lt_irrefl 0), keeps.resolve_right many]
    rfl

theorem failures_snoc (calls : List Call) (call : Call) :
    failures (calls ++ [call]) =
      match call with
      | .record .terminalOsLogin nowMs => nowMs :: failures calls
      | _ => failures calls := by
  unfold failures
  rw [List.filterMap_append, List.reverse_append]
  match call with
  | .record .terminalOsLogin nowMs => rfl
  | .record .default nowMs => rfl
  | .evaluate scope nowMs => rfl

theorem after_snoc (calls : List Call) (call : Call) :
    after (calls ++ [call]) = step (after calls) call := by
  simp [after]

theorem Timely.front {times : List Int} {t : Int} (h : Timely (times ++ [t])) : Timely times :=
  ⟨(List.pairwise_append.mp h.ordered).1, fun u mem => h.bounds u (List.mem_append_left _ mem)⟩

theorem Timely.last {times : List Int} {t u : Int} (h : Timely (times ++ [t])) (mem : u ∈ times) :
    u ≤ t := (List.pairwise_append.mp h.ordered).2.2 u mem t (List.mem_singleton_self t)

/-- After calls in time there is a state, ready for every later call. -/
theorem ready_after (timely : Timely (calls.map Call.nowMs)) :
    ∃ s, after calls = some s ∧
      ∀ now, (∀ call ∈ calls, call.nowMs ≤ now) → Ready (failures calls) now s := by
  induction calls using List.reverseRecOn with
  | nil => exact ⟨{}, rfl, fun now _ => .forgotten fun last head => by cases head⟩
  | append_singleton calls call ih =>
    rw [List.map_append, List.map_singleton] at timely
    obtain ⟨s, is, ready⟩ := ih timely.front
    have here := ready call.nowMs fun earlier mem => timely.last (List.mem_map_of_mem mem)
    obtain ⟨low, high⟩ := timely.bounds call.nowMs (by simp)
    rw [after_snoc, is, failures_snoc]
    match call with
    | .record .terminalOsLogin nowMs =>
      obtain ⟨s', run, settled⟩ := settled_record here low high
      exact ⟨s', run, fun now later => settled.tidy (later _ (by simp))⟩
    | .record .default nowMs =>
      exact ⟨s, rfl, fun now later => ready now fun earlier mem => later earlier (by simp [mem])⟩
    | .evaluate .terminalOsLogin nowMs =>
      refine ⟨tidy s nowMs, ?_, fun now later => Settled.tidy here (later _ (by simp))⟩
      exact congrArg (Option.map Prod.fst) (evaluate_eq here)
    | .evaluate .default nowMs =>
      exact ⟨s, rfl, fun now later => ready now fun earlier mem => later earlier (by simp [mem])⟩

/-- The decision at a time is a function of the failures before it. -/
theorem decisionAfter_eq (timely : Timely (calls.map Call.nowMs ++ [now])) :
    decisionAfter calls .terminalOsLogin now = some (specifiedDecision (failures calls) now) := by
  obtain ⟨s, is, ready⟩ := ready_after timely.front
  have here := ready now fun call mem => timely.last (List.mem_map_of_mem mem)
  rw [decisionAfter, is, Option.bind_some, evaluate_eq here]
  rfl

/-- The failures are among the calls that are not evaluations. -/
theorem failures_records (calls : List Call) : failures (records calls) = failures calls := by
  unfold failures records
  rw [List.filterMap_filter]
  congr 2
  funext call
  match call with
  | .record .terminalOsLogin nowMs => rfl
  | .record .default nowMs => rfl
  | .evaluate scope nowMs => rfl

/-- **The decisions follow from the failures alone**, and nothing overflows. -/
theorem os_credential_exact (calls : List Call) (now : Int)
    (timely : Timely (calls.map Call.nowMs ++ [now])) :
    (∃ s, after calls = some s) ∧
      ∃ d, decisionAfter calls .terminalOsLogin now = some d ∧
        (d.allowed = false ↔ Blocked (failures calls) now) ∧
        ∀ calls', records calls' = records calls →
          Timely (calls'.map Call.nowMs ++ [now]) →
          decisionAfter calls' .terminalOsLogin now = some d := by
  obtain ⟨s, is, -⟩ := ready_after timely.front
  refine ⟨⟨s, is⟩, _, decisionAfter_eq timely, allowed_specifiedDecision, ?_⟩
  intro calls' same timely'
  rw [decisionAfter_eq timely', ← failures_records calls', same, failures_records]

/-- Three failures in three seconds. -/
def threeFailures : List Call :=
  [.record .terminalOsLogin 1000, .evaluate .terminalOsLogin 1500, .record .terminalOsLogin 2000,
    .record .terminalOsLogin 3000]

theorem threeFailures_timely : Timely (threeFailures.map Call.nowMs ++ [4000]) := by
  constructor <;> decide

theorem os_credential_exact_threeFailures :
    (∃ s, after threeFailures = some s) ∧
      ∃ d, decisionAfter threeFailures .terminalOsLogin 4000 = some d ∧
        (d.allowed = false ↔ Blocked (failures threeFailures) 4000) ∧
        ∀ calls', records calls' = records threeFailures →
          Timely (calls'.map Call.nowMs ++ [4000]) →
          decisionAfter calls' .terminalOsLogin 4000 = some d :=
  os_credential_exact threeFailures 4000 threeFailures_timely

end CamelliaRemote.Login.OsCredential
