import Std.Data.ExtTreeMap
import CamelliaRemote.Lib.Runs
import CamelliaRemote.Lib.TreeMaps
import CamelliaRemote.Login.Failures

namespace CamelliaRemote.Login
open Std (ExtTreeMap)
open Runs

/-- What follows an admitted `check_failure(0)`: the password is validated, or,
on headless Linux, the system login has failed already. -/
inductive AttemptKind where
  | password
  | headlessLogin
  deriving DecidableEq, Repr

/-- An attempt between its check and its update, with what the check returned. -/
structure Attempt where
  ip : IpAddr
  kind : AttemptKind
  failure : FailureEntry
  time : Int
  /-- What `validate_password` answered. -/
  outcome : Option Bool := none
  deriving DecidableEq, Repr

/-- The validations of the run, each in the minute it is made, and the clearings. -/
inductive Record where
  | validated (ip : IpAddr) (minute : Int) (right : Bool)
  | cleared (ip : IpAddr)
  deriving DecidableEq, Repr

structure World where
  failures : FailureMap := fun _ => none
  /-- `get_time() / 60000`. -/
  minute : Int := 0
  attempts : ExtTreeMap Int Attempt := ∅
  records : List Record := []

inductive Event where
  | clock (minute : Int)
  | check (id : Int) (ip : IpAddr) (kind : AttemptKind)
  | validate (id : Int) (right : Bool)
  | update (id : Int)
  deriving DecidableEq, Repr

namespace World

def check (s : World) (id : Int) (ip : IpAddr) (kind : AttemptKind) : World :=
  match checkFailure s.failures ip s.minute with
  | (_, some _) => s
  | (failure, none) =>
    { s with attempts := s.attempts.insert id { ip, kind, failure, time := s.minute } }

def validate (s : World) (id : Int) (a : Attempt) (right : Bool) : World :=
  { s with
    attempts := s.attempts.insert id { a with outcome := some right }
    records := s.records ++ [Record.validated a.ip s.minute right] }

def update (s : World) (id : Int) (a : Attempt) (remove : Bool) : World :=
  { s with
    attempts := s.attempts.erase id
    failures := updateFailure s.failures a.ip a.failure a.time remove
    records :=
      if remove ∧ a.failure.time ≠ 0 then s.records ++ [Record.cleared a.ip] else s.records }

/-- A connection makes one attempt at a time. -/
def step (s : World) : Event → World
  | .clock minute => { s with minute }
  | .check id ip kind => if (s.attempts[id]?).isSome then s else s.check id ip kind
  | .validate id right =>
    match s.attempts[id]? with
    | some a =>
      if a.kind = .password ∧ a.outcome = none then s.validate id a right else s
    | none => s
  | .update id =>
    match s.attempts[id]? with
    | some a =>
      match a.kind, a.outcome with
      | .headlessLogin, _ => s.update id a false
      | .password, some right => s.update id a right
      | .password, none => s
    | none => s

end World

/-! ## Counting -/

/-- How many records count, since the last one that resets. -/
def countSince (counts resets : Record → Bool) (rs : List Record) : Nat :=
  rs.foldl (fun n r => if resets r then 0 else if counts r then n + 1 else n) 0

@[simp] theorem countSince_snoc (counts resets : Record → Bool) (rs : List Record) (r : Record) :
    countSince counts resets (rs ++ [r]) =
      if resets r then 0
      else if counts r then countSince counts resets rs + 1
      else countSince counts resets rs := by
  simp [countSince]

/-- A wrong password of a client that is counted under `k`. -/
def wrongUnder (k : FailureKey) : Record → Bool
  | .validated ip _ right => !right && k ∈ failureKeys ip
  | .cleared _ => false

/-- A successful login from the address. -/
def successFrom (ip : IpAddr) : Record → Bool
  | .validated j _ right => right && j = ip
  | .cleared _ => false

/-- A success that cleared the entry of `k`. -/
def clears (k : FailureKey) : Record → Bool
  | .validated _ _ _ => false
  | .cleared ip => k ∈ failureKeys ip

/-- The wrong passwords validated from an address since its last success. -/
def wrongSinceSuccess (ip : IpAddr) (rs : List Record) : Nat :=
  countSince (wrongUnder (.ip ip)) (successFrom ip) rs

/-- A wrong password validated from the address in the minute. -/
def wrongAt (ip : IpAddr) (minute : Int) : Record → Bool
  | .validated j time right => !right && j = ip && time = minute
  | .cleared _ => false

/-- The wrong passwords validated from an address within one clock minute. -/
def wrongInMinute (ip : IpAddr) (minute : Int) (rs : List Record) : Nat :=
  rs.countP (wrongAt ip minute)

/-- Those of them since the last success, which the entry of the address counts. -/
def wrongInMinuteSince (ip : IpAddr) (minute : Int) (rs : List Record) : Nat :=
  countSince (wrongAt ip minute) (successFrom ip) rs

/-- A success followed a wrong password of the minute: it removes the entry, and
the count of the minute with it. -/
def forgets (ip : IpAddr) (minute : Int) : List Record → Bool
  | [] => false
  | r :: rs => wrongAt ip minute r && rs.any (successFrom ip) || forgets ip minute rs

theorem forgets_snoc (ip : IpAddr) (minute : Int) (rs : List Record) (r : Record) :
    forgets ip minute (rs ++ [r]) =
      (forgets ip minute rs || rs.any (wrongAt ip minute) && successFrom ip r) := by
  induction rs with
  | nil => simp [forgets]
  | cons q rs ih =>
    simp only [List.cons_append, forgets, ih, List.any_append, List.any_cons, List.any_nil]
    cases wrongAt ip minute q <;> cases rs.any (successFrom ip) <;>
      cases forgets ip minute rs <;> cases rs.any (wrongAt ip minute) <;>
      cases successFrom ip r <;> rfl

/-- The wrong passwords validated under a key since a success cleared it. -/
def wrongSinceCleared (k : FailureKey) (rs : List Record) : Nat :=
  countSince (wrongUnder k) (clears k) rs

/-- No attempt begins while one that shares a key with it is under way, and the
clock does not go back. -/
def Orderly (s : World) : Event → Prop
  | .clock minute => s.minute ≤ minute
  | .check _ ip _ => ∀ a ∈ s.attempts.toList, ∀ k ∈ failureKeys ip, k ∉ failureKeys a.2.ip
  | .validate _ _ | .update _ => True

instance (s : World) : ∀ e, Decidable (Orderly s e)
  | .clock _ => inferInstanceAs (Decidable (_ ≤ _))
  | .check _ _ _ => inferInstanceAs (Decidable (∀ a ∈ s.attempts.toList, _))
  | .validate _ _ | .update _ => inferInstanceAs (Decidable True)

/-- An attempt is validated in the minute of its check, and none begins from an
address whose guesses of the minute a success has removed. -/
def Prompt (s : World) : Event → Prop
  | .check _ ip _ => forgets ip s.minute s.records = false
  | .validate id _ => ∀ a ∈ s.attempts[id]?, a.time = s.minute
  | .clock _ | .update _ => True

instance (s : World) : ∀ e, Decidable (Prompt s e)
  | .check _ _ _ => inferInstanceAs (Decidable (_ = _))
  | .validate id _ => inferInstanceAs (Decidable (∀ a ∈ s.attempts[id]?, _))
  | .clock _ | .update _ => inferInstanceAs (Decidable True)

/-! ## What an orderly step does -/

/-- The change an orderly step makes. -/
inductive Change (s : World) : Event → World → Prop where
  | none (e : Event) : Change s e s
  | clock (minute : Int) : s.minute ≤ minute → Change s (.clock minute) { s with minute }
  | check (id : Int) (ip : IpAddr) (kind : AttemptKind) (failure : FailureEntry) :
    s.attempts[id]? = .none → checkFailure s.failures ip s.minute = (failure, .none) →
    (∀ (j : Int) b, s.attempts[j]? = some b → ∀ k ∈ failureKeys ip, k ∉ failureKeys b.ip) →
    Change s (.check id ip kind)
      { s with attempts := s.attempts.insert id { ip, kind, failure, time := s.minute } }
  | validate (id : Int) (a : Attempt) (right : Bool) : s.attempts[id]? = some a →
    a.outcome = .none → Change s (.validate id right) (s.validate id a right)
  | update (id : Int) (a : Attempt) (remove : Bool) : s.attempts[id]? = some a →
    (remove = true → a.outcome = some true) → Change s (.update id) (s.update id a remove)

theorem step_change (s : World) (e : Event) (ok : Orderly s e) : Change s e (s.step e) := by
  cases e with
  | clock minute => exact .clock minute ok
  | check id ip kind =>
    simp only [World.step]
    split
    · exact .none _
    · rename_i free
      unfold World.check
      split
      · exact .none _
      · rename_i failure admitted
        refine .check id ip kind failure (by simpa using free) admitted fun j b hj => ?_
        exact ok (j, b) (ExtTreeMap.mem_toList_iff_getElem?_eq_some.mpr hj)
  | validate id right =>
    simp only [World.step]
    split
    · rename_i a found
      split
      · rename_i pending
        exact .validate id a right found pending.2
      · exact .none _
    · exact .none _
  | update id =>
    simp only [World.step]
    split
    · rename_i a found
      split
      · exact .update id a false found (by simp)
      · rename_i right _ outcome
        exact .update id a right found (by rintro rfl; exact outcome)
      · exact .none _
    · exact .none _

/-! ## Attempts that share a key do not overlap -/

def Apart (s : World) : Prop :=
  ∀ (i j : Int) a b, s.attempts[i]? = some a → s.attempts[j]? = some b →
    ∀ k, k ∈ failureKeys a.ip → k ∈ failureKeys b.ip → i = j

theorem change_apart {s t : World} {e : Event} (h : Apart s) (step : Change s e t) :
    Apart t := by
  cases step with
  | none => exact h
  | clock => exact h
  | check id ip kind failure free admitted fresh =>
    intro i j a b hi hj k ha hb
    rcases TreeMaps.of_insert hi with ⟨rfl, rfl⟩ | ⟨-, old⟩ <;>
      rcases TreeMaps.of_insert hj with ⟨rfl, rfl⟩ | ⟨-, old'⟩
    · rfl
    · exact absurd hb (fresh j b old' k ha)
    · exact absurd ha (fresh i a old k hb)
    · exact h i j a b old old' k ha hb
  | validate id c right found =>
    intro i j a b hi hj k ha hb
    rcases TreeMaps.of_insert hi with ⟨rfl, rfl⟩ | ⟨-, old⟩ <;>
      rcases TreeMaps.of_insert hj with ⟨rfl, rfl⟩ | ⟨-, old'⟩
    · rfl
    · exact h i j c b found old' k ha hb
    · exact h i j a c old found k ha hb
    · exact h i j a b old old' k ha hb
  | update id c remove found =>
    intro i j a b hi hj
    exact h i j a b (TreeMaps.of_erase hi).2 (TreeMaps.of_erase hj).2

/-! ## One key -/

/-- Whether a record concerns the clients counted under `k`. -/
def touches (k : FailureKey) : Record → Bool
  | .validated ip _ _ | .cleared ip => k ∈ failureKeys ip

/-- A way to start the count of `k` anew: at its own records only, and at every
success under `k` by the time that success has cleared the entry. -/
structure Resets (k : FailureKey) (resets : Record → Bool) : Prop where
  own : ∀ r, resets r = true → touches k r = true
  success : ∀ ip time, k ∈ failureKeys ip →
    resets (.validated ip time true) = true ∨ resets (.cleared ip) = true

theorem successFrom_resets (ip : IpAddr) : Resets (.ip ip) (successFrom ip) := by
  constructor
  · rintro (⟨j, time, right⟩ | j) h
    · simp only [successFrom, Bool.and_eq_true, decide_eq_true_eq] at h
      simp [touches, ip_mem_failureKeys, h.2]
    · simp [successFrom] at h
  · intro j time hj
    simp [successFrom, (ip_mem_failureKeys.mp hj).symm]

theorem clears_resets (k : FailureKey) : Resets k (clears k) := by
  constructor
  · rintro (⟨j, time, right⟩ | j) h
    · simp [clears] at h
    · simpa [clears, touches] using h
  · intro j time hj
    simp [clears, hj]

theorem countSince_untouched {k : FailureKey} {resets : Record → Bool} (hr : Resets k resets)
    (rs : List Record) {r : Record} (h : touches k r = false) :
    countSince (wrongUnder k) resets (rs ++ [r]) = countSince (wrongUnder k) resets rs := by
  have none : resets r = false := by
    by_contra found
    simp [hr.own r (by simpa using found)] at h
  have right : wrongUnder k r = false := by
    cases r <;> simp_all [wrongUnder, touches]
  simp [none, right]

/-- The counter of `k` covers the wrong passwords validated under `k`, but for
those of the attempt under way, which `check_failure` admitted. -/
structure Counted (k : FailureKey) (resets : Record → Bool) (s : World) : Prop where
  total : (s.failures.entry k).total ≤ limit k + 1
  admitted : ∀ (id : Int) a, s.attempts[id]? = some a → k ∈ failureKeys a.ip →
    (s.failures.entry k).total ≤ limit k
  count : countSince (wrongUnder k) resets s.records ≤ (s.failures.entry k).total ∨
    countSince (wrongUnder k) resets s.records ≤ (s.failures.entry k).total + 1 ∧
      ∃ (id : Int) (a : Attempt), s.attempts[id]? = some a ∧ k ∈ failureKeys a.ip ∧
        a.outcome = some false
  right : ∀ (id : Int) a, s.attempts[id]? = some a → k ∈ failureKeys a.ip →
    a.outcome = some true →
      countSince (wrongUnder k) resets s.records = 0 ∨ resets (.cleared a.ip) = true

theorem Counted.settled {k : FailureKey} {resets : Record → Bool} {s : World}
    (h : Counted k resets s) (apart : Apart s) {id : Int} {a : Attempt}
    (found : s.attempts[id]? = some a) (mem : k ∈ failureKeys a.ip) (ok : a.outcome ≠ some false) :
    countSince (wrongUnder k) resets s.records ≤ (s.failures.entry k).total := by
  rcases h.count with count | ⟨-, j, b, hj, hb, wrong⟩
  · exact count
  · cases apart id j a b found hj k mem hb
    rw [found] at hj
    cases hj
    exact absurd wrong ok

theorem check_counted {k : FailureKey} {resets : Record → Bool} {s : World}
    (h : Counted k resets s) (id : Int) {ip : IpAddr} (kind : AttemptKind)
    {failure : FailureEntry} (admitted : checkFailure s.failures ip s.minute = (failure, none))
    (free : s.attempts[id]? = none) :
    Counted k resets
      { s with attempts := s.attempts.insert id { ip, kind, failure, time := s.minute } } := by
  refine ⟨h.total, ?_, ?_, ?_⟩
  · intro j b hj hb
    rcases TreeMaps.of_insert hj with ⟨rfl, rfl⟩ | ⟨-, old⟩
    · exact (checkFailure_admits admitted).1 k hb
    · exact h.admitted j b old hb
  · rcases h.count with count | ⟨count, j, b, hj, rest⟩
    · exact .inl count
    · exact .inr ⟨count, j, b, TreeMaps.insert_of_absent free hj, rest⟩
  · intro j b hj hb outcome
    rcases TreeMaps.of_insert hj with ⟨rfl, rfl⟩ | ⟨-, old⟩
    · simp at outcome
    · exact h.right j b old hb outcome

theorem validate_counted {k : FailureKey} {resets : Record → Bool} (hr : Resets k resets)
    {s : World} (h : Counted k resets s) (apart : Apart s) {id : Int} {a : Attempt}
    (found : s.attempts[id]? = some a) (pending : a.outcome = none) (right : Bool) :
    Counted k resets (s.validate id a right) := by
  have admitted : ∀ (j : Int) b, (s.validate id a right).attempts[j]? = some b →
      k ∈ failureKeys b.ip → (s.failures.entry k).total ≤ limit k := by
    intro j b hj hb
    rcases TreeMaps.of_insert hj with ⟨rfl, rfl⟩ | ⟨-, old⟩
    · exact h.admitted j a found hb
    · exact h.admitted j b old hb
  by_cases mem : k ∈ failureKeys a.ip
  · have settled := h.settled apart found mem (by simp [pending])
    refine ⟨h.total, admitted, ?_, ?_⟩
    · cases right with
      | true =>
        refine .inl ?_
        simp only [World.validate, countSince_snoc, wrongUnder]
        split
        · exact Nat.zero_le _
        · simpa using settled
      | false =>
        refine .inr ⟨?_, id, { a with outcome := some false }, ?_, mem, rfl⟩
        · simp only [World.validate, countSince_snoc]
          split
          · exact Nat.zero_le _
          · split <;> omega
        · simp [World.validate]
    · intro j b hj hb outcome
      rcases TreeMaps.of_insert hj with ⟨rfl, rfl⟩ | ⟨other, old⟩
      · cases right with
        | false => simp at outcome
        | true =>
          rcases hr.success a.ip s.minute mem with now | later
          · exact .inl (by simp [World.validate, now])
          · exact .inr later
      · exact absurd (apart id j a b found old k mem hb).symm other
  · have same := countSince_untouched hr s.records (r := .validated a.ip s.minute right)
      (by simpa [touches] using mem)
    refine ⟨h.total, admitted, ?_, ?_⟩
    · simp only [World.validate, same]
      rcases h.count with count | ⟨count, j, b, hj, hb, wrong⟩
      · exact .inl count
      · have other : j ≠ id := TreeMaps.ne_of_value hj found fun eq => mem (eq ▸ hb)
        exact .inr ⟨count, j, b, (TreeMaps.insert_of_ne other).trans hj, hb, wrong⟩
    · intro j b hj hb outcome
      simp only [World.validate, same]
      rcases TreeMaps.of_insert hj with ⟨rfl, rfl⟩ | ⟨-, old⟩
      · exact absurd hb mem
      · exact h.right j b old hb outcome

theorem bump_total (e : FailureEntry) (time : Int) :
    (bumpFailureEntry e time).total = e.total + 1 := by
  unfold bumpFailureEntry
  split <;> rfl

/-- What `update_failure` leaves of the entry of a key of the client. -/
theorem updateFailure_entry (m : FailureMap) {ip : IpAddr} {k : FailureKey}
    (mem : k ∈ failureKeys ip) (failure : FailureEntry) (time : Int) (remove : Bool) :
    (updateFailure m ip failure time remove).entry k =
      if remove then if failure.time ≠ 0 then {} else m.entry k
      else bumpFailureEntry (m.entry k) time := by
  cases remove with
  | false => simp [FailureMap.entry, updateFailure_bump, mem]
  | true =>
    by_cases zero : failure.time = 0 <;>
      simp [FailureMap.entry, updateFailure_remove, mem, zero]

theorem updateFailure_other (m : FailureMap) {ip : IpAddr} {k : FailureKey}
    (other : k ∉ failureKeys ip) (failure : FailureEntry) (time : Int) (remove : Bool) :
    updateFailure m ip failure time remove k = m k := by
  cases remove with
  | false => simp [updateFailure_bump, other]
  | true => simp [updateFailure_remove, other]

theorem update_counted_own {k : FailureKey} {resets : Record → Bool} {s : World}
    (h : Counted k resets s) (apart : Apart s) {id : Int} {a : Attempt}
    (found : s.attempts[id]? = some a) (mem : k ∈ failureKeys a.ip) (remove : Bool)
    (earned : remove = true → a.outcome = some true) :
    Counted k resets (s.update id a remove) := by
  have limited := h.admitted id a found mem
  have entry := updateFailure_entry s.failures mem a.failure a.time remove
  have nobody : ∀ (j : Int) b, (s.update id a remove).attempts[j]? = some b →
      k ∉ failureKeys b.ip := by
    intro j b hj hb
    obtain ⟨other, old⟩ := TreeMaps.of_erase hj
    exact other (apart j id b a old found k hb mem)
  have within : countSince (wrongUnder k) resets s.records ≤ (s.failures.entry k).total + 1 := by
    rcases h.count with count | ⟨count, -⟩ <;> omega
  suffices bounds : ((s.update id a remove).failures.entry k).total ≤ limit k + 1 ∧
      countSince (wrongUnder k) resets (s.update id a remove).records ≤
        ((s.update id a remove).failures.entry k).total by
    exact ⟨bounds.1, fun j b hj hb => absurd hb (nobody j b hj), .inl bounds.2,
      fun j b hj hb => absurd hb (nobody j b hj)⟩
  simp only [World.update, entry]
  cases remove with
  | false =>
    simp only [Bool.false_eq_true, if_false, false_and, bump_total]
    omega
  | true =>
    have outcome := earned rfl
    have settled := h.settled apart found mem (by simp [outcome])
    by_cases zero : a.failure.time = 0
    · simp only [zero, ne_eq, not_true_eq_false, and_false, if_false, if_true]
      omega
    · simp only [zero, ne_eq, not_false_eq_true, and_self, if_true, countSince_snoc]
      rcases h.right id a found mem outcome with none | reset
      · simp [none, wrongUnder]
      · simp [reset]

theorem update_counted {k : FailureKey} {resets : Record → Bool} (hr : Resets k resets)
    {s : World} (h : Counted k resets s) (apart : Apart s) {id : Int} {a : Attempt}
    (found : s.attempts[id]? = some a) (remove : Bool)
    (earned : remove = true → a.outcome = some true) :
    Counted k resets (s.update id a remove) := by
  by_cases mem : k ∈ failureKeys a.ip
  · exact update_counted_own h apart found mem remove earned
  · have entry : (s.update id a remove).failures.entry k = s.failures.entry k := by
      simp [World.update, FailureMap.entry, updateFailure_other s.failures mem]
    have records : countSince (wrongUnder k) resets (s.update id a remove).records =
        countSince (wrongUnder k) resets s.records := by
      simp only [World.update]
      split
      · exact countSince_untouched hr s.records (by simpa [touches] using mem)
      · rfl
    refine ⟨?_, ?_, ?_, ?_⟩
    · exact entry ▸ h.total
    · intro j b hj hb
      exact entry ▸ h.admitted j b (TreeMaps.of_erase hj).2 hb
    · rw [entry, records]
      rcases h.count with count | ⟨count, j, b, hj, hb, wrong⟩
      · exact .inl count
      · have other : j ≠ id := TreeMaps.ne_of_value hj found fun eq => mem (eq ▸ hb)
        exact .inr ⟨count, j, b, (TreeMaps.erase_of_ne other).trans hj, hb, wrong⟩
    · intro j b hj hb outcome
      rw [records]
      exact h.right j b (TreeMaps.of_erase hj).2 hb outcome

theorem change_counted {k : FailureKey} {resets : Record → Bool} (hr : Resets k resets)
    {s t : World} {e : Event} (h : Counted k resets s) (apart : Apart s) (step : Change s e t) :
    Counted k resets t := by
  cases step with
  | none => exact h
  | clock => exact ⟨h.total, h.admitted, h.count, h.right⟩
  | check id ip kind failure free admitted => exact check_counted h id kind admitted free
  | validate id a right found pending => exact validate_counted hr h apart found pending right
  | update id a remove found earned => exact update_counted hr h apart found remove earned

theorem Counted.bound {k : FailureKey} {resets : Record → Bool} {s : World}
    (h : Counted k resets s) : countSince (wrongUnder k) resets s.records ≤ limit k + 1 := by
  rcases h.count with count | ⟨count, id, a, found, mem, -⟩
  · exact Nat.le_trans count h.total
  · have := h.admitted id a found mem
    omega

theorem new_counted (k : FailureKey) (resets : Record → Bool) : Counted k resets {} := by
  constructor <;> simp [FailureMap.entry, countSince]

/-! ## One minute -/

/-- The guesses of a minute that an entry accounts for. A minute before the one
of the entry is over. -/
def seen (entry : Option FailureEntry) (minute : Int) : Nat :=
  match entry with
  | none => 0
  | some e => if minute < e.time then 7 else if minute = e.time then e.inMinute else 0

structure Paced (ip : IpAddr) (s : World) : Prop where
  begun : ∀ (id : Int) a, s.attempts[id]? = some a → a.time ≤ s.minute
  last : ∀ e, s.failures (.ip ip) = some e → e.time ≤ s.minute ∧ e.inMinute ≤ 7
  admitted : ∀ (id : Int) a, s.attempts[id]? = some a → a.ip = ip →
    ∀ e, s.failures (.ip ip) = some e → e.time ≤ a.time ∧ (a.time = e.time → e.inMinute ≤ 6)
  count : ∀ m, wrongInMinuteSince ip m s.records ≤ seen (s.failures (.ip ip)) m ∨
    wrongInMinuteSince ip m s.records ≤ seen (s.failures (.ip ip)) m + 1 ∧
      ∃ (id : Int) (a : Attempt), s.attempts[id]? = some a ∧ a.ip = ip ∧ a.time = m ∧
        a.outcome = some false
  right : ∀ (id : Int) a, s.attempts[id]? = some a → a.ip = ip → a.outcome = some true →
    ∀ m, wrongInMinuteSince ip m s.records = 0

theorem Paced.bound {ip : IpAddr} {s : World} (h : Paced ip s) (m : Int) :
    wrongInMinuteSince ip m s.records ≤ 7 := by
  rcases h.count m with count | ⟨count, id, a, found, same, now, -⟩
  · refine Nat.le_trans count ?_
    unfold seen
    split
    · omega
    · rename_i e entry
      have := (h.last e entry).2
      split
      · omega
      · split <;> omega
  · refine Nat.le_trans count ?_
    unfold seen
    split
    · omega
    · rename_i e entry
      obtain ⟨past, used⟩ := h.admitted id a found same e entry
      rw [if_neg (by omega)]
      split
      · have := used (by omega)
        omega
      · omega

theorem Paced.settled {ip : IpAddr} {s : World} (h : Paced ip s) (apart : Apart s) {id : Int}
    {a : Attempt} (found : s.attempts[id]? = some a) (same : a.ip = ip) (m : Int)
    (ok : a.time = m → a.outcome ≠ some false) :
    wrongInMinuteSince ip m s.records ≤ seen (s.failures (.ip ip)) m := by
  rcases h.count m with count | ⟨-, j, b, hj, hb, now, wrong⟩
  · exact count
  · cases apart id j a b found hj (.ip ip) (ip_mem_failureKeys.mpr same.symm)
      (ip_mem_failureKeys.mpr hb.symm)
    rw [found] at hj
    cases hj
    exact absurd wrong (ok now)

/-- A record that no count of the address looks at. -/
def indifferent (ip : IpAddr) (r : Record) : Prop :=
  successFrom ip r = false ∧ ∀ m, wrongAt ip m r = false

theorem cleared_indifferent (ip j : IpAddr) : indifferent ip (.cleared j) :=
  ⟨rfl, fun _ => rfl⟩

theorem validated_indifferent {ip j : IpAddr} (ne : j ≠ ip) (minute : Int) (right : Bool) :
    indifferent ip (.validated j minute right) := by
  simp [indifferent, successFrom, wrongAt, ne]

theorem wrongInMinuteSince_indifferent {ip : IpAddr} {r : Record} (other : indifferent ip r)
    (m : Int) (rs : List Record) :
    wrongInMinuteSince ip m (rs ++ [r]) = wrongInMinuteSince ip m rs := by
  simp [wrongInMinuteSince, other.1, other.2]

theorem update_minute (ip : IpAddr) (m : Int) (s : World) (id : Int) (a : Attempt)
    (remove : Bool) : wrongInMinuteSince ip m (s.update id a remove).records =
      wrongInMinuteSince ip m s.records := by
  simp only [World.update]
  split
  · exact wrongInMinuteSince_indifferent (cleared_indifferent ip a.ip) m s.records
  · rfl

theorem check_paced {ip : IpAddr} {s : World} (h : Paced ip s) (id : Int) {src : IpAddr}
    (kind : AttemptKind) {failure : FailureEntry} (free : s.attempts[id]? = none)
    (admitted : checkFailure s.failures src s.minute = (failure, none)) :
    Paced ip { s with
      attempts := s.attempts.insert id { ip := src, kind, failure, time := s.minute } } := by
  refine ⟨?_, h.last, ?_, ?_, ?_⟩
  · intro j b hj
    rcases TreeMaps.of_insert hj with ⟨rfl, rfl⟩ | ⟨-, old⟩
    · exact Int.le_refl _
    · exact h.begun j b old
  · intro j b hj hb e he
    rcases TreeMaps.of_insert hj with ⟨rfl, rfl⟩ | ⟨-, old⟩
    · cases hb
      refine ⟨(h.last e he).1, fun now => ?_⟩
      have read : s.failures.entry (.ip src) = e := by
        simp only [FailureMap.entry]
        rw [show s.failures (.ip src) = some e from he]
        rfl
      have paced := (checkFailure_admits admitted).2
      rw [read] at paced
      exact paced now
    · exact h.admitted j b old hb e he
  · intro m
    rcases h.count m with count | ⟨count, j, b, hj, rest⟩
    · exact .inl count
    · exact .inr ⟨count, j, b, TreeMaps.insert_of_absent free hj, rest⟩
  · intro j b hj hb outcome
    rcases TreeMaps.of_insert hj with ⟨rfl, rfl⟩ | ⟨-, old⟩
    · simp at outcome
    · exact h.right j b old hb outcome

theorem validate_paced {ip : IpAddr} {s : World} (h : Paced ip s) (apart : Apart s) {id : Int}
    {a : Attempt} (found : s.attempts[id]? = some a) (pending : a.outcome = none)
    (prompt : a.time = s.minute) (right : Bool) : Paced ip (s.validate id a right) := by
  have begun : ∀ (j : Int) b, (s.validate id a right).attempts[j]? = some b →
      b.time ≤ s.minute := by
    intro j b hj
    rcases TreeMaps.of_insert hj with ⟨rfl, rfl⟩ | ⟨-, old⟩
    · exact h.begun j a found
    · exact h.begun j b old
  have admitted : ∀ (j : Int) b, (s.validate id a right).attempts[j]? = some b → b.ip = ip →
      ∀ e, s.failures (.ip ip) = some e →
        e.time ≤ b.time ∧ (b.time = e.time → e.inMinute ≤ 6) := by
    intro j b hj hb
    rcases TreeMaps.of_insert hj with ⟨rfl, rfl⟩ | ⟨-, old⟩
    · exact h.admitted j a found hb
    · exact h.admitted j b old hb
  by_cases same : a.ip = ip
  · refine ⟨begun, h.last, admitted, ?_, ?_⟩
    · intro m
      have settled := h.settled apart found same m (by simp [pending])
      cases right with
      | true => exact .inl (by simp [World.validate, wrongInMinuteSince, successFrom, same])
      | false =>
        by_cases now : a.time = m
        · refine .inr ⟨?_, id, { a with outcome := some false }, ?_, same, now, rfl⟩
          · simp only [wrongInMinuteSince] at settled
            simpa [World.validate, wrongInMinuteSince, successFrom, wrongAt, same, now, ← prompt]
              using settled
          · simp [World.validate]
        · refine .inl ?_
          simp only [wrongInMinuteSince] at settled
          simpa [World.validate, wrongInMinuteSince, successFrom, wrongAt, same, now, ← prompt]
            using settled
    · intro j b hj hb outcome m
      rcases TreeMaps.of_insert hj with ⟨rfl, rfl⟩ | ⟨other, old⟩
      · cases right with
        | false => simp at outcome
        | true => simp [World.validate, wrongInMinuteSince, successFrom, same]
      · exact absurd (apart id j a b found old (.ip ip) (ip_mem_failureKeys.mpr same.symm)
          (ip_mem_failureKeys.mpr hb.symm)).symm other
  · have untouched (m : Int) : wrongInMinuteSince ip m (s.validate id a right).records =
        wrongInMinuteSince ip m s.records :=
      wrongInMinuteSince_indifferent (validated_indifferent same s.minute right) m s.records
    refine ⟨begun, h.last, admitted, ?_, ?_⟩
    · intro m
      rw [untouched]
      rcases h.count m with count | ⟨count, j, b, hj, hb, rest⟩
      · exact .inl count
      · have other : j ≠ id := TreeMaps.ne_of_value hj found fun eq => same (eq ▸ hb)
        exact .inr ⟨count, j, b, (TreeMaps.insert_of_ne other).trans hj, hb, rest⟩
    · intro j b hj hb outcome m
      rw [untouched]
      rcases TreeMaps.of_insert hj with ⟨rfl, rfl⟩ | ⟨-, old⟩
      · exact absurd hb same
      · exact h.right j b old hb outcome m

theorem bump_paced {ip : IpAddr} {s : World} (h : Paced ip s) (apart : Apart s) {id : Int}
    {a : Attempt} (found : s.attempts[id]? = some a) (same : a.ip = ip) (m : Int) :
    wrongInMinuteSince ip m s.records ≤
      seen (some (bumpFailureEntry (s.failures.entry (.ip ip)) a.time)) m := by
  have bound := h.bound m
  have within : wrongInMinuteSince ip m s.records ≤ seen (s.failures (.ip ip)) m + 1 := by
    rcases h.count m with count | ⟨count, -⟩ <;> omega
  have time : (bumpFailureEntry (s.failures.entry (.ip ip)) a.time).time = a.time := by
    unfold bumpFailureEntry
    split
    · assumption
    · rfl
  simp only [seen, time]
  split
  · exact bound
  · rename_i past
    have later : a.time ≠ m →
        wrongInMinuteSince ip m s.records ≤ seen (s.failures (.ip ip)) m := fun other =>
      h.settled apart found same m fun now => absurd now other
    cases entry : s.failures (.ip ip) with
    | none =>
      simp only [seen, entry] at within later
      split
      · simp only [FailureMap.entry, entry, Option.getD_none, bumpFailureEntry]
        split <;> simp <;> omega
      · have := later (by omega)
        omega
    | some e =>
      obtain ⟨order, -⟩ := h.admitted id a found same e entry
      simp only [seen, entry] at within later
      split
      · subst m
        simp only [FailureMap.entry, entry, Option.getD_some, bumpFailureEntry]
        rw [if_neg (by omega)] at within
        by_cases now : e.time = a.time
        · rw [if_pos now.symm] at within
          simpa [now] using within
        · rw [if_neg (by omega)] at within
          simpa [now] using within
      · have := later (by omega)
        rw [if_neg (by omega), if_neg (by omega)] at this
        exact this

theorem update_paced_own {ip : IpAddr} {s : World} (h : Paced ip s) (apart : Apart s) {id : Int}
    {a : Attempt} (found : s.attempts[id]? = some a) (same : a.ip = ip) (remove : Bool)
    (earned : remove = true → a.outcome = some true) : Paced ip (s.update id a remove) := by
  have mem : .ip ip ∈ failureKeys a.ip := ip_mem_failureKeys.mpr same.symm
  have nobody : ∀ (j : Int) b, (s.update id a remove).attempts[j]? = some b → b.ip ≠ ip := by
    intro j b hj hb
    obtain ⟨other, old⟩ := TreeMaps.of_erase hj
    exact other (apart j id b a old found (.ip ip) (ip_mem_failureKeys.mpr hb.symm) mem)
  suffices bounds : (∀ e, (s.update id a remove).failures (.ip ip) = some e →
      e.time ≤ s.minute ∧ e.inMinute ≤ 7) ∧ ∀ m, wrongInMinuteSince ip m s.records ≤
        seen ((s.update id a remove).failures (.ip ip)) m by
    exact ⟨fun j b hj => h.begun j b (TreeMaps.of_erase hj).2, bounds.1,
      fun j b hj hb => absurd hb (nobody j b hj),
      fun m => .inl (update_minute ip m s id a remove ▸ bounds.2 m),
      fun j b hj hb => absurd hb (nobody j b hj)⟩
  simp only [World.update]
  cases remove with
  | false =>
    simp only [updateFailure_bump, mem, if_true]
    refine ⟨?_, bump_paced h apart found same⟩
    rintro e ⟨⟩
    have begun := h.begun id a found
    unfold bumpFailureEntry
    split
    · rename_i now
      refine ⟨now ▸ begun, ?_⟩
      cases entry : s.failures (.ip ip) with
      | none => simp [FailureMap.entry, entry]
      | some e =>
        have used := (h.admitted id a found same e entry).2
        simp only [FailureMap.entry, entry, Option.getD_some] at now ⊢
        have := used now.symm
        omega
    · exact ⟨begun, show 1 ≤ 7 by decide⟩
  | true =>
    have none := h.right id a found same (earned rfl)
    simp only [updateFailure_remove, mem, true_and]
    split
    · exact ⟨by simp, fun m => by simp [none m]⟩
    · exact ⟨h.last, fun m => by simp [none m]⟩

theorem update_paced {ip : IpAddr} {s : World} (h : Paced ip s) (apart : Apart s) {id : Int}
    {a : Attempt} (found : s.attempts[id]? = some a) (remove : Bool)
    (earned : remove = true → a.outcome = some true) : Paced ip (s.update id a remove) := by
  by_cases same : a.ip = ip
  · exact update_paced_own h apart found same remove earned
  · have other : .ip ip ∉ failureKeys a.ip := fun mem => same (ip_mem_failureKeys.mp mem).symm
    have entry : (s.update id a remove).failures (.ip ip) = s.failures (.ip ip) :=
      updateFailure_other s.failures other a.failure a.time remove
    refine ⟨fun j b hj => h.begun j b (TreeMaps.of_erase hj).2, ?_, ?_, ?_, ?_⟩
    · rw [entry]
      exact h.last
    · intro j b hj hb
      rw [entry]
      exact h.admitted j b (TreeMaps.of_erase hj).2 hb
    · intro m
      rw [entry, update_minute]
      rcases h.count m with count | ⟨count, j, b, hj, hb, rest⟩
      · exact .inl count
      · have other : j ≠ id := TreeMaps.ne_of_value hj found fun eq => same (eq ▸ hb)
        exact .inr ⟨count, j, b, (TreeMaps.erase_of_ne other).trans hj, hb, rest⟩
    · intro j b hj hb outcome m
      rw [update_minute]
      exact h.right j b (TreeMaps.of_erase hj).2 hb outcome m

theorem change_paced {ip : IpAddr} {s t : World} {e : Event} (h : Paced ip s) (apart : Apart s)
    (prompt : Prompt s e) (step : Change s e t) : Paced ip t := by
  cases step with
  | none => exact h
  | clock minute forward =>
    exact ⟨fun j b hj => Int.le_trans (h.begun j b hj) forward,
      fun e he => ⟨Int.le_trans (h.last e he).1 forward, (h.last e he).2⟩, h.admitted, h.count,
      h.right⟩
  | check id src kind failure free admitted => exact check_paced h id kind free admitted
  | validate id a right found pending =>
    exact validate_paced h apart found pending (prompt a found) right
  | update id a remove found earned => exact update_paced h apart found remove earned

theorem new_paced (ip : IpAddr) : Paced ip {} := by
  constructor <;> simp [wrongInMinuteSince, countSince]

/-- No attempt is left to validate in a minute whose guesses a success removed,
so that its count stays where the success found it. -/
structure Closed (ip : IpAddr) (s : World) : Prop where
  count : ∀ m, wrongInMinute ip m s.records = wrongInMinuteSince ip m s.records ∨
    forgets ip m s.records = true ∧ wrongInMinute ip m s.records ≤ 7
  pending : ∀ (id : Int) a, s.attempts[id]? = some a → a.ip = ip → a.outcome = none →
    forgets ip a.time s.records = false

theorem Closed.bound {ip : IpAddr} {s : World} (h : Closed ip s) (paced : Paced ip s) (m : Int) :
    wrongInMinute ip m s.records ≤ 7 := by
  rcases h.count m with same | ⟨-, bound⟩
  · exact same ▸ paced.bound m
  · exact bound

theorem Closed.snoc {ip : IpAddr} {s t : World} (h : Closed ip s) {r : Record}
    (other : indifferent ip r) (records : t.records = s.records ++ [r])
    (attempts : ∀ (id : Int) a, t.attempts[id]? = some a → a.ip = ip → a.outcome = none →
      s.attempts[id]? = some a) : Closed ip t := by
  have kept (m : Int) : forgets ip m t.records = forgets ip m s.records := by
    simp [records, forgets_snoc, other.1]
  refine ⟨fun m => ?_, fun id a found same outcome => ?_⟩
  · rw [kept, records, wrongInMinuteSince_indifferent other]
    simpa [wrongInMinute, other.2 m] using h.count m
  · rw [kept]
    exact h.pending id a (attempts id a found same outcome) same outcome

theorem validate_closed {ip : IpAddr} {s : World} (h : Closed ip s) (paced : Paced ip s)
    (apart : Apart s) {id : Int} {a : Attempt} (found : s.attempts[id]? = some a)
    (pending : a.outcome = none) (prompt : a.time = s.minute) (right : Bool) :
    Closed ip (s.validate id a right) := by
  by_cases same : a.ip = ip
  · refine ⟨fun m => ?_, fun j b hj hb outcome => ?_⟩
    · cases right with
      | true =>
        have reset : wrongInMinuteSince ip m (s.validate id a true).records = 0 := by
          simp [World.validate, wrongInMinuteSince, successFrom, same]
        have count : wrongInMinute ip m (s.validate id a true).records =
            wrongInMinute ip m s.records := by
          simp [World.validate, wrongInMinute, wrongAt]
        rw [reset, count]
        by_cases none : wrongInMinute ip m s.records = 0
        · exact .inl none
        · refine .inr ⟨?_, h.bound paced m⟩
          obtain ⟨r, mem, wrong⟩ := List.countP_pos_iff.mp (Nat.pos_of_ne_zero none)
          have any : s.records.any (wrongAt ip m) = true := List.any_eq_true.mpr ⟨r, mem, wrong⟩
          simp [World.validate, forgets_snoc, any, successFrom, same]
      | false =>
        have kept : forgets ip m (s.validate id a false).records = forgets ip m s.records := by
          simp [World.validate, forgets_snoc, successFrom]
        rw [kept]
        by_cases now : s.minute = m
        · have remembered : forgets ip m s.records = false := by
            rw [← now, ← prompt]
            exact h.pending id a found same pending
          have count := (h.count m).resolve_right (by simp [remembered])
          refine .inl ?_
          simp only [wrongInMinute, wrongInMinuteSince] at count
          simp [World.validate, wrongInMinute, wrongInMinuteSince, wrongAt, successFrom, same,
            now, count]
        · have count := h.count m
          simp only [wrongInMinute, wrongInMinuteSince] at count
          simpa [World.validate, wrongInMinute, wrongInMinuteSince, wrongAt, successFrom, now]
            using count
    · rcases TreeMaps.of_insert hj with ⟨rfl, rfl⟩ | ⟨other, old⟩
      · simp at outcome
      · exact absurd (apart id j a b found old (.ip ip) (ip_mem_failureKeys.mpr same.symm)
          (ip_mem_failureKeys.mpr hb.symm)).symm other
  · refine h.snoc (validated_indifferent same s.minute right) rfl fun j b hj hb outcome => ?_
    rcases TreeMaps.of_insert hj with ⟨rfl, rfl⟩ | ⟨-, old⟩
    · exact absurd hb same
    · exact old

theorem change_closed {ip : IpAddr} {s t : World} {e : Event} (h : Closed ip s)
    (paced : Paced ip s) (apart : Apart s) (prompt : Prompt s e) (step : Change s e t) :
    Closed ip t := by
  cases step with
  | none => exact h
  | clock => exact ⟨h.count, h.pending⟩
  | check id src kind failure free admitted =>
    refine ⟨h.count, fun j b hj hb outcome => ?_⟩
    rcases TreeMaps.of_insert hj with ⟨rfl, rfl⟩ | ⟨-, old⟩
    · cases hb
      exact prompt
    · exact h.pending j b old hb outcome
  | validate id a right found pending =>
    exact validate_closed h paced apart found pending (prompt a found) right
  | update id a remove found earned =>
    by_cases cleared : remove = true ∧ a.failure.time ≠ 0
    · refine h.snoc (cleared_indifferent ip a.ip) (by simp [World.update, cleared]) ?_
      exact fun j b hj _ _ => (TreeMaps.of_erase hj).2
    · have records : (s.update id a remove).records = s.records := by
        simp only [World.update]
        exact if_neg cleared
      refine ⟨by rw [records]; exact h.count, fun j b hj hb outcome => ?_⟩
      rw [records]
      exact h.pending j b (TreeMaps.of_erase hj).2 hb outcome

theorem new_closed (ip : IpAddr) : Closed ip {} := by
  constructor <;> simp [wrongInMinute, wrongInMinuteSince, countSince]

/-! ## Whole runs -/

theorem run_counted {es : List Event} (ok : Along World.step Orderly {} es) {k : FailureKey}
    {resets : Record → Bool} (hr : Resets k resets) :
    countSince (wrongUnder k) resets (run World.step {} es).records ≤ limit k + 1 := by
  have inv : Apart (run World.step {} es) ∧ Counted k resets (run World.step {} es) := by
    refine Runs.invariant (I := fun s => Apart s ∧ Counted k resets s) ?_
      ⟨by simp [Apart], new_counted k resets⟩ ok
    intro s e h admitted
    have step := step_change s e admitted
    exact ⟨change_apart h.1 step, change_counted hr h.2 h.1 step⟩
  exact inv.2.bound

theorem run_paced {es : List Event} (ok : Along World.step Orderly {} es)
    (prompt : Along World.step Prompt {} es) (ip : IpAddr) (m : Int) :
    wrongInMinute ip m (run World.step {} es).records ≤ 7 := by
  let I (s : World) := Apart s ∧ Paced ip s ∧ Closed ip s
  have inv : I (run World.step {} es) := by
    refine Runs.invariant ?_ ⟨by simp [Apart], new_paced ip, new_closed ip⟩
      (along_and.mpr ⟨ok, prompt⟩)
    intro s e ⟨apart, paced, closed⟩ ⟨admitted, prompt⟩
    have step := step_change s e admitted
    exact ⟨change_apart apart step, change_paced paced apart prompt step,
      change_closed closed paced apart prompt step⟩
  exact inv.2.2.bound inv.2.1 m

/-- **Guessing is bounded** in every run in which attempts that share a failure
key do not overlap and the clock does not go back, and within one minute where
attempts are validated at once and none follows a success that removed guesses
of the minute. -/
theorem wrong_passwords_bounded (es : List Event) (ok : Along World.step Orderly {} es)
    (ip : IpAddr) :
    wrongSinceSuccess ip (run World.step {} es).records ≤ 31 ∧
    (Along World.step Prompt {} es →
      ∀ m, wrongInMinute ip m (run World.step {} es).records ≤ 7) ∧
    ∀ p64 p56 p48, getIpv6Prefixes ip = some (p64, p56, p48) →
      wrongSinceCleared p64 (run World.step {} es).records ≤ 61 ∧
      wrongSinceCleared p56 (run World.step {} es).records ≤ 81 ∧
      wrongSinceCleared p48 (run World.step {} es).records ≤ 101 := by
  refine ⟨run_counted ok (successFrom_resets ip), fun prompt => run_paced ok prompt ip, ?_⟩
  intro p64 p56 p48 nets
  cases ip with
  | v4 => simp [getIpv6Prefixes] at nets
  | v6 bits =>
    simp only [getIpv6Prefixes, Option.some.injEq, Prod.mk.injEq] at nets
    obtain ⟨rfl, rfl, rfl⟩ := nets
    exact ⟨run_counted ok (clears_resets _), run_counted ok (clears_resets _),
      run_counted ok (clears_resets _)⟩

/-- One attempt of a connection, from its check to its update. -/
def attempt (id : Int) (ip : IpAddr) (right : Bool) : List Event :=
  [.check id ip .password, .validate id right, .update id]

/-- Two wrong guesses and a success in one minute, and two more in the next. -/
def guessesInTurn : List Event :=
  .clock 1 :: (attempt 1 (.v6 5) false ++ attempt 2 (.v6 5) false ++ attempt 3 (.v6 5) true ++
    .clock 2 :: (attempt 4 (.v6 5) false ++ attempt 5 (.v6 5) false))

theorem wrong_passwords_bounded_in_turn :
    wrongSinceSuccess (.v6 5) (run World.step {} guessesInTurn).records ≤ 31 ∧
    wrongInMinute (.v6 5) 1 (run World.step {} guessesInTurn).records ≤ 7 ∧
    wrongSinceCleared (.net 64 0) (run World.step {} guessesInTurn).records ≤ 61 := by
  obtain ⟨total, minute, nets⟩ :=
    wrong_passwords_bounded guessesInTurn (by decide +kernel) (.v6 5)
  exact ⟨total, minute (by decide +kernel) 1, (nets (.net 64 0) (.net 56 0) (.net 48 0) rfl).1⟩

/-- Eight connections check before any of them updates: eight wrong passwords
are validated within one minute. -/
theorem overlapping_guesses_exceed :
    ¬ ∀ (es : List Event) (ip : IpAddr) (m : Int),
      wrongInMinute ip m (run World.step {} es).records ≤ 7 := by
  intro h
  have bounded := h (.clock 1 :: ((List.range 8).map fun i => .check i (.v4 7) .password) ++
    (List.range 8).map fun i => .validate i false) (.v4 7) 1
  revert bounded
  decide +kernel

end CamelliaRemote.Login
