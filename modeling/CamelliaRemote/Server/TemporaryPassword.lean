import CamelliaRemote.Server.Steps

namespace CamelliaRemote.Server
open Runs

/-- An attempt between its comparison and `check_update_temporary_password`. -/
structure PasswordAttempt where
  compared : String
  right : Bool
  deriving DecidableEq, Repr

inductive GuessOutcome where
  | matched
  /-- Accepted as the permanent password. -/
  | permanent
  | refused
  deriving DecidableEq, Repr

inductive GuessRecord where
  | compared (password : String) (outcome : GuessOutcome)
  /-- A failure of an attempt that was compared with one password, counted against another. -/
  | counted (against compared : String)
  deriving DecidableEq, Repr

structure Guesses where
  globals : Globals
  /-- By connection. -/
  attempts : List (Int × PasswordAttempt) := []
  records : List GuessRecord := []
  /-- All temporary passwords so far. -/
  used : List String

inductive GuessEvent where
  /-- `validate_password`, up to the comparison. -/
  | compare (id : Int) (env : Env) (c : Connection) (allowPermanentPassword : Bool)
  | checkUpdate (id : Int) (env : Env)
  /-- `update_temporary_password` at the end of a connection or for the user. -/
  | rotate (fresh : String)

/-- The attempt of a connection, and the others. -/
def takeAttempt (id : Int) :
    List (Int × PasswordAttempt) → Option (PasswordAttempt × List (Int × PasswordAttempt))
  | [] => none
  | (j, a) :: rest =>
    if j = id then some (a, rest)
    else (takeAttempt id rest).map fun (b, rest) => (b, (j, a) :: rest)

variable (p : Host)

def guessOutcome (env : Env) (g : Globals) (c : Connection) (allow : Bool) : GuessOutcome :=
  if temporaryPasswordVerifies p env g c then .matched
  else if permanentPasswordVerifies p env c allow then .permanent
  else .refused

namespace Guesses

/-- An empty password is compared with nothing. -/
def compare (s : Guesses) (id : Int) (env : Env) (c : Connection) (allow : Bool) : Guesses :=
  let password := s.globals.temporaryPassword
  let outcome := guessOutcome p env s.globals c allow
  { s with
    attempts :=
      if outcome = .permanent then s.attempts
      else s.attempts ++ [(id, ⟨password, outcome = .matched⟩)]
    records :=
      if env.temporaryEnabled ∧ password ≠ "" then
        s.records ++ [GuessRecord.compared password outcome]
      else s.records }

def checkUpdate (s : Guesses) (env : Env) (a : PasswordAttempt)
    (rest : List (Int × PasswordAttempt)) : Guesses :=
  let password := s.globals.temporaryPassword
  let globals := checkUpdateTemporaryPassword env s.globals a.right
  { globals
    attempts := rest
    records :=
      if env.temporaryEnabled ∧ password ≠ "" ∧ a.right = false then
        s.records ++ [GuessRecord.counted password a.compared]
      else s.records
    used := globals.temporaryPassword :: s.used }

/-- A connection makes one attempt at a time. -/
def step (s : Guesses) : GuessEvent → Guesses
  | .compare id env c allow =>
    if s.attempts.any (·.1 = id) then s else s.compare p id env c allow
  | .checkUpdate id env =>
    match takeAttempt id s.attempts with
    | none => s
    | some (a, rest) => s.checkUpdate env a rest
  | .rotate fresh =>
    { s with globals := { s.globals with temporaryPassword := fresh }, used := fresh :: s.used }

/-- The host starts with a temporary password. -/
def start (password : String) : Guesses where
  globals := { temporaryPassword := password }
  used := [password]

/-- The failures counted against the temporary password. -/
def failures (s : Guesses) : Nat :=
  if s.globals.countedPassword = s.globals.temporaryPassword then s.globals.countedFailures else 0

/-- The refused attempts that are not counted yet. -/
def underWay (s : Guesses) : Nat := s.attempts.countP fun a => !a.2.right

end Guesses

/-- The wrong candidates compared with the password since the last match. -/
def wrongSinceMatch (password : String) (rs : List GuessRecord) : Nat :=
  rs.foldl (fun n r =>
    match r with
    | .compared _ .matched => 0
    | .compared v .refused => if v = password then n + 1 else n
    | _ => n) 0

/-- Temporary passwords are enabled, and a new one is another than all before. -/
def FreshPasswords (s : Guesses) : GuessEvent → Prop
  | .compare _ env _ _ => env.temporaryEnabled = true
  | .checkUpdate _ env => env.temporaryEnabled = true ∧ env.freshPassword ∉ s.used
  | .rotate fresh => fresh ∉ s.used

/-- A candidate is refused while fewer than ten failures are counted or about to be; a failure is
counted while no match is about to be, the tenth while no other attempt is under way; and the
password is not replaced while an attempt is. -/
def Separate (s : Guesses) : GuessEvent → Prop
  | .compare _ env c allow =>
    guessOutcome p env s.globals c allow = .refused → s.failures + s.underWay < 10
  | .checkUpdate id _ => ∀ taken ∈ takeAttempt id s.attempts, taken.1.right = false →
    (∀ b ∈ taken.2, b.2.right = false) ∧ (9 ≤ s.failures → taken.2 = [])
  | .rotate _ => s.attempts = []

instance (s : Guesses) : ∀ e, Decidable (FreshPasswords s e)
  | .compare _ _ _ _ => inferInstanceAs (Decidable (_ = _))
  | .checkUpdate _ _ => inferInstanceAs (Decidable (_ ∧ _))
  | .rotate _ => inferInstanceAs (Decidable (_ ∉ _))

instance (s : Guesses) : ∀ e, Decidable (Separate p s e)
  | .compare _ _ _ _ => inferInstanceAs (Decidable (_ → _))
  | .checkUpdate id _ => inferInstanceAs (Decidable (∀ taken ∈ takeAttempt id s.attempts, _))
  | .rotate _ => inferInstanceAs (Decidable (_ = _))

@[simp] theorem wrongSinceMatch_matched (password v : String) (rs : List GuessRecord) :
    wrongSinceMatch password (rs ++ [GuessRecord.compared v .matched]) = 0 := by
  simp [wrongSinceMatch]

@[simp] theorem wrongSinceMatch_permanent (password v : String) (rs : List GuessRecord) :
    wrongSinceMatch password (rs ++ [GuessRecord.compared v .permanent]) =
      wrongSinceMatch password rs := by
  simp [wrongSinceMatch]

@[simp] theorem wrongSinceMatch_refused (password v : String) (rs : List GuessRecord) :
    wrongSinceMatch password (rs ++ [GuessRecord.compared v .refused]) =
      if v = password then wrongSinceMatch password rs + 1 else wrongSinceMatch password rs := by
  simp [wrongSinceMatch]

@[simp] theorem wrongSinceMatch_counted (password v w : String) (rs : List GuessRecord) :
    wrongSinceMatch password (rs ++ [GuessRecord.counted v w]) = wrongSinceMatch password rs := by
  simp [wrongSinceMatch]

theorem perm_takeAttempt {id : Int} {l rest : List (Int × PasswordAttempt)} {a : PasswordAttempt}
    (h : takeAttempt id l = some (a, rest)) : l.Perm ((id, a) :: rest) := by
  induction l generalizing rest with
  | nil => cases h
  | cons b l ih =>
    obtain ⟨j, b⟩ := b
    unfold takeAttempt at h
    split at h
    · rename_i same
      cases h
      rw [same]
    · obtain ⟨⟨c, rest'⟩, taken, eq⟩ := Option.map_eq_some_iff.mp h
      obtain ⟨rfl, rfl⟩ := Prod.mk.inj eq
      exact ((ih taken).cons _).trans (List.Perm.swap _ _ _)

/-- What holds of the counter and of the comparisons. -/
structure Guarded (s : Guesses) : Prop where
  few : s.globals.countedFailures ≤ 9
  reads : ∀ b ∈ s.attempts, b.2.compared = s.globals.temporaryPassword
  covered : wrongSinceMatch s.globals.temporaryPassword s.records ≤ s.failures + s.underWay
  matched : (∃ b ∈ s.attempts, b.2.right = true) →
    wrongSinceMatch s.globals.temporaryPassword s.records ≤ s.underWay
  bounded : ∀ v, wrongSinceMatch v s.records ≤ 10
  nothing : wrongSinceMatch "" s.records = 0
  unused : ∀ v, v ∉ s.used → wrongSinceMatch v s.records = 0
  isUsed : s.globals.temporaryPassword ∈ s.used
  attributed : ∀ v w, .counted v w ∈ s.records → v = w

variable {p} {s : Guesses}

theorem guarded_start (password : String) : Guarded (.start password) := by
  constructor <;> simp [Guesses.start, wrongSinceMatch]

theorem Guarded.reads_snoc (h : Guarded s) (id : Int) (right : Bool) :
    ∀ b ∈ s.attempts ++ [(id, ⟨s.globals.temporaryPassword, right⟩)],
      b.2.compared = s.globals.temporaryPassword := by
  intro b mem
  rcases List.mem_append.mp mem with old | new
  · exact h.reads b old
  · rw [List.mem_singleton.mp new]

theorem guarded_matched (h : Guarded s) (id : Int) (v : String) :
    Guarded { s with
      attempts := s.attempts ++ [(id, ⟨s.globals.temporaryPassword, true⟩)]
      records := s.records ++ [GuessRecord.compared v .matched] } where
  few := h.few
  reads := h.reads_snoc id _
  covered := by simp
  matched := by simp
  bounded := by simp
  nothing := by simp
  unused := by simp
  isUsed := h.isUsed
  attributed := by
    intro v w mem
    exact h.attributed v w (by simpa using mem)

theorem underWay_refused (id : Int) (v : String) (records : List GuessRecord) :
    Guesses.underWay { s with attempts := s.attempts ++ [(id, ⟨v, false⟩)], records } =
      s.underWay + 1 := by
  unfold Guesses.underWay
  rw [List.countP_append, List.countP_singleton]
  rfl

theorem guarded_refused (h : Guarded s) (id : Int) (room : s.failures + s.underWay < 10)
    (isSet : s.globals.temporaryPassword ≠ "") :
    Guarded { s with
      attempts := s.attempts ++ [(id, ⟨s.globals.temporaryPassword, false⟩)]
      records := s.records ++ [GuessRecord.compared s.globals.temporaryPassword .refused] } where
  few := h.few
  reads := h.reads_snoc id _
  covered := by
    have before := h.covered
    rw [wrongSinceMatch_refused, if_pos rfl, underWay_refused]
    exact Nat.succ_le_succ before
  matched := by
    rintro ⟨b, mem, right⟩
    have old : b ∈ s.attempts := by
      rcases List.mem_append.mp mem with old | new
      · exact old
      · rw [List.mem_singleton.mp new] at right
        cases right
    have before := h.matched ⟨b, old, right⟩
    rw [wrongSinceMatch_refused, if_pos rfl, underWay_refused]
    exact Nat.succ_le_succ before
  bounded := by
    intro v
    have before := h.bounded v
    have now := h.covered
    rw [wrongSinceMatch_refused]
    split
    · rename_i same
      rw [← same]
      omega
    · exact before
  nothing := by
    rw [wrongSinceMatch_refused, if_neg isSet]
    exact h.nothing
  unused := by
    intro v new
    rw [wrongSinceMatch_refused, if_neg]
    · exact h.unused v new
    · rintro rfl
      exact new h.isUsed
  isUsed := h.isUsed
  attributed := by
    intro v w mem
    exact h.attributed v w (by simpa using mem)

/-- An attempt at an empty password waits without a comparison. -/
theorem guarded_waiting (h : Guarded s) (id : Int) (unset : s.globals.temporaryPassword = "") :
    Guarded { s with
      attempts := s.attempts ++ [(id, ⟨s.globals.temporaryPassword, false⟩)] } where
  few := h.few
  reads := h.reads_snoc id _
  covered := by
    rw [unset, h.nothing]
    exact Nat.zero_le _
  matched := by
    intro _
    rw [unset, h.nothing]
    exact Nat.zero_le _
  bounded := h.bounded
  nothing := h.nothing
  unused := h.unused
  isUsed := h.isUsed
  attributed := h.attributed

/-- A record that no password counts. -/
theorem guarded_record (h : Guarded s) {r : GuessRecord}
    (uncounted : ∀ password,
      wrongSinceMatch password (s.records ++ [r]) = wrongSinceMatch password s.records)
    (attributed : ∀ v w, r = .counted v w → v = w) :
    Guarded { s with records := s.records ++ [r] } where
  few := h.few
  reads := h.reads
  covered := by
    rw [uncounted]
    exact h.covered
  matched := by
    rw [uncounted]
    exact h.matched
  bounded := by
    intro password
    rw [uncounted]
    exact h.bounded password
  nothing := by
    rw [uncounted]
    exact h.nothing
  unused := by
    intro password new
    rw [uncounted]
    exact h.unused password new
  isUsed := h.isUsed
  attributed := by
    intro v w mem
    rcases List.mem_append.mp mem with old | new
    · exact h.attributed v w old
    · exact attributed v w (List.mem_singleton.mp new).symm

theorem guarded_permanent (h : Guarded s) (v : String) :
    Guarded { s with records := s.records ++ [GuessRecord.compared v .permanent] } :=
  guarded_record h (fun password => wrongSinceMatch_permanent password v s.records)
    (fun _ _ eq => by cases eq)

theorem matched_password {env : Env} {g : Globals} {c : Connection} {allow : Bool}
    (matched : guessOutcome p env g c allow = .matched) : g.temporaryPassword ≠ "" := by
  unfold guessOutcome at matched
  split at matched
  · rename_i verifies
    intro none
    simp [temporaryPasswordVerifies, validatePasswordPlain, none] at verifies
  · split at matched
    · cases matched
    · cases matched

theorem guarded_compare (h : Guarded s) (id : Int) {env : Env} {c : Connection} {allow : Bool}
    (enabled : env.temporaryEnabled = true)
    (room : guessOutcome p env s.globals c allow = .refused → s.failures + s.underWay < 10) :
    Guarded (s.compare p id env c allow) := by
  unfold Guesses.compare
  cases outcome : guessOutcome p env s.globals c allow with
  | matched =>
    simpa [enabled, matched_password outcome] using guarded_matched h id _
  | permanent =>
    by_cases none : s.globals.temporaryPassword = ""
    · simpa [none] using h
    · simpa [enabled, none] using guarded_permanent h _
  | refused =>
    by_cases none : s.globals.temporaryPassword = ""
    · simpa [none] using guarded_waiting h id none
    · simpa [enabled, none] using guarded_refused h id (room outcome) none

theorem underWay_perm {id : Int} {a : PasswordAttempt} {rest : List (Int × PasswordAttempt)}
    (perm : s.attempts.Perm ((id, a) :: rest)) :
    s.underWay = (rest.countP fun b => !b.2.right) + if a.right then 0 else 1 := by
  have same : s.underWay = ((id, a) :: rest).countP fun b => !b.2.right := perm.countP_eq _
  rw [same, List.countP_cons]
  cases a.right with
  | true => rfl
  | false => rfl

theorem guarded_counted (h : Guarded s) (v : String) :
    Guarded { s with records := s.records ++ [GuessRecord.counted v v] } := by
  refine guarded_record h (fun password => wrongSinceMatch_counted password v v s.records) ?_
  intro w w' eq
  cases eq
  rfl

/-- The counter and the password after `check_update_temporary_password`. -/
inductive Checked (env : Env) (s : Guesses) (right : Bool) (g : Globals) : Prop where
  | nothing (unset : s.globals.temporaryPassword = "") (same : g = s.globals)
  | cleared (isRight : right = true) (same : g.temporaryPassword = s.globals.temporaryPassword)
    (cleared : g.countedFailures = 0)
  | failed (isWrong : right = false) (same : g.temporaryPassword = s.globals.temporaryPassword)
    (counts : g.countedPassword = g.temporaryPassword)
    (more : g.countedFailures = s.failures + 1) (few : s.failures < 9)
  | rotated (isWrong : right = false) (fresh : g.temporaryPassword = env.freshPassword)
    (cleared : g.countedFailures = 0) (many : 9 ≤ s.failures)

theorem checked (env : Env) (enabled : env.temporaryEnabled = true) (right : Bool) :
    Checked env s right (checkUpdateTemporaryPassword env s.globals right) := by
  unfold checkUpdateTemporaryPassword
  split
  · rename_i none
    exact .nothing (by simpa [enabled] using none) rfl
  · cases right with
    | true => exact .cleared rfl rfl rfl
    | false =>
      rw [← Guesses.failures]
      dsimp only
      rw [if_neg (by simp)]
      split
      · exact .failed rfl rfl rfl rfl (by omega)
      · exact .rotated rfl rfl rfl (by omega)

theorem guarded_settled (h : Guarded s) {id : Int} {env : Env} {a : PasswordAttempt}
    {rest : List (Int × PasswordAttempt)} (perm : s.attempts.Perm ((id, a) :: rest))
    (fresh : env.freshPassword ∉ s.used)
    (apart : a.right = false →
      (∀ b ∈ rest, b.2.right = false) ∧ (9 ≤ s.failures → rest = []))
    {g : Globals} (checked : Checked env s a.right g) :
    Guarded { s with globals := g, attempts := rest, used := g.temporaryPassword :: s.used } := by
  have mem : ∀ b ∈ rest, b ∈ s.attempts :=
    fun b mem => perm.mem_iff.mpr (List.mem_cons_of_mem _ mem)
  have underWay := underWay_perm perm
  have unused : ∀ v, v ∉ g.temporaryPassword :: s.used → wrongSinceMatch v s.records = 0 :=
    fun v new => h.unused v fun old => new (List.mem_cons_of_mem _ old)
  cases checked with
  | nothing none same =>
    subst same
    have zero : wrongSinceMatch s.globals.temporaryPassword s.records = 0 := by
      rw [none]
      exact h.nothing
    exact ⟨h.few, fun b isOther => h.reads b (mem b isOther), by simp [zero], by simp [zero],
      h.bounded, h.nothing, unused, List.mem_cons_self, h.attributed⟩
  | cleared isRight same cleared =>
    have covered := h.matched ⟨(id, a), perm.mem_iff.mpr List.mem_cons_self, isRight⟩
    rw [underWay, if_pos isRight, Nat.add_zero] at covered
    refine ⟨by simp [cleared], ?_, ?_, ?_, h.bounded, h.nothing, unused, List.mem_cons_self,
      h.attributed⟩
    · intro b isOther
      rw [h.reads b (mem b isOther), same]
    · rw [same]
      exact Nat.le_add_left_of_le covered
    · rw [same]
      exact fun _ => covered
  | failed isWrong same counts more few =>
    have covered := h.covered
    rw [underWay, if_neg (by simp [isWrong])] at covered
    obtain ⟨others, -⟩ := apart isWrong
    refine ⟨by simp only [more]; omega, ?_, ?_, ?_, h.bounded, h.nothing, unused,
      List.mem_cons_self, h.attributed⟩
    · intro b isOther
      rw [h.reads b (mem b isOther), same]
    · rw [Guesses.failures, if_pos counts, more, same, Nat.add_right_comm]
      exact covered
    · rintro ⟨b, isOther, right⟩
      rw [others b isOther] at right
      cases right
  | rotated isWrong isFresh cleared many =>
    obtain rfl := (apart isWrong).2 many
    have zero : wrongSinceMatch g.temporaryPassword s.records = 0 := by
      rw [isFresh]
      exact h.unused _ fresh
    exact ⟨by simp [cleared], by simp, by simp [zero], by simp, h.bounded, h.nothing, unused,
      List.mem_cons_self, h.attributed⟩

/-- What is counted is counted against the password of the comparison. -/
theorem guarded_checkUpdate (h : Guarded s) {id : Int} {env : Env} {a : PasswordAttempt}
    {rest : List (Int × PasswordAttempt)} (taken : takeAttempt id s.attempts = some (a, rest))
    (enabled : env.temporaryEnabled = true) (fresh : env.freshPassword ∉ s.used)
    (apart : a.right = false →
      (∀ b ∈ rest, b.2.right = false) ∧ (9 ≤ s.failures → rest = [])) :
    Guarded (s.checkUpdate env a rest) := by
  have perm := perm_takeAttempt taken
  have isRead : a.compared = s.globals.temporaryPassword :=
    h.reads (id, a) (perm.mem_iff.mpr List.mem_cons_self)
  have settled := guarded_settled h perm fresh apart (checked env enabled a.right)
  unfold Guesses.checkUpdate
  dsimp only
  split
  · rw [isRead]
    exact guarded_counted settled _
  · exact settled

theorem guarded_rotate (h : Guarded s) {fresh : String} (new : fresh ∉ s.used)
    (none : s.attempts = []) : Guarded (s.step p (.rotate fresh)) := by
  have zero : wrongSinceMatch fresh s.records = 0 := h.unused _ new
  refine ⟨h.few, by simp [Guesses.step, none], ?_, by simp [Guesses.step, none], h.bounded,
    h.nothing, ?_, List.mem_cons_self, h.attributed⟩
  · exact zero ▸ Nat.zero_le _
  · exact fun v isNew => h.unused v fun old => isNew (List.mem_cons_of_mem _ old)

theorem guarded_step (h : Guarded s) {e : GuessEvent} (fresh : FreshPasswords s e)
    (separate : Separate p s e) : Guarded (s.step p e) := by
  cases e with
  | compare id env c allow =>
    simp only [Guesses.step]
    split
    · exact h
    · exact guarded_compare h id fresh separate
  | checkUpdate id env =>
    simp only [Guesses.step]
    split
    · exact h
    · rename_i a rest taken
      exact guarded_checkUpdate h taken fresh.1 fresh.2 (separate (a, rest) taken)
  | rotate password => exact guarded_rotate h fresh separate

/-- **Ten wrong guesses** at most are compared with one temporary password between two matches, and
every failure is counted against the password that it was compared with, in every run with fresh
passwords in which comparisons and counts are separate. -/
theorem temporary_password_guesses (password : String) (es : List GuessEvent)
    (fresh : Along (Guesses.step p) FreshPasswords (.start password) es)
    (separate : Along (Guesses.step p) (Separate p) (.start password) es) :
    (∀ v, wrongSinceMatch v (run (Guesses.step p) (.start password) es).records ≤ 10) ∧
      ∀ against compared, .counted against compared ∈
        (run (Guesses.step p) (.start password) es).records → against = compared := by
  have guarded : Guarded (run (Guesses.step p) (.start password) es) :=
    Runs.invariant (I := Guarded) (fun _ _ h ok => guarded_step h ok.1 ok.2)
      (guarded_start password) (along_and.mpr ⟨fresh, separate⟩)
  exact ⟨guarded.bounded, guarded.attributed⟩

/-- A connection of the sample host that answers for a password. -/
def guesser (password : String) : Connection where
  id := 1
  ip := .v4 7
  salt := "salt"
  challenge := "challenge"
  lr := { password := utf8 password ++ utf8 "salt" ++ utf8 "challenge" }

def guess (id : Int) (password : String) : GuessEvent :=
  .compare id sampleEnv (guesser password) false

def counts (id : Int) (freshPassword : String) : GuessEvent :=
  .checkUpdate id { sampleEnv with freshPassword }

/-- A wrong and a right guess, one after the other. -/
theorem temporary_password_guesses_in_turn :
    (∀ v, wrongSinceMatch v (run (Guesses.step sampleHost) (.start "a")
        [guess 1 "x", counts 1 "b", guess 2 "a", counts 2 "b"]).records ≤ 10) ∧
      ∀ against compared, .counted against compared ∈
        (run (Guesses.step sampleHost) (.start "a")
          [guess 1 "x", counts 1 "b", guess 2 "a", counts 2 "b"]).records → against = compared :=
  temporary_password_guesses "a" _ (by decide +kernel) (by decide +kernel)

/-- Eleven connections compare before any of them is counted. -/
def overlapping : List GuessEvent :=
  (List.range 11).map (fun i : Nat => guess i "x") ++
    (List.range 10).map (fun i : Nat => counts i "b") ++ [counts 10 "c"]

/-- Eleven wrong candidates are compared with one password, and the last of them is counted against
the next one. -/
theorem overlapping_guesses :
    Along (Guesses.step sampleHost) FreshPasswords (.start "a") overlapping ∧
      wrongSinceMatch "a" (run (Guesses.step sampleHost) (.start "a") overlapping).records = 11 ∧
      .counted "b" "a" ∈ (run (Guesses.step sampleHost) (.start "a") overlapping).records := by
  decide +kernel

end CamelliaRemote.Server
