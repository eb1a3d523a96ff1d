import CamelliaRemote.Server.View

namespace CamelliaRemote.Server

variable (p : Host) (env : Env)

/-! ## What decides -/

/-- `check_failure` refuses. -/
def rateLimited (g : Globals) (c : Connection) (i : FailureKind) : Bool :=
  (Login.checkFailure (g.failures i) c.ip env.minute).2.isSome

theorem checkFailure_admits (h : Handling) (i : FailureKind) :
    (checkFailure env h i).2.2 = !rateLimited env h.globals h.conn i := by
  unfold checkFailure rateLimited
  split <;> rename_i answer <;> simp [answer]

theorem checkFailure_admitted {h h' : Handling} {i : FailureKind} {failure : Login.FailureEntry}
    (admitted : checkFailure env h i = (h', failure, true)) : h' = h := by
  unfold checkFailure at admitted
  split at admitted
  · exact (congrArg Prod.fst admitted).symm
  · simp at admitted

/-- The response in the connection's login request is right: for the password of
a recent session, or, if the peer may still try, for a password of the host. -/
def PasswordVerified (g : Globals) (c : Connection) : Prop :=
  recentPasswordVerifies p env g c = true ∨
    rateLimited env g c .password = false ∧
      (temporaryPasswordVerifies p env g c = true ∨
        permanentPasswordVerifies p env c (allowsLogonScreenPassword env) = true)

/-- The password of the login request is checked, not only found to be recent. -/
def checksPassword (g : Globals) (c : Connection) (errMsg : String) : Bool :=
  !desktopFails errMsg && !clickOnly env (allowsLogonScreenPassword env) &&
    !recentPasswordVerifies p env g c && !c.lr.password.isEmpty && !rateLimited env g c .password

/-- The request is let through to the desktop of the host. -/
def passesHeadless (g : Globals) (c : Connection) : Bool :=
  !(shouldCheckLinuxHeadlessOsAuthBeforeDesktopStart p env c c.lr && rateLimited env g c .password)

/-- The request logs in with the temporary password: the entry of its session is
written anew. -/
def logsInTemporarily (g : Globals) (c : Connection) : Bool :=
  passesHeadless p env g c && checksPassword p env g c (startDesktopErr p env c) &&
    temporaryPasswordVerifies p env g c

/-- The connection stays open and the connection manager is not told. -/
def answersSilently (g : Globals) (c : Connection) : Bool :=
  let errMsg := startDesktopErr p env c
  !passesHeadless p env g c || desktopFails errMsg ||
    !clickOnly env (allowsLogonScreenPassword env) &&
      (errMsg ≠ "" ||
        !recentPasswordVerifies p env g c && !c.lr.password.isEmpty &&
          rateLimited env g c .password)

/-! ## What the connection manager is shown -/

def LoginData.connType (d : LoginData) : AuthConnType :=
  if d.isFileTransfer then .fileTransfer
  else if d.portForward ≠ "" then .portForward
  else if d.isViewCamera then .viewCamera
  else if d.isTerminal then .terminal
  else .remote

/-- The session type that `try_start_cm` shows. -/
def Core.shownType (k : Core) : AuthConnType :=
  if k.fileTransfer.isSome then .fileTransfer
  else if k.portForwardAddress ≠ "" then .portForward
  else if k.viewCamera then .viewCamera
  else if k.terminal then .terminal
  else .remote

theorem view_tryStartCm (h : Handling) (peerId name : String) (authorized : Bool) :
    ∃ d : LoginData, d.connType = h.view.core.shownType ∧
      (tryStartCm h peerId name authorized).view =
        { h.view with shown := h.view.shown ++ [d] } :=
  ⟨_, rfl, view_emit _ _⟩

/-! ## What decides depends on little -/

/-- The two connections try to log in with the same data. -/
structure SameLogin (c' c : Connection) : Prop where
  lr : c'.lr = c.lr
  ip : c'.ip = c.ip
  salt : c'.salt = c.salt
  challenge : c'.challenge = c.challenge
  isHeadlessAllowed : c'.isHeadlessAllowed = c.isHeadlessAllowed

theorem SameLogin.of_core {c c' : Connection} {m : ConnAuditPrimaryAuth}
    (same : c'.core = { c.core with primary := m }) : SameLogin c' c where
  lr := congrArg Core.lr same
  ip := congrArg Core.ip same
  salt := congrArg Core.salt same
  challenge := congrArg Core.challenge same
  isHeadlessAllowed := congrArg Core.isHeadlessAllowed same

section Congr
variable {p env} {g g' : Globals} {c c' : Connection}

theorem verifyH1_congr (same : SameLogin c' c) : verifyH1 p c' = verifyH1 p c := by
  funext h1
  simp [verifyH1, same.lr, same.challenge]

theorem validatePasswordPlain_congr (same : SameLogin c' c) :
    validatePasswordPlain p c' = validatePasswordPlain p c := by
  funext password
  simp [validatePasswordPlain, verifyH1_congr same, same.salt]

theorem temporaryPasswordVerifies_congr (same : SameLogin c' c)
    (password : g'.temporaryPassword = g.temporaryPassword) :
    temporaryPasswordVerifies p env g' c' = temporaryPasswordVerifies p env g c := by
  simp [temporaryPasswordVerifies, validatePasswordPlain_congr same, password]

theorem permanentPasswordVerifies_congr (same : SameLogin c' c) (allow : Bool) :
    permanentPasswordVerifies p env c' allow = permanentPasswordVerifies p env c allow := by
  simp [permanentPasswordVerifies, validatePasswordStorage, validatePresetPasswordStorage,
    verifyH1_congr same]

theorem rateLimited_congr (same : SameLogin c' c) (i : FailureKind)
    (failures : g'.failures i = g.failures i) :
    rateLimited env g' c' i = rateLimited env g c i := by
  simp [rateLimited, failures, same.ip]

theorem sessionKey_congr (lr : c'.lr = c.lr) : c'.sessionKey = c.sessionKey := by
  simp [Connection.sessionKey, lr]

theorem recentPasswordVerifies_congr (same : SameLogin c' c) :
    recentPasswordVerifies p env g c' = recentPasswordVerifies p env g c := by
  simp [recentPasswordVerifies, liveSession, sessionKey_congr same.lr, same.lr,
    validatePasswordPlain_congr same]

theorem passwordVerified_congr (same : SameLogin c' c) :
    PasswordVerified p env g c' ↔ PasswordVerified p env g c := by
  simp [PasswordVerified, recentPasswordVerifies_congr same, rateLimited_congr same .password rfl,
    temporaryPasswordVerifies_congr same rfl, permanentPasswordVerifies_congr same]

theorem startDesktopErr_congr (same : SameLogin c' c) :
    startDesktopErr p env c' = startDesktopErr p env c := by
  simp [startDesktopErr, same.isHeadlessAllowed]

theorem passesHeadless_congr (same : SameLogin c' c) :
    passesHeadless p env g c' = passesHeadless p env g c := by
  simp [passesHeadless, shouldCheckLinuxHeadlessOsAuthBeforeDesktopStart,
    same.isHeadlessAllowed, same.lr, rateLimited_congr same .password rfl]

theorem logsInTemporarily_congr (same : SameLogin c' c) :
    logsInTemporarily p env g c' = logsInTemporarily p env g c := by
  simp [logsInTemporarily, checksPassword, passesHeadless_congr same,
    startDesktopErr_congr same, recentPasswordVerifies_congr same, same.lr,
    rateLimited_congr same .password rfl, temporaryPasswordVerifies_congr same rfl]

theorem answersSilently_congr (same : SameLogin c' c) :
    answersSilently p env g c' = answersSilently p env g c := by
  simp [answersSilently, passesHeadless_congr same, startDesktopErr_congr same,
    recentPasswordVerifies_congr same, same.lr, rateLimited_congr same .password rfl]

theorem liveSession_sweep : liveSession env (sweepSessions env.now g) c = liveSession env g c := by
  unfold liveSession sweepSessions
  simp only [Option.filter_filter]
  congr 1
  funext s
  simp [Session.live]

theorem recentSecondFactor_congr (lr : c'.lr = c.lr) :
    recentSecondFactor env g c' = recentSecondFactor env g c := by
  simp [recentSecondFactor, liveSession, sessionKey_congr lr, lr]

theorem recentSecondFactor_sweep :
    recentSecondFactor env (sweepSessions env.now g) c = recentSecondFactor env g c := by
  simp [recentSecondFactor, liveSession_sweep]

/-- An entry that says no saves no second factor. -/
theorem recentSecondFactor_tfa (on : recentSecondFactor env g c = true) :
    g.tfa c.sessionKey = true := by
  simp only [recentSecondFactor, Option.any_eq_true, Bool.and_eq_true] at on
  obtain ⟨s, found, -, tfa⟩ := on
  simp only [liveSession, Option.filter_eq_some_iff] at found
  simp [Globals.tfa, found.1, tfa]

end Congr

/-! ## The ends -/

/-- A second factor in the sessions was there before, and its entry is not the
one that a login with the temporary password writes anew. -/
def SessionsKept (g : Globals) (c : Connection) (g' : Globals) : Prop :=
  ∀ key, g'.tfa key = true →
    g.tfa key = true ∧ ¬ (logsInTemporarily p env g c = true ∧ key = c.sessionKey)

inductive LoginEnd (h : Handling) : View → Bool → Prop where
  | closed (v : View) (unauthorized : v.core.authorized = false)
      (socket : v.core.portForwardSocket = h.conn.portForwardSocket)
      (sessions : SessionsKept p env h.globals h.conn v.globals) :
      LoginEnd h v false
  | silent (v : View) (m : ConnAuditPrimaryAuth)
      (quiet : answersSilently p env h.globals h.conn = true)
      (primary : m = h.view.core.primary ∨ PasswordVerified p env h.globals h.conn)
      (core : v.core = { h.view.core with primary := m }) (shown : v.shown = h.view.shown)
      (sessions : SessionsKept p env h.globals h.conn v.globals) :
      LoginEnd h v true
  | asked (v : View) (d : LoginData) (type : d.connType = h.view.core.shownType)
      (core : v.core = h.view.core) (shown : v.shown = h.view.shown ++ [d])
      (sessions : SessionsKept p env h.globals h.conn v.globals) :
      LoginEnd h v true
  | verified (h' : Handling) (m : ConnAuditPrimaryAuth) (v : View) (d : LoginData)
      (verified : PasswordVerified p env h.globals h.conn)
      (core : h'.view.core = { h.view.core with primary := m })
      (shown : h'.view.shown = h.view.shown)
      (second : SecondFactorGiven env h'.globals h'.conn →
        SecondFactorGiven env h.globals h.conn)
      (sessions : SessionsKept p env h.globals h.conn h'.globals)
      (logon : Logon env h' v true) (type : d.connType = v.core.shownType) :
      LoginEnd h { v with shown := v.shown ++ [d] } true

theorem Logon.tfa {h : Handling} {v : View} {keepAlive : Bool} (logon : Logon env h v keepAlive)
    {key : SessionKey} (on : v.globals.tfa key = true) : h.globals.tfa key = true := by
  have checked : (h.view.checked env).globals.tfa key = true → h.globals.tfa key = true := by
    unfold View.checked
    split
    · exact tfa_sweepSessions
    · exact id
  cases logon with
  | owes => exact checked on
  | closed => exact checked on
  | authorized => exact checked on

theorem logonAndStartCm_end {h h' : Handling} {m : ConnAuditPrimaryAuth}
    (unauthorized : h.conn.authorized = false)
    (verified : PasswordVerified p env h.globals h.conn)
    (core : h'.view.core = { h.view.core with primary := m })
    (shown : h'.view.shown = h.view.shown)
    (second : SecondFactorGiven env h'.globals h'.conn → SecondFactorGiven env h.globals h.conn)
    (sessions : SessionsKept p env h.globals h.conn h'.globals) (peerId name : String) :
    LoginEnd p env h (logonAndStartCm p env h' peerId name).1.view
      (logonAndStartCm p env h' peerId name).2 := by
  have still : h'.conn.authorized = false := (congrArg Core.authorized core).trans unauthorized
  have logon := logon_cases p env h' still
  unfold logonAndStartCm
  generalize sendLogonResponseAndKeepAlive p env h' = r at logon
  obtain ⟨h'', keepAlive⟩ := r
  cases keepAlive with
  | true =>
    obtain ⟨d, type, view⟩ := view_tryStartCm h'' peerId name h''.conn.authorized
    simp only at logon ⊢
    rw [view]
    exact .verified h' m _ d verified core shown second sessions logon type
  | false =>
    simp only at logon ⊢
    refine .closed _ ?_ ?_ fun key on => sessions key (logon.tfa env on)
    · generalize h''.view = v at logon
      cases logon with
      | closed k closed socket => exact closed
    · generalize h''.view = v at logon
      cases logon with
      | closed k closed socket =>
        exact socket.trans (congrArg Core.portForwardSocket core)

theorem askConnectionManager_end {h h' : Handling} (unauthorized : h.conn.authorized = false)
    (core : h'.view.core = h.view.core) (shown : h'.view.shown = h.view.shown)
    (kept : SessionsKept p env h.globals h.conn h'.globals) (lr : LoginRequest) :
    LoginEnd p env h (askConnectionManager p env h' lr).1.view
      (askConnectionManager p env h' lr).2 := by
  have prepared : ∀ r,
      (if shouldUseTerminalOsLoginScope p h'.conn.terminal lr.osLogin.username then
        prepareTerminalLoginForAuthorization p env h' else (h', none)) = r →
      r.1.view = h'.view ∧ r.2 ≠ some true := by
    rintro r rfl
    split
    · exact ⟨view_prepareTerminal p env h', prepareTerminal_close p env h'⟩
    · simp
  unfold askConnectionManager
  split
  · rename_i h'' keepAlive terminal
    obtain ⟨view, closes⟩ := prepared _ terminal
    have closed : keepAlive = false := by simpa using closes
    simp only at view
    rw [closed, view]
    exact .closed _ ((congrArg Core.authorized core).trans unauthorized)
      (congrArg Core.portForwardSocket core) kept
  · rename_i h'' terminal
    obtain ⟨view, -⟩ := prepared _ terminal
    obtain ⟨d, type, after⟩ := view_tryStartCm h'' lr.myId lr.myName false
    simp only at view ⊢
    rw [after, view]
    rw [view, core] at type
    exact .asked _ d type core (by rw [shown]) kept

theorem view_isRecentSession_password (h : Handling) :
    (isRecentSession p env h false).2 = recentPasswordVerifies p env h.globals h.conn ∧
      (isRecentSession p env h false).1.view =
        { h.view with
          core := { h.view.core with
            primary :=
              if recentPasswordVerifies p env h.globals h.conn then .temporaryPassword
              else h.view.core.primary }
          globals := sweepSessions env.now h.globals } := by
  unfold isRecentSession
  simp only [Bool.false_eq_true, if_false]
  split <;> rename_i recent
  · exact ⟨by simp [recent], by simp; rfl⟩
  · exact ⟨by simp [recent], by simp⟩

/-- The two ways in which `validate_password` succeeds. -/
theorem validatePassword_cases (h : Handling) (allow : Bool) :
    (temporaryPasswordVerifies p env h.globals h.conn = true ∧
      (validatePassword p env h allow).2 = true ∧
      (validatePassword p env h allow).1.view =
        { h.view with
          core := { h.view.core with primary := .temporaryPassword }
          globals := checkUpdateTemporaryPassword env
            (updateOrInsertSession env.now h.globals h.conn.sessionKey
              (some h.globals.temporaryPassword) (some false)) true }) ∨
    (temporaryPasswordVerifies p env h.globals h.conn = false ∧
      permanentPasswordVerifies p env h.conn allow = true ∧
      (validatePassword p env h allow).2 = true ∧
      (validatePassword p env h allow).1.view =
        { h.view with core := { h.view.core with primary := .permanentPassword } }) ∨
    (temporaryPasswordVerifies p env h.globals h.conn = false ∧
      (validatePassword p env h allow).2 = false ∧
      (validatePassword p env h allow).1.view = h.view) := by
  unfold validatePassword
  split <;> rename_i temporary
  · exact .inl ⟨temporary, rfl, rfl⟩
  · simp only [Bool.not_eq_true] at temporary
    split <;> rename_i permanent
    · exact .inr (.inl ⟨temporary, permanent, rfl, rfl⟩)
    · exact .inr (.inr ⟨temporary, rfl, rfl⟩)

theorem tfa_checkUpdateTemporaryPassword (g : Globals) (success : Bool) (key : SessionKey) :
    (checkUpdateTemporaryPassword env g success).tfa key = g.tfa key := by
  unfold checkUpdateTemporaryPassword
  simp only
  split_ifs <;> rfl

theorem tfa_updateFailure (h : Handling) (failure : Login.FailureEntry) (remove : Bool)
    (i : FailureKind) (key : SessionKey) :
    (updateFailure env h failure remove i).globals.tfa key = h.globals.tfa key := by
  cases i <;> rfl

/-- The login request reaches the check of its password, unless it is refused. -/
structure Asks (h : Handling) (errMsg : String) : Prop where
  unauthorized : h.conn.authorized = false
  headless : passesHeadless p env h.globals h.conn = true
  err : errMsg = startDesktopErr p env h.conn
  desktop : desktopFails errMsg = false
  click : clickOnly env (allowsLogonScreenPassword env) = false
  recent : recentPasswordVerifies p env h.globals h.conn = false
  password : h.conn.lr.password.isEmpty = false

section Asks
variable {p env} {h : Handling} {errMsg : String}

theorem Asks.logsInTemporarily_eq (asks : Asks p env h errMsg) :
    logsInTemporarily p env h.globals h.conn =
      (!rateLimited env h.globals h.conn .password &&
        temporaryPasswordVerifies p env h.globals h.conn) := by
  have desktop := asks.desktop
  rw [asks.err] at desktop
  simp [logsInTemporarily, checksPassword, asks.headless, desktop, asks.click, asks.recent,
    asks.password]

theorem Asks.silent_of_errMsg (asks : Asks p env h errMsg) (err : errMsg ≠ "") :
    answersSilently p env h.globals h.conn = true := by
  have err := err
  rw [asks.err] at err
  simp [answersSilently, asks.click, err]

theorem Asks.silent_of_rateLimited (asks : Asks p env h errMsg)
    (limited : rateLimited env h.globals h.conn .password = true) :
    answersSilently p env h.globals h.conn = true := by
  simp [answersSilently, asks.click, asks.recent, asks.password, limited]

end Asks

theorem SecondFactorGiven.of_core {h h' : Handling} {m : ConnAuditPrimaryAuth}
    (core : h'.view.core = { h.view.core with primary := m })
    (recent : recentSecondFactor env h'.globals h'.conn = true →
      recentSecondFactor env h.globals h.conn = true)
    (given : SecondFactorGiven env h'.globals h'.conn) :
    SecondFactorGiven env h.globals h.conn := by
  have require2fa : h'.conn.require2fa = h.conn.require2fa := congrArg Core.require2fa core
  have fromSwitch : h'.conn.fromSwitch = h.conn.fromSwitch := congrArg Core.fromSwitch core
  rcases given with none | switched | recent'
  · exact .inl (require2fa ▸ none)
  · exact .inr (.inl (fromSwitch ▸ switched))
  · exact .inr (.inr (recent recent'))

theorem recentSecondFactor_updateFailure (h : Handling) (failure : Login.FailureEntry)
    (remove : Bool) (i : FailureKind) (c : Connection) :
    recentSecondFactor env (updateFailure env h failure remove i).globals c =
      recentSecondFactor env h.globals c := by
  cases i <;> rfl

/-- What follows a right password. -/
theorem verified_end {h h' : Handling} {errMsg : String} {m : ConnAuditPrimaryAuth}
    (asks : Asks p env h errMsg) (verified : PasswordVerified p env h.globals h.conn)
    (core : h'.view.core = { h.view.core with primary := m })
    (shown : h'.view.shown = h.view.shown)
    (recent : recentSecondFactor env h'.globals h'.conn = true →
      recentSecondFactor env h.globals h.conn = true)
    (sessions : SessionsKept p env h.globals h.conn h'.globals)
    (failure : Login.FailureEntry) (r : Handling × Bool)
    (result : r = (let h'' := updateFailure env h' failure true .password
      if errMsg = "" then logonAndStartCm p env h'' h.conn.lr.myId h.conn.lr.myName
      else (sendLoginError env h'' errMsg, true))) :
    LoginEnd p env h r.1.view r.2 := by
  have kept : SessionsKept p env h.globals h.conn
      (updateFailure env h' failure true .password).globals :=
    fun key on => sessions key (by rwa [tfa_updateFailure] at on)
  have core' : (updateFailure env h' failure true .password).view.core =
      { h.view.core with primary := m } := core
  subst result
  simp only
  split <;> rename_i err
  · refine logonAndStartCm_end p env asks.unauthorized verified core' shown ?_ kept _ _
    refine SecondFactorGiven.of_core env core' fun on => recent ?_
    rwa [recentSecondFactor_updateFailure] at on
  · simp only [view_sendLoginError]
    exact .silent _ m (asks.silent_of_errMsg err) (.inr verified) core shown kept

/-- What sweeping the old sessions out of `h` leaves. -/
def Swept (h h' : Handling) : Prop :=
  h'.view = { h.view with globals := sweepSessions env.now h.globals }

section Swept
variable {p env} {h h₁ h₂ : Handling} {errMsg : String}

theorem Swept.globals (swept : Swept env h h₁) :
    h₁.globals = sweepSessions env.now h.globals := congrArg View.globals swept

theorem Swept.login (swept : Swept env h h₁) : SameLogin h₁.conn h.conn :=
  .of_core (congrArg View.core swept)

theorem Swept.temporary (swept : Swept env h h₁) :
    temporaryPasswordVerifies p env h₁.globals h₁.conn =
      temporaryPasswordVerifies p env h.globals h.conn :=
  temporaryPasswordVerifies_congr swept.login (by rw [swept.globals]; rfl)

theorem Swept.limited (swept : Swept env h h₁) :
    rateLimited env h₁.globals h₁.conn .password = rateLimited env h.globals h.conn .password :=
  rateLimited_congr swept.login .password (by rw [swept.globals]; rfl)

/-- A login that is not one with the temporary password does no more to the sessions
than to sweep them. -/
theorem sessionsKept_sweep (other : logsInTemporarily p env h.globals h.conn = false) :
    SessionsKept p env h.globals h.conn (sweepSessions env.now h.globals) :=
  fun _ on => ⟨tfa_sweepSessions on, by simp [other]⟩

theorem Asks.not_temporarily (asks : Asks p env h errMsg)
    (wrong : temporaryPasswordVerifies p env h.globals h.conn = false) :
    logsInTemporarily p env h.globals h.conn = false := by
  rw [asks.logsInTemporarily_eq, wrong, Bool.and_false]

theorem Asks.not_temporarily_of_limited (asks : Asks p env h errMsg)
    (limited : rateLimited env h.globals h.conn .password = true) :
    logsInTemporarily p env h.globals h.conn = false := by
  rw [asks.logsInTemporarily_eq, limited, Bool.not_true, Bool.false_and]

/-- The temporary password is right: the entry of the session is written anew,
without a second factor. -/
theorem temporaryPassword_end (asks : Asks p env h errMsg)
    (free : rateLimited env h.globals h.conn .password = false) (swept : Swept env h h₁)
    (yes : temporaryPasswordVerifies p env h₁.globals h₁.conn = true)
    (after : h₂.view =
      { h₁.view with
        core := { h₁.view.core with primary := .temporaryPassword }
        globals := checkUpdateTemporaryPassword env
          (updateOrInsertSession env.now h₁.globals h₁.conn.sessionKey
            (some h₁.globals.temporaryPassword) (some false)) true })
    (failure : Login.FailureEntry) (r : Handling × Bool)
    (result : r = (let h'' := updateFailure env h₂ failure true .password
      if errMsg = "" then logonAndStartCm p env h'' h.conn.lr.myId h.conn.lr.myName
      else (sendLoginError env h'' errMsg, true))) :
    LoginEnd p env h r.1.view r.2 := by
  have keyed : h₁.conn.sessionKey = h.conn.sessionKey := sessionKey_congr swept.login.lr
  have view : h₁.view = { h.view with globals := sweepSessions env.now h.globals } := swept
  have core₂ : h₂.view.core = { h.view.core with primary := .temporaryPassword } := by
    rw [after, view]
  have tfa₂ : ∀ key, h₂.globals.tfa key = true →
      key ≠ h.conn.sessionKey ∧ h.globals.tfa key = true := by
    intro key on
    have globals₂ : h₂.globals = _ := congrArg View.globals after
    rw [globals₂, tfa_checkUpdateTemporaryPassword, tfa_updateOrInsertSession, keyed,
      swept.globals] at on
    by_cases same : key = h.conn.sessionKey
    · simp [same] at on
    · exact ⟨same, tfa_sweepSessions (by simpa [same] using on)⟩
  have verified : PasswordVerified p env h.globals h.conn :=
    .inr ⟨free, .inl (swept.temporary ▸ yes)⟩
  refine verified_end p env asks verified core₂ (by rw [after, view]) (fun on => ?_)
    (fun key on => ?_) failure r result
  · have lr₂ : h₂.conn.lr = h.conn.lr := congrArg Core.lr core₂
    exact absurd (sessionKey_congr lr₂) (tfa₂ _ (recentSecondFactor_tfa on)).1
  · exact ⟨(tfa₂ key on).2, fun same => (tfa₂ key on).1 same.2⟩

/-- The permanent password is right: the sessions stay as they are. -/
theorem permanentPassword_end (asks : Asks p env h errMsg)
    (free : rateLimited env h.globals h.conn .password = false) (swept : Swept env h h₁)
    (no : temporaryPasswordVerifies p env h₁.globals h₁.conn = false)
    (yes : permanentPasswordVerifies p env h₁.conn (allowsLogonScreenPassword env) = true)
    (after : h₂.view =
      { h₁.view with core := { h₁.view.core with primary := .permanentPassword } })
    (failure : Login.FailureEntry) (r : Handling × Bool)
    (result : r = (let h'' := updateFailure env h₂ failure true .password
      if errMsg = "" then logonAndStartCm p env h'' h.conn.lr.myId h.conn.lr.myName
      else (sendLoginError env h'' errMsg, true))) :
    LoginEnd p env h r.1.view r.2 := by
  have view : h₁.view = { h.view with globals := sweepSessions env.now h.globals } := swept
  have core₂ : h₂.view.core = { h.view.core with primary := .permanentPassword } := by
    rw [after, view]
  have globals₂ : h₂.globals = sweepSessions env.now h.globals :=
    (congrArg View.globals after).trans swept.globals
  have other := asks.not_temporarily (swept.temporary.symm.trans no)
  rw [permanentPasswordVerifies_congr swept.login] at yes
  refine verified_end p env asks (.inr ⟨free, .inr yes⟩) core₂ (by rw [after, view])
    (fun on => ?_) ?_ failure r result
  · have lr₂ : h₂.conn.lr = h.conn.lr := congrArg Core.lr core₂
    rw [globals₂, recentSecondFactor_sweep, recentSecondFactor_congr lr₂] at on
    exact on
  · rw [globals₂]
    exact sessionsKept_sweep other

/-- The password is wrong: the failure is counted, and the peer is told. -/
theorem wrongPassword_end (asks : Asks p env h errMsg) (swept : Swept env h h₁)
    (no : temporaryPasswordVerifies p env h₁.globals h₁.conn = false) (after : h₂.view = h₁.view)
    (failure : Login.FailureEntry) (r : Handling × Bool)
    (result : r =
      (let h'' := updateFailure env h₂ failure false .password
      let h'' := h''.setGlobals (checkUpdateTemporaryPassword env h''.globals false)
      if errMsg = "" then
        (tryStartCm (sendLoginError env h'' loginMsgPasswordWrong) h.conn.lr.myId
          h.conn.lr.myName false, true)
      else (sendLoginError env h'' loginMsgDesktopSessionNotReadyPasswordWrong, true))) :
    LoginEnd p env h r.1.view r.2 := by
  have view : h₁.view = { h.view with globals := sweepSessions env.now h.globals } := swept
  have globals₂ : h₂.globals = sweepSessions env.now h.globals :=
    (congrArg View.globals after).trans swept.globals
  have other := asks.not_temporarily (swept.temporary.symm.trans no)
  have kept : SessionsKept p env h.globals h.conn (checkUpdateTemporaryPassword env
      (updateFailure env h₂ failure false .password).globals false) := by
    intro key on
    rw [tfa_checkUpdateTemporaryPassword, tfa_updateFailure, globals₂] at on
    exact sessionsKept_sweep other key on
  subst result
  simp only
  split <;> rename_i err
  · obtain ⟨d, type, shown⟩ := view_tryStartCm (sendLoginError env
      ((updateFailure env h₂ failure false .password).setGlobals
        (checkUpdateTemporaryPassword env
          (updateFailure env h₂ failure false .password).globals false))
      loginMsgPasswordWrong) h.conn.lr.myId h.conn.lr.myName false
    simp only [view_sendLoginError, view_setGlobals, view_updateFailure] at type shown ⊢
    rw [shown]
    rw [after, view] at type ⊢
    exact .asked _ d type rfl rfl kept
  · simp only [view_sendLoginError, view_setGlobals, view_updateFailure]
    rw [after, view]
    exact .silent _ _ (asks.silent_of_errMsg err) (.inl rfl) rfl rfl kept

end Swept

theorem checkPassword_end {h h' : Handling} {errMsg : String} (asks : Asks p env h errMsg)
    (swept : h'.view = { h.view with globals := sweepSessions env.now h.globals }) :
    LoginEnd p env h
      (checkPassword p env h' h.conn.lr (allowsLogonScreenPassword env) errMsg).1.view
      (checkPassword p env h' h.conn.lr (allowsLogonScreenPassword env) errMsg).2 := by
  have view := view_checkFailure env h' .password
  have admits := checkFailure_admits env h' .password
  rw [Swept.limited (show Swept env h h' from swept)] at admits
  rw [swept] at view
  unfold checkPassword
  generalize checkFailure env h' .password = checked at view admits
  obtain ⟨h₁, failure, admitted⟩ := checked
  simp only at view admits
  have swept₁ : Swept env h h₁ := view
  cases admitted with
  | false =>
    have limited : rateLimited env h.globals h.conn .password = true := by simpa using admits
    refine .silent _ h.view.core.primary (asks.silent_of_rateLimited limited) (.inl rfl)
      (by rw [view]) (by rw [view]) ?_
    rw [view]
    exact sessionsKept_sweep (asks.not_temporarily_of_limited limited)
  | true =>
    have free : rateLimited env h.globals h.conn .password = false := by simpa using admits
    have outcome := validatePassword_cases p env h₁ (allowsLogonScreenPassword env)
    simp only
    generalize validatePassword p env h₁ (allowsLogonScreenPassword env) = validated at outcome
    obtain ⟨h₂, ok⟩ := validated
    rcases outcome with ⟨yes, rfl, after⟩ | ⟨no, yes, rfl, after⟩ | ⟨no, rfl, after⟩
    · exact temporaryPassword_end asks free swept₁ yes after failure _ rfl
    · exact permanentPassword_end asks free swept₁ no yes after failure _ rfl
    · exact wrongPassword_end asks swept₁ no after failure _ rfl

/-- A recent session of the same key saves the password. -/
theorem recent_end {h h' : Handling} {errMsg : String} (unauthorized : h.conn.authorized = false)
    (err : errMsg = startDesktopErr p env h.conn)
    (click : clickOnly env (allowsLogonScreenPassword env) = false)
    (recent : recentPasswordVerifies p env h.globals h.conn = true)
    (core : h'.view.core = { h.view.core with primary := .temporaryPassword })
    (shown : h'.view.shown = h.view.shown)
    (globals : h'.globals = sweepSessions env.now h.globals) (r : Handling × Bool)
    (result : r = if errMsg = "" then logonAndStartCm p env h' h.conn.lr.myId h.conn.lr.myName
      else (sendLoginError env h' errMsg, true)) :
    LoginEnd p env h r.1.view r.2 := by
  have kept : SessionsKept p env h.globals h.conn h'.globals := by
    intro key on
    rw [globals] at on
    exact ⟨tfa_sweepSessions on, by simp [logsInTemporarily, checksPassword, recent]⟩
  subst result
  split <;> rename_i absent
  · refine logonAndStartCm_end p env unauthorized (.inl recent) core shown ?_ kept _ _
    refine SecondFactorGiven.of_core env core fun on => ?_
    have lr : h'.conn.lr = h.conn.lr := congrArg Core.lr core
    rwa [globals, recentSecondFactor_sweep, recentSecondFactor_congr lr] at on
  · simp only [view_sendLoginError]
    rw [err] at absent
    exact .silent _ _ (by simp [answersSilently, click, absent]) (.inr (.inl recent)) core shown
      kept

theorem authenticate_end {h : Handling} (unauthorized : h.conn.authorized = false)
    (headless : passesHeadless p env h.globals h.conn = true)
    (desktop : desktopFails (startDesktopErr p env h.conn) = false) :
    LoginEnd p env h (authenticate p env h h.conn.lr (startDesktopErr p env h.conn)).1.view
      (authenticate p env h h.conn.lr (startDesktopErr p env h.conn)).2 := by
  unfold authenticate
  cases click : clickOnly env (allowsLogonScreenPassword env) with
  | true =>
    have asked := askConnectionManager_end p env unauthorized rfl rfl
      (fun key on => ⟨on, by simp [logsInTemporarily, checksPassword, click]⟩) h.conn.lr
    simp only [if_true]
    generalize askConnectionManager p env h h.conn.lr = r at asked
    obtain ⟨h', keepAlive⟩ := r
    cases keepAlive with
    | false => exact asked
    | true =>
      simp only at asked ⊢
      split
      · simpa using asked
      · exact asked
  | false =>
    obtain ⟨found, view⟩ := view_isRecentSession_password p env h
    simp only [Bool.false_eq_true, if_false]
    generalize isRecentSession p env h false = r at found view
    obtain ⟨h', isRecent⟩ := r
    simp only at found view
    have globals : h'.globals = sweepSessions env.now h.globals := congrArg View.globals view
    cases isRecent with
    | true =>
      rw [← found, if_pos rfl] at view
      exact recent_end p env unauthorized rfl click found.symm (by rw [view]) (by rw [view])
        globals _ rfl
    | false =>
      rw [← found, if_neg Bool.false_ne_true] at view
      simp only
      split <;> rename_i password
      · have kept : SessionsKept p env h.globals h.conn h'.globals := by
          intro key on
          rw [globals] at on
          exact ⟨tfa_sweepSessions on, by simp [logsInTemporarily, checksPassword, password]⟩
        split <;> rename_i err
        · exact askConnectionManager_end p env unauthorized (by rw [view]) (by rw [view]) kept _
        · simp only [view_sendLoginError]
          exact .silent _ _ (by simp [answersSilently, click, err]) (.inl rfl) (by rw [view])
            (by rw [view]) kept
      · exact checkPassword_end p env
          ⟨unauthorized, headless, rfl, desktop, click, found.symm, by simpa using password⟩ view

theorem startDesktop_end {h : Handling} (unauthorized : h.conn.authorized = false)
    (headless : passesHeadless p env h.globals h.conn = true) :
    LoginEnd p env h (startDesktop p env h h.conn.lr).1.view
      (startDesktop p env h h.conn.lr).2 := by
  unfold startDesktop
  simp only
  split <;> rename_i fails
  · have quiet : answersSilently p env h.globals h.conn = true := by
      simp [answersSilently, fails]
    have kept : SessionsKept p env h.globals h.conn h.globals :=
      fun key on => ⟨on, by simp [logsInTemporarily, checksPassword, fails]⟩
    split
    · have view := view_checkFailure env h .password
      split <;> rename_i checked
      · rw [checked] at view
        simp only at view ⊢
        rw [view]
        exact .silent _ _ quiet (.inl rfl) rfl rfl kept
      · rename_i failure
        cases checkFailure_admitted env checked
        simp only [view_sendLoginError]
        exact .silent _ _ quiet (.inl rfl) rfl rfl
          fun key on => kept key (by rwa [← tfa_updateFailure env h failure false .password])
    · simp only [view_sendLoginError]
      exact .silent _ _ quiet (.inl rfl) rfl rfl kept
  · exact authenticate_end p env unauthorized headless (by simpa using fails)

theorem checkHeadless_end {h : Handling} (unauthorized : h.conn.authorized = false) :
    LoginEnd p env h (checkHeadless p env h h.conn.lr).1.view
      (checkHeadless p env h h.conn.lr).2 := by
  unfold checkHeadless
  split <;> rename_i checks
  · have view := view_checkFailure env h .password
    have admits := checkFailure_admits env h .password
    split <;> rename_i checked
    · rw [checked] at view admits
      have headless : passesHeadless p env h.globals h.conn = false := by
        simpa [passesHeadless, checks] using admits
      simp only at view ⊢
      rw [view]
      exact .silent _ _ (by simp [answersSilently, headless]) (.inl rfl) rfl rfl
        fun key on => ⟨on, by simp [logsInTemporarily, headless]⟩
    · rw [checked] at admits
      cases checkFailure_admitted env checked
      exact startDesktop_end p env unauthorized (by simpa [passesHeadless, checks] using admits)
  · exact startDesktop_end p env unauthorized (by simp [passesHeadless, checks])

/-! ## The scope of a request -/

/-- The session type that a login request asks for. -/
def requestedType (lr : LoginRequest) : AuthConnType :=
  match lr.union with
  | some (.fileTransfer _ _) => .fileTransfer
  | some (.portForward _) => .portForward
  | some .viewCamera => .viewCamera
  | some (.terminal _) => .terminal
  | none => .remote

/-- The scope fields are those of the login request. -/
structure Core.Scoped (k : Core) : Prop where
  fileTransfer : k.fileTransfer.isSome = decide (requestedType k.lr = .fileTransfer)
  viewCamera : k.viewCamera = decide (requestedType k.lr = .viewCamera)
  terminal : k.terminal = decide (requestedType k.lr = .terminal)
  portForward : k.portForwardAddress ≠ "" ↔ requestedType k.lr = .portForward

theorem Core.Scoped.shownType {k : Core} (scope : k.Scoped) : k.shownType = requestedType k.lr := by
  unfold Core.shownType
  rw [scope.fileTransfer, scope.viewCamera, scope.terminal]
  simp only [scope.portForward, decide_eq_true_eq]
  cases requestedType k.lr <;> simp

theorem Core.connected_eq {k : Core} (socket : k.portForwardSocket = none) :
    k.connected.portForwardSocket.isSome = decide (requestedType k.lr = .portForward) ∧
      k.connected.fileTransfer = k.fileTransfer ∧ k.connected.viewCamera = k.viewCamera ∧
      k.connected.terminal = k.terminal := by
  unfold Core.connected requestedType
  rw [socket]
  cases union : k.lr.union with
  | none => simp [socket]
  | some u => cases u <;> simp [socket]

/-- The connection is authorized with the type that its request asked for. -/
theorem Core.Scoped.authConnType {k : Core} (scope : k.Scoped)
    (socket : k.portForwardSocket = none) : k.connected.authConnType = requestedType k.lr := by
  obtain ⟨connected, fileTransfer, viewCamera, terminal⟩ := Core.connected_eq socket
  unfold Core.authConnType
  rw [connected, fileTransfer, viewCamera, terminal, scope.fileTransfer, scope.viewCamera,
    scope.terminal]
  cases requestedType k.lr <;> simp

theorem normalizePortForwardTarget_ne (pf : PortForward) :
    (normalizePortForwardTarget pf).1 ≠ "" := by
  simp [normalizePortForwardTarget]

/-- The core once the request has chosen the scope. -/
def Core.request (k : Core) (lr : LoginRequest) (trusted : Bool) : Core :=
  { k with
    lr
    require2fa := if trusted then none else k.require2fa
    fileTransfer :=
      match lr.union with
      | some (.fileTransfer dir showHidden) => some (dir, showHidden)
      | _ => none
    viewCamera := decide (requestedType lr = .viewCamera)
    terminal := decide (requestedType lr = .terminal)
    portForwardAddress :=
      match lr.union with
      | some (.portForward pf) => (normalizePortForwardTarget pf).1
      | _ => "" }

theorem Core.request_scoped (k : Core) (lr : LoginRequest) (trusted : Bool) :
    (k.request lr trusted).Scoped := by
  cases union : lr.union with
  | none => constructor <;> simp [Core.request, requestedType, union]
  | some u =>
    cases u <;> constructor <;>
      simp [Core.request, requestedType, union, normalizePortForwardTarget_ne]

theorem selectSessionScope_toBool (c c' : Connection) (lr : LoginRequest) :
    (selectSessionScope p env c lr).toBool = (selectSessionScope p env c' lr).toBool := by
  unfold selectSessionScope
  (repeat' split) <;> simp_all [Except.toBool]

/-- The request is not refused before its password counts. -/
def opensSession (c : Connection) (lr : LoginRequest) : Bool :=
  (selectSessionScope p env c lr).toBool &&
    !(!p.isDirectIpAccess lr.username && lr.username ≠ env.ownId) &&
    !(p.os = .windows && requestedType lr = .terminal && isBlank lr.osLogin.username &&
      env.isPrelogin)

/-- The request matches an unexpired trusted device, and the second factor is due. -/
def clearsSecondFactor (g : Globals) (c : Connection) (lr : LoginRequest) : Bool :=
  c.require2fa.isSome && trustedDeviceMatches p env g lr

theorem view_handleLoginRequest (h : Handling) (lr : LoginRequest) :
    (handleLoginRequestWithoutValidation p env h lr).view =
      { h.view with
        core := { h.view.core with
          lr
          require2fa :=
            if clearsSecondFactor p env h.globals h.conn lr then none
            else h.view.core.require2fa } } := by
  unfold handleLoginRequestWithoutValidation clearsSecondFactor
  simp only
  split <;> rfl

theorem selectSessionScope_core {c c' : Connection} {lr : LoginRequest}
    (selected : selectSessionScope p env c lr = .ok c') :
    c'.core = { c.core with
      fileTransfer :=
        match lr.union with
        | some (.fileTransfer dir showHidden) => some (dir, showHidden)
        | _ => c.fileTransfer
      viewCamera := decide (requestedType lr = .viewCamera) || c.viewCamera
      terminal := decide (requestedType lr = .terminal) || c.terminal
      portForwardAddress :=
        match lr.union with
        | some (.portForward pf) => (normalizePortForwardTarget pf).1
        | _ => c.portForwardAddress } := by
  unfold selectSessionScope at selected
  unfold requestedType
  cases union : lr.union with
  | none =>
    simp only [union] at selected
    split at selected <;> cases selected
    rfl
  | some u =>
    simp only [union] at selected
    cases u <;> simp only at selected <;> (repeat' split at selected) <;> cases selected <;> rfl

theorem view_resetSessionScope (h : Handling) :
    (resetSessionScopeForLogin h).view =
      { h.view with
        core := { h.view.core with
          fileTransfer := none, viewCamera := false, terminal := false
          portForwardAddress := "" } } := rfl

theorem SameLogin.of_request {c c' : Connection} {lr : LoginRequest} {trusted : Bool}
    (same : c'.core = c.core.request lr trusted) : SameLogin c' { c with lr } where
  lr := congrArg Core.lr same
  ip := congrArg Core.ip same
  salt := congrArg Core.salt same
  challenge := congrArg Core.challenge same
  isHeadlessAllowed := congrArg Core.isHeadlessAllowed same

theorem view_selectSessionScope {h : Handling} {lr : LoginRequest} {c : Connection}
    (selected : selectSessionScope p env
      (resetSessionScopeForLogin (handleLoginRequestWithoutValidation p env h lr)).conn lr =
        .ok c) :
    ((resetSessionScopeForLogin (handleLoginRequestWithoutValidation p env h lr)).setConn c).view =
      { h.view with
        core := h.view.core.request lr (clearsSecondFactor p env h.globals h.conn lr) } := by
  have view := view_handleLoginRequest p env h lr
  have core := selectSessionScope_core p env selected
  generalize handleLoginRequestWithoutValidation p env h lr = h₁ at view core
  calc ((resetSessionScopeForLogin h₁).setConn c).view
      = { h₁.view with core := c.core } := rfl
    _ = { h₁.view with core := { h₁.view.core with
          fileTransfer :=
            match lr.union with
            | some (.fileTransfer dir showHidden) => some (dir, showHidden)
            | _ => none
          viewCamera := decide (requestedType lr = .viewCamera) || false
          terminal := decide (requestedType lr = .terminal) || false
          portForwardAddress :=
            match lr.union with
            | some (.portForward pf) => (normalizePortForwardTarget pf).1
            | _ => "" } } := by rw [core]; rfl
    _ = _ := by rw [view]; simp only [Bool.or_false]; rfl

/-- A login request is closed before its scope counts, or it chooses its scope
and then ends in one of the ways of `LoginEnd`. -/
theorem onLoginRequest_cases {h : Handling} (lr : LoginRequest)
    (unauthorized : h.conn.authorized = false) :
    (∃ k : Core, k.authorized = false ∧ k.portForwardSocket = h.conn.portForwardSocket ∧
      opensSession p env h.conn lr = false ∧
      (onLoginRequest p env h lr).1.view = { h.view with core := k } ∧
      (onLoginRequest p env h lr).2 = false) ∨
    ∃ h' : Handling, opensSession p env h.conn lr = true ∧
      h'.view = { h.view with
        core := h.view.core.request lr (clearsSecondFactor p env h.globals h.conn lr) } ∧
      LoginEnd p env h' (onLoginRequest p env h lr).1.view (onLoginRequest p env h lr).2 := by
  have view := view_handleLoginRequest p env h lr
  have chosen := @view_selectSessionScope p env h lr
  unfold onLoginRequest
  generalize handleLoginRequestWithoutValidation p env h lr = h₁ at view chosen
  have still : h₁.conn.authorized = false :=
    (congrArg (·.core.authorized) view).trans unauthorized
  simp only [still, Bool.false_eq_true, if_false]
  have opens := selectSessionScope_toBool p env h.conn (resetSessionScopeForLogin h₁).conn lr
  unfold opensSession
  rw [opens]
  cases selected : selectSessionScope p env (resetSessionScopeForLogin h₁).conn lr with
  | error err =>
    refine .inl ⟨(resetSessionScopeForLogin h₁).view.core, still,
      congrArg (·.core.portForwardSocket) view, by simp [Except.toBool], ?_, rfl⟩
    simp only [view_sendLoginError, view_resetSessionScope]
    rw [view]
  | ok c =>
    have chosen := chosen selected
    have closed (err : String) :
        (sendLoginError env ((resetSessionScopeForLogin h₁).setConn c) err).view =
          { h.view with
            core := h.view.core.request lr (clearsSecondFactor p env h.globals h.conn lr) } :=
      (view_sendLoginError env _ _).trans chosen
    have terminal : c.terminal = decide (requestedType lr = .terminal) :=
      congrArg (·.core.terminal) chosen
    rw [← terminal]
    simp only
    split <;> rename_i online
    · exact .inl ⟨_, unauthorized, rfl, by rw [online]; rfl, closed _, rfl⟩
    split <;> rename_i prelogin
    · exact .inl ⟨_, unauthorized, rfl, by rw [prelogin]; simp, closed _, rfl⟩
    have started : ∀ h₃, h₃ = (if p.os.mobile || shouldUseTerminalOsLoginScope p c.terminal
          lr.osLogin.username then (resetSessionScopeForLogin h₁).setConn c
        else tryStartCmIpc ((resetSessionScopeForLogin h₁).setConn c)) → h₃.view =
          { h.view with
            core := h.view.core.request lr (clearsSecondFactor p env h.globals h.conn lr) } := by
      rintro h₃ rfl
      split
      · exact chosen
      · exact (view_tryStartCmIpc _).trans chosen
    generalize (if p.os.mobile || shouldUseTerminalOsLoginScope p c.terminal
      lr.osLogin.username then (resetSessionScopeForLogin h₁).setConn c
        else tryStartCmIpc ((resetSessionScopeForLogin h₁).setConn c)) = h₃ at started ⊢
    have view₃ := started h₃ rfl
    have lr₃ : h₃.conn.lr = lr := congrArg (·.core.lr) view₃
    rw [Bool.not_eq_true] at online prelogin
    refine .inr ⟨h₃, by rw [online, prelogin]; rfl, view₃, ?_⟩
    have ended := checkHeadless_end p env (h := h₃)
      ((congrArg (·.core.authorized) view₃).trans unauthorized)
    rwa [lr₃] at ended

end CamelliaRemote.Server
