import CamelliaRemote.Server.LoginEnd

namespace CamelliaRemote.Server

variable (p : Host) (env : Env)

/-- The code is checked and right. -/
def acceptsTotp (g : Globals) (c : Connection) (tfa : Auth2fa) : Bool :=
  !rateLimited env g c .tfa && c.require2fa.bind (p.checkCurrent · env.time tfa.code) = some true

/-- The response carries the uuid stored for its peer. -/
def acceptsSwitch (g : Globals) (s : SwitchSidesResponse) : Bool :=
  p.flutter && !p.os.mobile && s.lr.any fun lr => switchUuidMatches env g s.uuid lr.myId

/-- The turn is a primary authentication. -/
def EstablishesPrimary (g : Globals) (c : Connection) : Turn → Prop
  | .message (some (.loginRequest lr)) => PasswordVerified p env g { c with lr }
  | .message (some (.switchSidesResponse s)) => acceptsSwitch p env g s = true
  | .cm .authorize => True
  | _ => False

/-- The turn is a second factor, or stands for one. -/
def GivesSecondFactor (g : Globals) (c : Connection) : Turn → Prop
  | .message (some (.loginRequest lr)) =>
    trustedDeviceMatches p env g lr = true ∨ recentSecondFactor env g { c with lr } = true
  | .message (some (.auth2fa tfa)) => acceptsTotp p env g c tfa = true
  | .message (some (.switchSidesResponse s)) => acceptsSwitch p env g s = true
  | .cm .authorize => True
  | _ => False

/-- The turn is a right second factor that is sent as such. -/
def VerifiesTotp (g : Globals) (c : Connection) : Turn → Prop
  | .message (some (.auth2fa tfa)) => acceptsTotp p env g c tfa = true
  | _ => False

/-- The login request keeps the connection open and is not shown to the local user. -/
def staysSilent (g : Globals) (c : Connection) (lr : LoginRequest) : Bool :=
  opensSession p env c lr && answersSilently p env g { c with lr }

/-- The core of a connection that is let in. -/
def Core.granted (k : Core) (lock : Bool) : Core :=
  { k.connected with
    authorized := true
    authedConnId := some k.connected.authConnType
    lockAfterSessionEnd := lock }

inductive TurnEnd (h : Handling) (t : Turn) (after : View) : Bool → Prop where
  | closed (unauthorized : after.core.authorized = false)
      (socket : after.core.portForwardSocket = none) : TurnEnd h t after false
  | idle (core : after.core = h.view.core) (shown : after.shown = h.view.shown) :
      TurnEnd h t after true
  | waits (lr : LoginRequest) (m : ConnAuditPrimaryAuth)
      (turn : t = .message (some (.loginRequest lr)))
      (core : after.core =
        { h.view.core.request lr (clearsSecondFactor p env h.globals h.conn lr) with primary := m })
      (primary : m = h.view.core.primary ∨ EstablishesPrimary p env h.globals h.conn t)
      (shown : staysSilent p env h.globals h.conn lr = true ∧ after.shown = h.view.shown ∨
        ∃ d : LoginData, d.connType = requestedType lr ∧ after.shown = h.view.shown ++ [d]) :
      TurnEnd h t after true
  | authorized (k : Core) (lock again : Bool) (socket : k.portForwardSocket = none)
      (kept : k.lockAfterSessionEnd = h.view.core.lockAfterSessionEnd)
      (source : lock → k.lockAfterSessionEnd ∨ k.connected.authConnType = .remote)
      (core : after.core = k.granted lock)
      (primary : EstablishesPrimary p env h.globals h.conn t ∨
        VerifiesTotp p env h.globals h.conn t)
      (second : GivesSecondFactor p env h.globals h.conn t ∨ h.conn.require2fa = none ∨
        h.conn.fromSwitch = true)
      (approved : t = .cm .authorize →
        k = { h.view.core with primary := .click, require2fa := none }) :
      TurnEnd h t after again

section
variable {p env} {h h' : Handling} {t : Turn} {v : View} {again : Bool}

/-- A logon whose second factor is given closes the connection or lets it in. -/
theorem Logon.of_given (logon : Logon env h v again)
    (given : SecondFactorGiven env h.globals h.conn) (socket : h.conn.portForwardSocket = none) :
    again = false ∧ v.core.authorized = false ∧ v.core.portForwardSocket = none ∨
      ∃ lock : Bool, (lock → h.view.core.lockAfterSessionEnd ∨
          h.view.core.connected.authConnType = .remote) ∧
        v.core = h.view.core.granted lock := by
  cases logon with
  | owes missing => exact absurd given missing
  | closed k unauthorized same => exact .inl ⟨rfl, unauthorized, same.trans socket⟩
  | authorized lock source given => exact .inr ⟨lock, source, rfl⟩

/-- The end of a turn that logs on. -/
theorem Logon.turnEnd {after : View} {b : Bool} (logon : Logon env h' v b)
    (given : SecondFactorGiven env h'.globals h'.conn)
    (socket : h'.conn.portForwardSocket = none)
    (kept : h'.conn.options.lockAfterSessionEnd = h.view.core.lockAfterSessionEnd)
    (core : after.core = v.core) (result : b = false → again = false)
    (primary : EstablishesPrimary p env h.globals h.conn t ∨ VerifiesTotp p env h.globals h.conn t)
    (second : GivesSecondFactor p env h.globals h.conn t ∨ h.conn.require2fa = none ∨
      h.conn.fromSwitch = true)
    (approved : t = .cm .authorize →
      h'.view.core = { h.view.core with primary := .click, require2fa := none }) :
    TurnEnd p env h t after again := by
  rcases logon.of_given given socket with ⟨closed, unauthorized, none⟩ | ⟨lock, source, granted⟩
  · rw [result closed]
    exact .closed (core ▸ unauthorized) (core ▸ none)
  · exact .authorized h'.view.core lock again socket kept source (core.trans granted) primary
      second approved

end

/-- What a login request makes of the second factor. -/
theorem SecondFactorGiven.of_request {h h' : Handling} {lr : LoginRequest}
    (view : h'.view = { h.view with
      core := h.view.core.request lr (clearsSecondFactor p env h.globals h.conn lr) })
    (given : SecondFactorGiven env h'.globals h'.conn) :
    GivesSecondFactor p env h.globals h.conn (.message (some (.loginRequest lr))) ∨
      h.conn.require2fa = none ∨ h.conn.fromSwitch = true := by
  have globals : h'.globals = h.globals := congrArg View.globals view
  have core : h'.conn.core = h.conn.core.request lr _ := congrArg View.core view
  have lr' : h'.conn.lr = lr := congrArg Core.lr core
  rcases given with absent | switched | recent
  · have absent : (if clearsSecondFactor p env h.globals h.conn lr then none
        else h.conn.require2fa) = none := (congrArg Core.require2fa core).symm.trans absent
    split at absent <;> rename_i clears
    · simp only [clearsSecondFactor, Bool.and_eq_true] at clears
      exact .inl (.inl clears.2)
    · exact .inr (.inl absent)
  · exact .inr (.inr ((congrArg Core.fromSwitch core).symm.trans switched))
  · have same : recentSecondFactor env h.globals { h.conn with lr } =
        recentSecondFactor env h.globals h'.conn := recentSecondFactor_congr lr'.symm
    rw [globals, ← same] at recent
    exact .inl (.inr recent)

theorem loginRequest_turnEnd {h : Handling} (lr : LoginRequest)
    (unauthorized : h.conn.authorized = false) (socket : h.conn.portForwardSocket = none) :
    TurnEnd p env h (.message (some (.loginRequest lr))) (onLoginRequest p env h lr).1.view
      (onLoginRequest p env h lr).2 := by
  rcases onLoginRequest_cases p env lr unauthorized with
    ⟨k, out, same, -, view, result⟩ | ⟨h', opens, view, ended⟩
  · rw [view, result]
    exact .closed out (same.trans socket)
  have globals : h'.globals = h.globals := congrArg View.globals view
  have core : h'.view.core = h.view.core.request lr _ := congrArg View.core view
  have shown : h'.view.shown = h.view.shown := by rw [view]
  have same : SameLogin h'.conn { h.conn with lr } := .of_request core
  have verified : PasswordVerified p env h'.globals h'.conn →
      EstablishesPrimary p env h.globals h.conn (.message (some (.loginRequest lr))) := by
    rw [globals]
    exact (passwordVerified_congr same).mp
  have type (m : ConnAuditPrimaryAuth) :
      { h'.view.core with primary := m }.shownType = requestedType lr := by
    rw [core]
    exact (Core.request_scoped h.view.core lr
      (clearsSecondFactor p env h.globals h.conn lr)).shownType
  generalize onLoginRequest p env h lr = r at ended
  obtain ⟨after, again⟩ := r
  simp only at ended ⊢
  generalize after.view = v at ended ⊢
  cases ended with
  | closed _ out same _ =>
    exact .closed out (same.trans ((congrArg Core.portForwardSocket core).trans socket))
  | silent _ m quiet primary after shown' sessions =>
    refine .waits lr m rfl (by rw [after, core]) ?_ (.inl ⟨?_, shown'.trans shown⟩)
    · exact primary.imp (·.trans (by rw [core]; rfl)) verified
    · rw [globals, answersSilently_congr same] at quiet
      simp [staysSilent, opens, quiet]
  | asked _ d shows after shown' sessions =>
    refine .waits lr h.view.core.primary rfl (by rw [after, core]; rfl) (.inl rfl)
      (.inr ⟨d, shows.trans (type h'.view.core.primary), by rw [shown', shown]⟩)
  | verified h'' m v d right after shown' second sessions logon shows =>
    cases logon with
    | owes missing =>
      rw [checked_core, after, type] at shows
      refine .waits lr m rfl (by rw [checked_core, after, core]) (.inr (verified right))
        (.inr ⟨d, shows, ?_⟩)
      have kept : (h''.view.checked env).shown = h''.view.shown := by
        unfold View.checked
        split <;> rfl
      simp only
      rw [kept, shown', shown]
    | authorized lock source given =>
      have socket'' : h''.view.core.portForwardSocket = none := by
        rw [after, core]
        exact socket
      refine .authorized h''.view.core lock true socket'' (by rw [after, core]; rfl) source rfl
        (.inl (verified right)) (SecondFactorGiven.of_request p env view (second given)) ?_
      simp

theorem view_addTrustedDevice (h : Handling) (tfa : Auth2fa) :
    (addTrustedDevice env h tfa).view.core = h.view.core := by
  unfold addTrustedDevice
  split <;> rfl

/-- `logonAndStartCm` is the logon, shown to the connection manager if the
connection stays. -/
theorem logonAndStartCm_logon {h : Handling} (unauthorized : h.conn.authorized = false)
    (peerId name : String) :
    ∃ v, Logon env h v (logonAndStartCm p env h peerId name).2 ∧
      (logonAndStartCm p env h peerId name).1.view.core = v.core := by
  have logon := logon_cases p env h unauthorized
  unfold logonAndStartCm
  generalize sendLogonResponseAndKeepAlive p env h = r at logon
  obtain ⟨h', keepAlive⟩ := r
  refine ⟨h'.view, ?_, ?_⟩
  · cases keepAlive <;> exact logon
  · cases keepAlive with
    | false => rfl
    | true =>
      obtain ⟨d, -, view⟩ := view_tryStartCm h' peerId name h'.conn.authorized
      simp only
      rw [view]

theorem passSecondFactor_core (h : Handling) (failure : Login.FailureEntry) :
    (passSecondFactor env h failure).view.core = { h.view.core with require2fa := none } := rfl

theorem auth2fa_turnEnd {h : Handling} (tfa : Auth2fa)
    (unauthorized : h.conn.authorized = false) (socket : h.conn.portForwardSocket = none) :
    TurnEnd p env h (.message (some (.auth2fa tfa))) (onAuth2fa p env h tfa).1.view
      (onAuth2fa p env h tfa).2 := by
  have view := view_checkFailure env h .tfa
  have admits := checkFailure_admits env h .tfa
  unfold onAuth2fa
  split <;> rename_i failure checked
  · rw [checked] at view
    simp only at view ⊢
    rw [view]
    exact .idle rfl rfl
  rw [checked] at admits
  cases checkFailure_admitted env checked
  split <;> rename_i code
  · exact .idle rfl rfl
  · exact .idle (by simp) (by simp)
  have accepted : acceptsTotp p env h.globals h.conn tfa = true := by
    simpa [acceptsTotp, code] using admits
  have core := passSecondFactor_core env h failure
  simp only
  generalize passSecondFactor env h failure = h₂ at core ⊢
  obtain ⟨v, logon, same⟩ := logonAndStartCm_logon p env
    ((congrArg Core.authorized core).trans unauthorized) h₂.conn.lr.myId h₂.conn.lr.myName
  generalize logonAndStartCm p env h₂ h₂.conn.lr.myId h₂.conn.lr.myName = r at logon same ⊢
  obtain ⟨h₃, keepAlive⟩ := r
  refine logon.turnEnd (.inl (congrArg Core.require2fa core))
    ((congrArg Core.portForwardSocket core).trans socket)
    (congrArg Core.lockAfterSessionEnd core) ?_ ?_ (.inr accepted) (.inl accepted) nofun
  · cases keepAlive with
    | false => exact same
    | true => exact (view_addTrustedDevice env h₃ tfa).trans same
  · rintro rfl
    rfl

theorem authorize_turnEnd {h : Handling} (unauthorized : h.conn.authorized = false)
    (socket : h.conn.portForwardSocket = none) :
    TurnEnd p env h (.cm .authorize) (onCm p env h .authorize).1.view
      (onCm p env h .authorize).2 := by
  have logon := logon_cases p env
    (h.setConn { h.conn with connAuditPrimaryAuth := .click, require2fa := none }) unauthorized
  refine logon.turnEnd (.inl rfl) socket rfl rfl ?_ (.inl trivial) (.inl trivial) fun _ => rfl
  intro closed
  simp only [onCm, onAuthorize]
  rw [closed]
  rfl

theorem switchSides_core (h : Handling) (lr : LoginRequest) :
    ∃ require2fa, (switchSides p env h lr).view.core =
      { h.view.core with
        lr, require2fa, fromSwitch := true, primary := .switchSides
        fileTransfer := none, viewCamera := false, terminal := false
        portForwardAddress := "" } := by
  unfold switchSides handleLoginRequestWithoutValidation
  simp only
  split
  · exact ⟨none, rfl⟩
  · exact ⟨h.conn.require2fa, rfl⟩

theorem switchSides_turnEnd {h : Handling} (s : SwitchSidesResponse)
    (unauthorized : h.conn.authorized = false) (socket : h.conn.portForwardSocket = none) :
    TurnEnd p env h (.message (some (.switchSidesResponse s)))
      (onSwitchSidesResponse p env h s).1.view (onSwitchSidesResponse p env h s).2 := by
  unfold onSwitchSidesResponse
  split <;> rename_i build
  · exact .idle rfl rfl
  split <;> rename_i found
  · exact .idle rfl rfl
  rename_i lr
  simp only
  split <;> rename_i same
  · exact .idle rfl rfl
  have accepted : acceptsSwitch p env h.globals s = true := by
    simp_all [acceptsSwitch]
  split
  · simp only [view_sendLoginError]
    exact .closed unauthorized socket
  obtain ⟨require2fa, core⟩ := switchSides_core p env
    (h.setGlobals (takeSwitchUuid env h.globals lr.myId)) lr
  generalize switchSides p env (h.setGlobals (takeSwitchUuid env h.globals lr.myId)) lr = h₁
    at core ⊢
  obtain ⟨v, logon, after⟩ := logonAndStartCm_logon p env
    ((congrArg Core.authorized core).trans unauthorized) lr.myId lr.myName
  generalize logonAndStartCm p env h₁ lr.myId lr.myName = r at logon after ⊢
  obtain ⟨h₂, keepAlive⟩ := r
  refine logon.turnEnd (.inr (.inl (congrArg Core.fromSwitch core)))
    ((congrArg Core.portForwardSocket core).trans socket)
    (congrArg Core.lockAfterSessionEnd core) ?_ ?_ (.inl accepted) (.inl accepted) nofun
  · cases keepAlive with
    | false => exact after
    | true => rw [← after]; exact congrArg View.core (view_tryStartCmIpc h₂)
  · rintro rfl
    rfl

/-- Setting fields of the connection that are not in its core. -/
theorem view_setConn {h : Handling} {c : Connection} (same : c.core = h.conn.core) :
    (h.setConn c).view = h.view := by
  simp [Handling.view, same]

theorem view_setSocket (h : Handling) :
    (h.setConn { h.conn with portForwardSocket := none }).view =
      { h.view with core := { h.view.core with portForwardSocket := none } } := rfl

theorem view_onClose (h : Handling) (lock : Bool) :
    (onClose p h lock).view =
      { h.view with
        core := { h.view.core with
          portForwardSocket := if h.conn.closed then h.conn.portForwardSocket else none } } := by
  unfold onClose
  split
  · rfl
  simp only
  refine (view_setSocket _).trans (congrArg (fun v : View =>
    { v with core := { v.core with portForwardSocket := none } }) ?_)
  split <;> split <;> simp [Handling.sendToCm] <;> exact view_setConn rfl

theorem view_sendCloseReasonNoRetry (h : Handling) (reason : String) :
    (sendCloseReasonNoRetry h reason).view.core = h.view.core := by
  simp [sendCloseReasonNoRetry]

/-- A closed connection stays without authorization and without a socket. -/
theorem onClose_turnEnd {h h' : Handling} {t : Turn} {v : View}
    (unauthorized : h.conn.authorized = false) (socket : h.conn.portForwardSocket = none)
    (core : h'.view.core = h.view.core) (lock : Bool)
    (after : v.core = (onClose p h' lock).view.core) :
    TurnEnd p env h t v false := by
  have socket' : h'.conn.portForwardSocket = none :=
    (congrArg Core.portForwardSocket core).trans socket
  rw [view_onClose] at after
  refine .closed ?_ ?_
  · rw [after]
    exact (congrArg Core.authorized core).trans unauthorized
  · rw [after]
    simp only [socket', ite_self]

theorem view_onTestDelay (h : Handling) (t : TestDelay) : (onTestDelay env h t).view = h.view := by
  unfold onTestDelay
  split
  · simp
  split
  · rfl
  · exact (view_emit _ _).trans rfl

theorem view_closeVoiceCall (h : Handling) : (closeVoiceCall h).view = h.view := by
  unfold closeVoiceCall
  simp only
  split
  · rw [view_subscribe]
    exact (view_setConn (by rfl)).trans (by simp [Handling.sendToCm])
  · exact (view_setConn (by rfl)).trans (by simp [Handling.sendToCm])

theorem view_handleVoiceCall (h : Handling) (accepted : Bool) :
    (handleVoiceCall h accepted).view = h.view := by
  unfold handleVoiceCall
  split
  · rfl
  simp only
  split <;> split <;> simp [Handling.sendToCm] <;> exact view_setConn rfl

theorem view_revokePrivacyMode (h : Handling) : (revokePrivacyMode env h).1.view = h.view := by
  unfold revokePrivacyMode
  split
  · simp only
    split <;> simp [Handling.sendToCm]
  · rfl

theorem core_setPermission (c : Connection) (name : PermissionName) (enabled : Bool) :
    (setPermission c name enabled).core = c.core := by
  cases name <;> rfl

theorem view_resubscribe (h : Handling) (name : PermissionName) (enabled : Bool) :
    (resubscribe p env h name enabled).view = h.view := by
  unfold resubscribe
  cases name <;> simp only [view_subscribe] <;> (repeat' split) <;> simp

theorem view_onSwitchPermission (h : Handling) (name : PermissionName) (enabled : Bool) :
    (onSwitchPermission p env h name enabled).view = h.view := by
  have revoked : ∀ r, (if name = .privacyMode && !enabled then revokePrivacyMode env h
      else (h, true)) = r → r.1.view = h.view := by
    rintro r rfl
    split
    · exact view_revokePrivacyMode env h
    · rfl
  unfold onSwitchPermission
  split <;> rename_i h' result
  · exact revoked _ result
  · simp only [view_resubscribe, view_send]
    exact (view_setConn (core_setPermission _ _ _)).trans (revoked _ result)

theorem message_turnEnd {h : Handling} (msg : Message) (unauthorized : h.conn.authorized = false)
    (socket : h.conn.portForwardSocket = none) :
    TurnEnd p env h (.message msg) (onMessage p env h msg).1.view (onMessage p env h msg).2 := by
  unfold onMessage
  split
  · exact onClose_turnEnd p env unauthorized socket rfl true rfl
  simp only [unauthorized, Bool.false_eq_true, if_false]
  unfold dispatch
  split
  · exact loginRequest_turnEnd p env _ unauthorized socket
  · exact auth2fa_turnEnd p env _ unauthorized socket
  · exact .idle (by rw [view_onTestDelay]) (by rw [view_onTestDelay])
  · exact switchSides_turnEnd p env _ unauthorized socket
  · simp only [unauthorized, Bool.false_and, Bool.false_eq_true, if_false]
    exact .idle rfl rfl
  · exact .idle rfl rfl

theorem TurnEnd.of_view {h : Handling} {t : Turn} {v : View} (view : v = h.view) :
    TurnEnd p env h t v true := .idle (by rw [view]) (by rw [view])

theorem cm_turnEnd {h : Handling} (data : FromCm) (unauthorized : h.conn.authorized = false)
    (socket : h.conn.portForwardSocket = none) :
    TurnEnd p env h (.cm data) (onCm p env h data).1.view (onCm p env h data).2 := by
  cases data with
  | authorize => exact authorize_turnEnd p env unauthorized socket
  | close =>
    refine onClose_turnEnd p env unauthorized socket ?_ true rfl
    exact (view_sendCloseReasonNoRetry _ _).trans rfl
  | cmErr e =>
    simp only [onCm]
    split
    · exact onClose_turnEnd p env unauthorized socket rfl false rfl
    · exact .idle rfl rfl
  | chatMessage text =>
    refine .of_view p env ((view_setConn (by rfl)).trans (view_send h (.chatMessage text)))
  | switchPermission name enabled =>
    exact .of_view p env (view_onSwitchPermission p env h name enabled)
  | voiceCallResponse accepted => exact .of_view p env (view_handleVoiceCall h accepted)
  | closeVoiceCall => exact .of_view p env (view_closeVoiceCall h)
  | readJobEnded id => exact .idle rfl rfl

/-- The globals as the handler of the turn finds them. -/
def Turn.globals (g : Globals) (c : Connection) : Turn → Globals
  | .message _ => touchSession env g c
  | _ => g

/-- A port forward leaves the loop only once it is authorized. -/
theorem TurnEnd.stays {h after : Handling} {t : Turn} {again forwards ends : Bool}
    (ended : TurnEnd p env h t after.view again) (unauthorized : h.conn.authorized = false)
    (authorized : forwards → after.conn.authorized) :
    TurnEnd p env h t after.view (again && !(forwards && ends)) := by
  have kept (still : after.view.core.authorized = false) : (!(forwards && ends)) = true := by
    have still : after.conn.authorized = false := still
    cases forwards with
    | false => rfl
    | true => simp [still] at authorized
  cases ended with
  | closed out socket => exact .closed out socket
  | idle core shown =>
    rw [kept (by rw [core]; exact unauthorized)]
    exact .idle core shown
  | waits lr m turn core primary shown =>
    rw [kept (by rw [core]; exact unauthorized)]
    exact .waits lr m turn core primary shown
  | authorized k lock again socket lock source core primary second approved =>
    exact .authorized k _ _ socket lock source core primary second approved

/-- **All that a turn can do to a connection that is not authorized.** -/
theorem turn_turnEnd {h : Handling} (t : Turn) (unauthorized : h.conn.authorized = false)
    (socket : h.conn.portForwardSocket = none) :
    TurnEnd p env (h.setGlobals (t.globals env h.globals h.conn)) t (h.turn p env t).1.view
      (h.turn p env t).2 := by
  cases t with
  | message msg =>
    have ended := message_turnEnd p env
      (h := h.setGlobals (touchSession env h.globals h.conn)) msg unauthorized socket
    unfold Handling.turn turnMessage
    simp only
    generalize onMessage p env (h.setGlobals (touchSession env h.globals h.conn)) msg = r at ended
    obtain ⟨after, again⟩ := r
    exact ended.stays p env unauthorized (by simp)
  | cm data => exact cm_turnEnd p env data unauthorized socket
  | testDelayTick =>
    simp only [Handling.turn]
    split
    · exact .of_view p env ((view_setConn (by rfl)).trans (view_send h _))
    · exact .idle rfl rfl
  | lost lock => exact onClose_turnEnd p env unauthorized socket rfl lock rfl
  | printerData path => exact .of_view p env ((view_setConn (by rfl)).trans (view_send h _))

end CamelliaRemote.Server
