import CamelliaRemote.Server.HandlerViews
import CamelliaRemote.Server.Authorized

namespace CamelliaRemote.Server

variable {p : Host} {env : Env}

namespace Globals

/-- A peer of the key may reconnect without being asked again. -/
def Resumable (now : Nat) (g : Globals) (key : SessionKey) : Prop :=
  ∃ s, g.sessions key = some s ∧ s.live now g = true

/-- The connection is not listed as a remote one, and another one of the session is. -/
structure Spared (id : Nat) (key : SessionKey) (g : Globals) : Prop where
  own : ∀ a ∈ g.authedConns, a.connId = id → a.connType ≠ .remote
  other : ∃ a ∈ g.authedConns, a.connId ≠ id ∧ a.sessionKey = key ∧ a.connType = .remote

/-- What a connection does to the globals without entering or leaving the list. -/
structure Passes (now id : Nat) (g g' : Globals) : Prop where
  authedConns : g'.authedConns = g.authedConns
  sessions : ∀ key, g.Spared id key → g.Resumable now key → g'.Resumable now key

section
variable {now id : Nat} {g g' g'' : Globals}

theorem Passes.refl (g : Globals) : Passes now id g g := ⟨rfl, fun _ _ => fun live => live⟩

theorem Spared.congr {key : SessionKey} (spared : g.Spared id key)
    (same : g'.authedConns = g.authedConns) : g'.Spared id key where
  own := by rw [same]; exact spared.own
  other := by rw [same]; exact spared.other

theorem Passes.trans (first : Passes now id g g') (second : Passes now id g' g'') :
    Passes now id g g'' where
  authedConns := second.authedConns.trans first.authedConns
  sessions := fun key spared live =>
    second.sessions key (spared.congr first.authedConns) (first.sessions key spared live)

/-- Changes of the other globals. -/
theorem Passes.of_eq (conns : g'.authedConns = g.authedConns) (sessions : g'.sessions = g.sessions)
    (instants : g'.instants = g.instants) : Passes now id g g' where
  authedConns := conns
  sessions := by
    rintro key - ⟨s, found, live⟩
    refine ⟨s, by rw [sessions]; exact found, ?_⟩
    simpa only [Session.live, instants] using live

theorem live_update {s : Session} (cell : Nat) (live : s.live now g = true) :
    s.live now { g with instants := Function.update g.instants cell now } = true := by
  unfold Session.live at *
  by_cases same : s.lastRecvTime = cell
  · simp [same, sessionTimeout]
  · simpa [Function.update_of_ne same] using live

theorem passes_sweepSessions : Passes now id g (sweepSessions now g) where
  authedConns := rfl
  sessions := by
    rintro key - ⟨s, found, live⟩
    exact ⟨s, by simp [sweepSessions, found, live], live⟩

theorem passes_insertSession (key : SessionKey) (password : String) (tfa : Bool) :
    Passes now id g (insertSession now g key password tfa) where
  authedConns := rfl
  sessions := by
    rintro key' - ⟨s, found, live⟩
    by_cases same : key' = key
    · refine ⟨⟨password, tfa, g.nextInstant⟩, by simp [insertSession, same], ?_⟩
      simp [Session.live, insertSession, sessionTimeout]
    · exact ⟨s, by simp [insertSession, same, found], live_update g.nextInstant live⟩

/-- An entry is rewritten, with the cell that it has. -/
theorem passes_rewrite {key : SessionKey} {s s' : Session} (found : g.sessions key = some s)
    (cell : s'.lastRecvTime = s.lastRecvTime) :
    Passes now id g { g with sessions := Function.update g.sessions key (some s') } where
  authedConns := rfl
  sessions := by
    rintro key' - ⟨r, its, live⟩
    by_cases same : key' = key
    · subst same
      rw [found] at its
      cases its
      refine ⟨s', by simp, ?_⟩
      simpa only [Session.live, cell] using live
    · exact ⟨r, by simp [same, its], live⟩

theorem passes_updateOrInsertSession (key : SessionKey) (password : Option String)
    (tfa : Option Bool) : Passes now id g (updateOrInsertSession now g key password tfa) := by
  unfold updateOrInsertSession
  split
  · rename_i s found
    exact passes_rewrite found rfl
  · exact passes_insertSession _ _ _

theorem passes_setSession2fa (key : SessionKey) :
    Passes now id g (setSession2fa now g key) := by
  unfold setSession2fa
  split
  · rename_i s found
    exact passes_rewrite found rfl
  · exact passes_insertSession _ _ _

theorem passes_checkUpdateTemporaryPassword (success : Bool) :
    Passes now id g (checkUpdateTemporaryPassword env g success) := by
  unfold checkUpdateTemporaryPassword
  simp only
  split_ifs <;> exact .of_eq rfl rfl rfl

theorem passes_setFailures (i : FailureKind) (m : Login.FailureMap) :
    Passes now id g (g.setFailures i m) := by
  cases i <;> exact .of_eq rfl rfl rfl

/-- The session stays as long as another remote connection has it. -/
theorem passes_checkRemoveSession (key : SessionKey) :
    Passes now id g (checkRemoveSession g id key) := by
  unfold checkRemoveSession
  split
  · simp only
    split <;> rename_i goes
    · refine ⟨rfl, ?_⟩
      rintro key' spared ⟨s, found, live⟩
      refine ⟨s, ?_, live⟩
      by_cases same : key' = key
      · subst same
        have listed : (g.authedConns.any fun c => c.connId == id && c.connType == .remote) =
            false := by
          simp only [List.any_eq_false, Bool.and_eq_true, beq_iff_eq, not_and]
          exact spared.own
        have another : (g.authedConns.any fun c =>
            c.connId != id && c.sessionKey == key' && c.connType == .remote) = true := by
          simp only [List.any_eq_true, Bool.and_eq_true, beq_iff_eq, bne_iff_ne, and_assoc]
          exact spared.other
        simp [listed, another] at goes
      · simp [same, found]
    · exact .refl g
  · exact .refl g

end

end Globals

theorem passes_touchSession (c : Connection) (g : Globals) (id : Nat) :
    Globals.Passes env.now id g (touchSession env g c) := by
  unfold touchSession
  split
  · refine ⟨rfl, ?_⟩
    rintro key - ⟨s, found, live⟩
    exact ⟨s, found, Globals.live_update _ live⟩
  · exact .refl g

/-- What `AUTHED_CONNS` has to say of a connection. -/
def Core.standing (k : Core) : Nat × Bool × Option AuthConnType :=
  (k.id, k.authorized, k.authedConnId)

/-- The connection keeps its standing and does not enter or leave the list. -/
structure View.Passes (now : Nat) (v v' : View) : Prop where
  standing : v'.core.standing = v.core.standing
  globals : Globals.Passes now v.core.id v.globals v'.globals

namespace View.Passes

variable {now : Nat} {v v' v'' : View} {h : Handling}

theorem id (passes : View.Passes now v v') : v'.core.id = v.core.id :=
  congrArg Prod.fst passes.standing

theorem authorized (passes : View.Passes now v v') : v'.core.authorized = v.core.authorized :=
  congrArg (·.2.1) passes.standing

theorem authedConnId (passes : View.Passes now v v') :
    v'.core.authedConnId = v.core.authedConnId := congrArg (·.2.2) passes.standing

theorem refl (v : View) : View.Passes now v v := ⟨rfl, .refl _⟩

theorem trans (first : View.Passes now v v') (second : View.Passes now v' v'') :
    View.Passes now v v'' where
  standing := second.standing.trans first.standing
  globals := by
    have next := second.globals
    rw [first.id] at next
    exact first.globals.trans next

theorem of_eq (same : v' = v) : View.Passes now v v' := by
  subst same
  exact refl _

theorem of_core {k : Core} (same : v' = { v with core := k })
    (standing : k.standing = v.core.standing) : View.Passes now v v' := by
  subst same
  exact ⟨standing, .refl _⟩

theorem setGlobals {g : Globals} (before : View.Passes now v h.view)
    (passes : Globals.Passes now h.conn.id h.globals g) :
    View.Passes now v (h.setGlobals g).view := before.trans ⟨rfl, passes⟩

end View.Passes

variable {h : Handling} {v v' : View}

theorem onClose_passes (lock : Bool) : View.Passes env.now h.view (onClose p h lock).view :=
  .of_core (view_onClose p h lock) rfl

/-- A session is given up by the connection that is handled. -/
theorem checkRemoveSession_passes (before : View.Passes env.now v h.view) :
    View.Passes env.now v
      (h.setGlobals (checkRemoveSession h.globals h.conn.id h.conn.sessionKey)).view :=
  before.setGlobals (Globals.passes_checkRemoveSession _)

theorem sendCloseReason_passes (reason : String) (before : View.Passes env.now v h.view) :
    View.Passes env.now v (sendCloseReasonNoRetry h reason).view :=
  checkRemoveSession_passes (before.trans (.of_eq (view_send h _)))

theorem onSwitchSidesRequest_passes (uuid : Bytes) :
    View.Passes env.now h.view (onSwitchSidesRequest p env h uuid).1.view := by
  unfold onSwitchSidesRequest
  split
  · exact .refl _
  split
  · exact .refl _
  · refine View.Passes.trans ?_ (onClose_passes false)
    refine View.Passes.trans ?_ (.of_eq (view_emit _ _))
    exact (View.Passes.refl h.view).setGlobals (.of_eq rfl rfl rfl)

theorem onSelectedSid_passes (sid : Nat) :
    View.Passes env.now h.view (onSelectedSid p env h sid).1.view := by
  unfold onSelectedSid
  split
  · exact .refl _
  split
  · exact .of_eq (view_emit h _)
  split
  · split
    · exact .of_eq ((view_sendFs _ _).trans (view_setConn (by rfl)))
    · exact .refl _
  split
  · exact .of_eq (view_emit h _)
  split
  · exact .of_eq (view_trySubMonitorServices p env h)
  · exact .refl _

theorem onMisc_passes (misc : Misc.Union) :
    View.Passes env.now h.view (onMisc p env h misc).1.view := by
  have only (on : Bool) (h' : Handling) (same : h'.view = h.view) :
      View.Passes env.now h.view (if on then h' else h).view := by
    cases on
    · exact .refl _
    · exact .of_eq same
  unfold onMisc
  split
  · exact .of_eq (view_onSwitchDisplay p env h _)
  · exact .of_eq (view_onCaptureDisplays env h _)
  · exact only _ _ (view_toggleVirtualDisplay env h _ _)
  · exact only _ _ (view_togglePrivacyMode env h _ _)
  · exact .of_eq ((view_updateAutoDisconnectTimer env _).trans
      ((view_setConn (by rfl)).trans (view_sendToCm (by simp) h)))
  · obtain ⟨lock, same⟩ := view_onOption p env h _
    exact .of_core same rfl
  · exact .of_eq (view_onRefreshVideo env h _ _)
  · exact .of_eq (view_onRefreshVideo env h _ _)
  · exact .of_eq (view_emit h _)
  · exact only _ _ (view_emit h _)
  · split
    · split <;> exact .of_eq (view_handleElevationRequest env h _)
    · exact .refl _
  · exact .of_eq (view_onAudioFormat h _ _)
  · exact onSwitchSidesRequest_passes _
  · exact only _ _ (view_changeResolution env h _ _)
  · exact only _ _ (view_changeResolution env h _ _)
  · exact .of_eq (view_emit h _)
  · exact .of_eq (view_emit h _)
  · split
    · exact onSelectedSid_passes _
    · exact .refl _
  · exact .of_eq (view_sendDisplayChanged env h _)
  · exact .refl _

theorem onAuthorizedMessage_passes (msg : Message.Union) :
    View.Passes env.now h.view (onAuthorizedMessage p env h msg).1.view := by
  unfold onAuthorizedMessage
  split
  · exact .of_eq (view_onMouseEvent p env h _)
  · exact .of_eq (view_onPointerDeviceEvent p env h _)
  · exact .of_eq (view_onKeyEvent p env h _)
  · exact .of_eq (view_onClipboards p h _ _)
  · exact .of_eq (view_onClipboards p h _ _)
  · exact .of_eq (view_onCliprdr p env h _)
  · exact .of_eq (view_onFileAction p env h _)
  · exact .of_eq (view_onFileResponse h _)
  · exact onMisc_passes _
  · exact .of_eq (view_onAudioFrame h _)
  · exact .of_eq (view_onVoiceCallRequest env h _ _)
  · exact .of_eq ((view_emit _ _).trans (view_emit h _))
  · exact .of_eq (view_handleTerminalAction p h _)
  · exact .refl _

theorem passSecondFactor_passes (failure : Login.FailureEntry) :
    View.Passes env.now h.view (passSecondFactor env h failure).view := by
  unfold passSecondFactor
  simp only
  refine View.Passes.setGlobals ?_ (Globals.passes_setSession2fa _)
  refine ⟨rfl, ?_⟩
  exact Globals.passes_setFailures .tfa _

theorem addTrustedDevice_passes (tfa : Auth2fa) (before : View.Passes env.now v h.view) :
    View.Passes env.now v (addTrustedDevice env h tfa).view := by
  unfold addTrustedDevice
  split
  · exact before.setGlobals (.of_eq rfl rfl rfl)
  · exact before

/-- A second factor that comes late, and one that is refused. -/
theorem onAuth2fa_passes (tfa : Auth2fa) (authorized : h.conn.authorized = true) :
    View.Passes env.now h.view (onAuth2fa p env h tfa).1.view := by
  have view := view_checkFailure env h .tfa
  unfold onAuth2fa
  split <;> rename_i failure checked
  · rw [checked] at view
    exact .of_eq view
  cases checkFailure_admitted env checked
  split
  · exact .refl _
  · refine .trans ?_ (.of_eq (view_sendLoginError env _ _))
    exact ⟨rfl, Globals.passes_setFailures .tfa _⟩
  · simp only
    rw [logonAndStartCm_authorized _ _ (by exact authorized)]
    refine addTrustedDevice_passes tfa ?_
    obtain ⟨d, -, shown⟩ := view_tryStartCm (passSecondFactor env h failure)
      (passSecondFactor env h failure).conn.lr.myId (passSecondFactor env h failure).conn.lr.myName
      true
    refine (passSecondFactor_passes failure).trans ?_
    rw [shown]
    exact ⟨rfl, .refl _⟩

theorem switchSides_passes (lr : LoginRequest) (before : View.Passes env.now v h.view) :
    View.Passes env.now v (switchSides p env h lr).view := by
  obtain ⟨require2fa, core⟩ := switchSides_core p env h lr
  have globals : (switchSides p env h lr).view.globals = h.view.globals := switchSides_globals lr
  have standing : (switchSides p env h lr).view.core.standing = h.view.core.standing := by
    rw [core]
    rfl
  refine before.trans ⟨standing, ?_⟩
  rw [globals]
  exact .refl _

theorem tryStartCm_passes (peerId name : String) (authorized : Bool)
    (before : View.Passes env.now v h.view) :
    View.Passes env.now v (tryStartCm h peerId name authorized).view := by
  obtain ⟨d, -, shown⟩ := view_tryStartCm h peerId name authorized
  rw [shown]
  exact before.trans ⟨rfl, .refl _⟩

theorem takeSwitchUuid_passes (peerId : String) :
    View.Passes env.now h.view (h.setGlobals (takeSwitchUuid env h.globals peerId)).view :=
  (View.Passes.refl h.view).setGlobals (.of_eq rfl rfl rfl)

theorem onSwitchSidesResponse_passes (s : SwitchSidesResponse)
    (authorized : h.conn.authorized = true) :
    View.Passes env.now h.view (onSwitchSidesResponse p env h s).1.view := by
  unfold onSwitchSidesResponse
  split
  · exact .refl _
  split
  · exact .refl _
  rename_i lr _
  have taken := @takeSwitchUuid_passes env h lr.myId
  simp only
  split
  · exact taken
  split
  · exact taken.trans (.of_eq (view_sendLoginError env _ _))
  have switched := @switchSides_passes p env _ _ lr taken
  have still : (switchSides p env (h.setGlobals (takeSwitchUuid env h.globals lr.myId))
      lr).conn.authorized = true := by
    obtain ⟨require2fa, core⟩ := switchSides_core p env
      (h.setGlobals (takeSwitchUuid env h.globals lr.myId)) lr
    exact (congrArg Core.authorized core).trans authorized
  rw [logonAndStartCm_authorized lr.myId lr.myName still]
  simp only [view_tryStartCmIpc]
  exact tryStartCm_passes _ _ _ switched

theorem reportScopeViolation_passes (message : String) :
    View.Passes env.now h.view (reportScopeViolation env h message).view := by
  unfold reportScopeViolation
  simp only
  split
  · exact .refl _
  · split
    · exact .of_eq ((view_emit _ _).trans (view_setConn (by rfl)))
    · exact .of_eq (view_setConn (by rfl))

theorem onMessage_passes (msg : Message) (authorized : h.conn.authorized = true) :
    View.Passes env.now h.view (onMessage p env h msg).1.view := by
  unfold onMessage
  split
  · exact checkRemoveSession_passes (onClose_passes true)
  split <;> rename_i request
  · exact .refl _
  split
  · unfold handleAuthorizedScopeViolation
    simp only
    split
    · exact (sendCloseReason_passes _ (reportScopeViolation_passes _)).trans (onClose_passes true)
    · exact reportScopeViolation_passes _
  · unfold dispatch
    split
    · simp [isLoginRequest] at request
    · exact onAuth2fa_passes _ authorized
    · exact .of_eq (view_onTestDelay env h _)
    · exact onSwitchSidesResponse_passes _ authorized
    · split
      · exact onAuthorizedMessage_passes _
      · exact .refl _
    · exact .refl _

theorem onCm_passes (data : FromCm) (authorized : h.conn.authorized = true) :
    View.Passes env.now h.view (onCm p env h data).1.view := by
  cases data with
  | authorize =>
    have done : (onCm p env h .authorize).1 =
        h.setConn { h.conn with connAuditPrimaryAuth := .click, require2fa := none } := by
      simp [onCm, onAuthorize, sendLogonResponseAndKeepAlive, authorized]
    rw [done]
    exact ⟨rfl, .refl _⟩
  | close =>
    refine View.Passes.trans ?_ (onClose_passes true)
    exact sendCloseReason_passes "" (.of_eq (view_setConn (by rfl)))
  | cmErr e =>
    simp only [onCm]
    split
    · exact onClose_passes false
    · exact .refl _
  | chatMessage text => exact .of_eq ((view_setConn (by rfl)).trans (view_send h _))
  | switchPermission name enabled => exact .of_eq (view_onSwitchPermission p env h name enabled)
  | voiceCallResponse accepted => exact .of_eq (view_handleVoiceCall h accepted)
  | closeVoiceCall => exact .of_eq (view_closeVoiceCall h)
  | readJobEnded id => exact .of_eq (view_setConn (by rfl))

theorem turn_passes (turn : Turn) (authorized : h.conn.authorized = true) :
    View.Passes env.now h.view (h.turn p env turn).1.view := by
  cases turn with
  | message msg =>
    refine View.Passes.trans ?_
      (onMessage_passes (h := h.setGlobals (touchSession env h.globals h.conn)) msg authorized)
    exact (View.Passes.refl h.view).setGlobals (passes_touchSession _ _ _)
  | cm data => exact onCm_passes data authorized
  | testDelayTick =>
    simp only [Handling.turn]
    split
    · exact .of_eq ((view_setConn (by rfl)).trans (view_send h _))
    · exact .refl _
  | lost lock => exact onClose_passes lock
  | printerData path => exact .of_eq ((view_setConn (by rfl)).trans (view_send h _))

theorem forward_passes (turn : Turn) : View.Passes env.now h.view (h.forward p turn).1.view := by
  unfold Handling.forward endForward
  split
  · exact checkRemoveSession_passes (onClose_passes false)
  · exact checkRemoveSession_passes (onClose_passes false)
  · exact checkRemoveSession_passes (onClose_passes false)
  · exact .refl _

/-- How a handling ends for a connection that was not authorized: it still is not, or it is
authorized and listed, once. -/
inductive View.Goes (env : Env) (v v' : View) : Prop where
  | out (out : v'.core.authorized = false)
      (globals : Globals.Passes env.now v.core.id v.globals v'.globals) : Goes env v v'
  | entered (g : Globals) (key : SessionKey) (t : AuthConnType)
      (id : v'.core.id = v.core.id) (inside : v'.core.authorized = true)
      (type : v'.core.authedConnId = some t)
      (before : Globals.Passes env.now v.core.id v.globals g)
      (conns : v'.globals.authedConns = g.authedConns ++ [⟨v.core.id, t, key⟩])
      (sessions : v'.globals.sessions = g.sessions)
      (instants : v'.globals.instants = g.instants) : Goes env v v'

namespace View.Goes

variable {v'' : View}

theorem after (before : View.Passes env.now v v') (goes : View.Goes env v' v'') :
    View.Goes env v v'' := by
  cases goes with
  | out out globals =>
    rw [before.id] at globals
    exact .out out (before.globals.trans globals)
  | entered g key t id inside type globals conns sessions instants =>
    rw [before.id] at globals conns
    exact .entered g key t (id.trans before.id) inside type (before.globals.trans globals)
      conns sessions instants

theorem of_passes (passes : View.Passes env.now v v') (outside : v.core.authorized = false) :
    View.Goes env v v' := .out (passes.authorized.trans outside) passes.globals

/-- What is done last has no part in it. -/
theorem congr (goes : View.Goes env v v') (core : v''.core = v'.core)
    (globals : v''.globals.authedConns = v'.globals.authedConns ∧
      v''.globals.sessions = v'.globals.sessions ∧ v''.globals.instants = v'.globals.instants) :
    View.Goes env v v'' := by
  obtain ⟨conns', sessions', instants'⟩ := globals
  cases goes with
  | out out globals =>
    exact .out (core ▸ out) (globals.trans (.of_eq conns' sessions' instants'))
  | entered g key t id inside type before conns sessions instants =>
    exact .entered g key t (core ▸ id) (core ▸ inside) (core ▸ type) before
      (conns'.trans conns) (sessions'.trans sessions) (instants'.trans instants)

end View.Goes

theorem passes_checked : View.Passes env.now v (v.checked env) := by
  unfold View.checked
  split
  · exact ⟨rfl, Globals.passes_sweepSessions⟩
  · exact .refl v

theorem Core.connected_id (k : Core) : k.connected.id = k.id := by
  unfold Core.connected
  split <;> rfl

theorem logon_goes (outside : h.conn.authorized = false) :
    View.Goes env h.view (sendLogonResponseAndKeepAlive p env h).1.view := by
  have logon := logon_cases p env h outside
  generalize (sendLogonResponseAndKeepAlive p env h).1.view = v' at logon ⊢
  generalize (sendLogonResponseAndKeepAlive p env h).2 = again at logon
  have checked := @passes_checked env h.view
  cases logon with
  | owes missing => exact .of_passes checked outside
  | closed k unauthorized socket => exact .out unauthorized checked.globals
  | authorized lock source given =>
    refine .entered (h.view.checked env).globals h.view.core.connected.sessionKey
      h.view.core.connected.authConnType (Core.connected_id _) rfl rfl checked.globals ?_ rfl rfl
    simp only [View.authorize, Core.connected_id]

theorem logonAndStartCm_goes (peerId name : String) (outside : h.conn.authorized = false) :
    View.Goes env h.view (logonAndStartCm p env h peerId name).1.view := by
  have goes := @logon_goes p env h outside
  unfold logonAndStartCm
  split <;> rename_i logon <;> rw [logon] at goes
  · exact goes
  · obtain ⟨d, -, shown⟩ := view_tryStartCm _ peerId name _
    exact goes.congr (by rw [shown]) (by rw [shown]; exact ⟨rfl, rfl, rfl⟩)

theorem askConnectionManager_passes (lr : LoginRequest) :
    View.Passes env.now h.view (askConnectionManager p env h lr).1.view := by
  unfold askConnectionManager
  split <;> rename_i asked
  · have view := congrArg (·.1.view) asked
    simp only at view
    split at view
    · exact .of_eq (view.symm.trans (view_prepareTerminal p env h))
    · exact .of_eq view.symm
  · have view := congrArg (·.1.view) asked
    simp only at view
    refine tryStartCm_passes _ _ _ ?_
    split at view
    · exact .of_eq (view.symm.trans (view_prepareTerminal p env h))
    · exact .of_eq view.symm

theorem updateFailure_passes (failure : Login.FailureEntry) (remove : Bool) (i : FailureKind)
    (before : View.Passes env.now v h.view) :
    View.Passes env.now v (updateFailure env h failure remove i).view :=
  before.trans ⟨rfl, Globals.passes_setFailures i _⟩

theorem validatePassword_passes (allow : Bool) :
    View.Passes env.now h.view (validatePassword p env h allow).1.view := by
  rcases validatePassword_cases p env h allow with
    ⟨-, -, view⟩ | ⟨-, -, -, view⟩ | ⟨-, -, view⟩ <;> rw [view]
  · exact ⟨rfl, (Globals.passes_updateOrInsertSession _ _ _).trans
      (Globals.passes_checkUpdateTemporaryPassword true)⟩
  · exact ⟨rfl, .refl _⟩
  · exact .refl _

theorem isRecentSession_passes :
    View.Passes env.now h.view (isRecentSession p env h false).1.view := by
  rw [(view_isRecentSession_password p env h).2]
  exact ⟨rfl, Globals.passes_sweepSessions⟩

theorem checkPassword_goes (lr : LoginRequest) (allow : Bool) (errMsg : String)
    (outside : h.conn.authorized = false) :
    View.Goes env h.view (checkPassword p env h lr allow errMsg).1.view := by
  have view := view_checkFailure env h .password
  unfold checkPassword
  split <;> rename_i failure checked
  · rw [checked] at view
    exact .of_passes (.of_eq view) outside
  cases checkFailure_admitted env checked
  have valid := @validatePassword_passes p env h allow
  split <;> rename_i h' validated <;> rw [validated] at valid <;> simp only at valid ⊢
  · have wrong := updateFailure_passes failure false .password valid
    have passes (g : Globals) :
        Globals.Passes env.now h'.conn.id g (checkUpdateTemporaryPassword env g false) :=
      Globals.passes_checkUpdateTemporaryPassword false
    have counted := wrong.setGlobals (passes _)
    split
    · exact .of_passes (tryStartCm_passes _ _ _
        (counted.trans (.of_eq (view_sendLoginError env _ _)))) outside
    · exact .of_passes (counted.trans (.of_eq (view_sendLoginError env _ _))) outside
  · have right := updateFailure_passes failure true .password valid
    split
    · exact .after right (logonAndStartCm_goes _ _ (right.authorized.trans outside))
    · exact .of_passes (right.trans (.of_eq (view_sendLoginError env _ _))) outside

theorem authenticate_goes (lr : LoginRequest) (errMsg : String)
    (outside : h.conn.authorized = false) :
    View.Goes env h.view (authenticate p env h lr errMsg).1.view := by
  have asked := @askConnectionManager_passes p env h lr
  unfold authenticate
  split
  · split <;> rename_i asks <;> rw [asks] at asked
    · exact .of_passes asked outside
    · split
      · exact .of_passes (asked.trans (.of_eq (view_sendLoginError env _ _))) outside
      · exact .of_passes asked outside
  have recent := @isRecentSession_passes p env h
  split <;> rename_i h' found <;> rw [found] at recent <;> simp only at recent
  · split
    · exact .after recent (logonAndStartCm_goes _ _ (recent.authorized.trans outside))
    · exact .of_passes (recent.trans (.of_eq (view_sendLoginError env _ _))) outside
  · split
    · split
      · exact .of_passes (recent.trans (askConnectionManager_passes lr)) outside
      · exact .of_passes (recent.trans (.of_eq (view_sendLoginError env _ _))) outside
    · exact .after recent (checkPassword_goes lr _ errMsg (recent.authorized.trans outside))

theorem startDesktop_goes (lr : LoginRequest) (outside : h.conn.authorized = false) :
    View.Goes env h.view (startDesktop p env h lr).1.view := by
  unfold startDesktop
  simp only
  split
  · split
    · have view := view_checkFailure env h .password
      split <;> rename_i failure checked
      · rw [checked] at view
        exact .of_passes (.of_eq view) outside
      · cases checkFailure_admitted env checked
        exact .of_passes ((updateFailure_passes failure false .password (.refl _)).trans
          (.of_eq (view_sendLoginError env _ _))) outside
    · exact .of_passes (.of_eq (view_sendLoginError env _ _)) outside
  · exact authenticate_goes lr _ outside

theorem checkHeadless_goes (lr : LoginRequest) (outside : h.conn.authorized = false) :
    View.Goes env h.view (checkHeadless p env h lr).1.view := by
  unfold checkHeadless
  split
  · have view := view_checkFailure env h .password
    split <;> rename_i checked
    · rw [checked] at view
      exact .of_passes (.of_eq view) outside
    · cases checkFailure_admitted env checked
      exact startDesktop_goes lr outside
  · exact startDesktop_goes lr outside

theorem onLoginRequest_goes (lr : LoginRequest) (outside : h.conn.authorized = false) :
    View.Goes env h.view (onLoginRequest p env h lr).1.view := by
  have view := view_handleLoginRequest p env h lr
  have chosen := @view_selectSessionScope p env h lr
  unfold onLoginRequest
  generalize handleLoginRequestWithoutValidation p env h lr = h₁ at view chosen
  have still : h₁.conn.authorized = false := (congrArg (·.core.authorized) view).trans outside
  simp only [still, Bool.false_eq_true, if_false]
  split <;> rename_i selected
  · refine .of_passes ?_ outside
    rw [view_sendLoginError, view_resetSessionScope, view]
    exact ⟨rfl, .refl _⟩
  have chosen : View.Passes env.now h.view ((resetSessionScopeForLogin h₁).setConn _).view :=
    .of_core (chosen selected) rfl
  split
  · exact .of_passes (chosen.trans (.of_eq (view_sendLoginError env _ _))) outside
  split
  · exact .of_passes (chosen.trans (.of_eq (view_sendLoginError env _ _))) outside
  split
  · exact .after chosen (checkHeadless_goes lr (chosen.authorized.trans outside))
  · have started := chosen.trans (.of_eq (view_tryStartCmIpc _))
    exact .after started (checkHeadless_goes lr (started.authorized.trans outside))

theorem addTrustedDevice_goes (tfa : Auth2fa) (goes : View.Goes env v h.view) :
    View.Goes env v (addTrustedDevice env h tfa).view := by
  refine goes.congr (view_addTrustedDevice env h tfa) ?_
  unfold addTrustedDevice
  split <;> exact ⟨rfl, rfl, rfl⟩

theorem onAuth2fa_goes (tfa : Auth2fa) (outside : h.conn.authorized = false) :
    View.Goes env h.view (onAuth2fa p env h tfa).1.view := by
  have view := view_checkFailure env h .tfa
  unfold onAuth2fa
  split <;> rename_i failure checked
  · rw [checked] at view
    exact .of_passes (.of_eq view) outside
  cases checkFailure_admitted env checked
  split
  · exact .of_passes (.refl _) outside
  · exact .of_passes ((updateFailure_passes failure false .tfa (.refl _)).trans
      (.of_eq (view_sendLoginError env _ _))) outside
  have passed := @passSecondFactor_passes env h failure
  have goes := @logonAndStartCm_goes p env (passSecondFactor env h failure)
    (passSecondFactor env h failure).conn.lr.myId (passSecondFactor env h failure).conn.lr.myName
    (passed.authorized.trans outside)
  simp only
  split <;> rename_i logon <;> rw [logon] at goes
  · exact .after passed goes
  · exact .after passed (addTrustedDevice_goes tfa goes)

theorem onSwitchSidesResponse_goes (s : SwitchSidesResponse)
    (outside : h.conn.authorized = false) :
    View.Goes env h.view (onSwitchSidesResponse p env h s).1.view := by
  unfold onSwitchSidesResponse
  split
  · exact .of_passes (.refl _) outside
  split
  · exact .of_passes (.refl _) outside
  rename_i lr _
  have taken := @takeSwitchUuid_passes env h lr.myId
  simp only
  split
  · exact .of_passes taken outside
  split
  · exact .of_passes (taken.trans (.of_eq (view_sendLoginError env _ _))) outside
  have switched := @switchSides_passes p env _ _ lr taken
  have goes := @logonAndStartCm_goes p env
    (switchSides p env (h.setGlobals (takeSwitchUuid env h.globals lr.myId)) lr) lr.myId lr.myName
    (switched.authorized.trans outside)
  split <;> rename_i logon <;> rw [logon] at goes
  · exact .after switched goes
  · refine .after switched (goes.congr ?_ ?_)
    · rw [view_tryStartCmIpc]
    · rw [view_tryStartCmIpc]
      exact ⟨rfl, rfl, rfl⟩

theorem onMessage_goes (msg : Message) (outside : h.conn.authorized = false) :
    View.Goes env h.view (onMessage p env h msg).1.view := by
  unfold onMessage
  split
  · exact .of_passes (checkRemoveSession_passes (onClose_passes true)) outside
  simp only [outside, Bool.false_eq_true, if_false]
  unfold dispatch
  split
  · exact onLoginRequest_goes _ outside
  · exact onAuth2fa_goes _ outside
  · exact .of_passes (.of_eq (view_onTestDelay env h _)) outside
  · exact onSwitchSidesResponse_goes _ outside
  · simp only [outside, Bool.false_and, Bool.false_eq_true, if_false]
    exact .of_passes (.refl _) outside
  · exact .of_passes (.refl _) outside

theorem onCm_goes (data : FromCm) (outside : h.conn.authorized = false) :
    View.Goes env h.view (onCm p env h data).1.view := by
  cases data with
  | authorize =>
    have accepted : (onCm p env h .authorize).1 = (sendLogonResponseAndKeepAlive p env
        (h.setConn { h.conn with connAuditPrimaryAuth := .click, require2fa := none })).1 := rfl
    have clicked : View.Passes env.now h.view (h.setConn { h.conn with
        connAuditPrimaryAuth := .click, require2fa := none }).view := ⟨rfl, .refl _⟩
    rw [accepted]
    exact .after clicked (logon_goes outside)
  | close =>
    refine .of_passes (View.Passes.trans ?_ (onClose_passes true)) outside
    exact sendCloseReason_passes "" (.of_eq (view_setConn (by rfl)))
  | cmErr e =>
    simp only [onCm]
    split
    · exact .of_passes (onClose_passes false) outside
    · exact .of_passes (.refl _) outside
  | chatMessage text =>
    exact .of_passes (.of_eq ((view_setConn (by rfl)).trans (view_send h _))) outside
  | switchPermission name enabled =>
    exact .of_passes (.of_eq (view_onSwitchPermission p env h name enabled)) outside
  | voiceCallResponse accepted =>
    exact .of_passes (.of_eq (view_handleVoiceCall h accepted)) outside
  | closeVoiceCall => exact .of_passes (.of_eq (view_closeVoiceCall h)) outside
  | readJobEnded id => exact .of_passes (.of_eq (view_setConn (by rfl))) outside

theorem turn_goes (turn : Turn) (outside : h.conn.authorized = false) :
    View.Goes env h.view (h.turn p env turn).1.view := by
  cases turn with
  | message msg =>
    refine View.Goes.after ?_
      (onMessage_goes (h := h.setGlobals (touchSession env h.globals h.conn)) msg outside)
    exact (View.Passes.refl h.view).setGlobals (passes_touchSession _ _ _)
  | cm data => exact onCm_goes data outside
  | testDelayTick =>
    simp only [Handling.turn]
    split
    · exact .of_passes (.of_eq ((view_setConn (by rfl)).trans (view_send h _))) outside
    · exact .of_passes (.refl _) outside
  | lost lock => exact .of_passes (onClose_passes lock) outside
  | printerData path =>
    exact .of_passes (.of_eq ((view_setConn (by rfl)).trans (view_send h _))) outside

end CamelliaRemote.Server
