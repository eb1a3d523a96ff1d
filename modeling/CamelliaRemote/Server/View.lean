import CamelliaRemote.Server.Loop

namespace CamelliaRemote.Server

variable (p : Host) (env : Env)

structure Core where
  id : Nat
  ip : Login.IpAddr
  salt : String
  challenge : String
  isHeadlessAllowed : Bool
  lr : LoginRequest
  authorized : Bool
  authedConnId : Option AuthConnType
  primary : ConnAuditPrimaryAuth
  require2fa : Option Totp
  fromSwitch : Bool
  fileTransfer : Option (String × Bool)
  viewCamera : Bool
  terminal : Bool
  portForwardAddress : String
  portForwardSocket : Option String
  lockAfterSessionEnd : Bool

def Connection.core (c : Connection) : Core where
  id := c.id
  ip := c.ip
  salt := c.salt
  challenge := c.challenge
  isHeadlessAllowed := c.isHeadlessAllowed
  lr := c.lr
  authorized := c.authorized
  authedConnId := c.authedConnId
  primary := c.connAuditPrimaryAuth
  require2fa := c.require2fa
  fromSwitch := c.fromSwitch
  fileTransfer := c.fileTransfer
  viewCamera := c.viewCamera
  terminal := c.terminal
  portForwardAddress := c.portForwardAddress
  portForwardSocket := c.portForwardSocket
  lockAfterSessionEnd := c.options.lockAfterSessionEnd

/-- The `Data::Login` that an effect sends to the connection manager. -/
@[simp] def Effect.login? : Effect → Option LoginData
  | .cm (.login d) => some d
  | _ => none

structure View where
  core : Core
  shown : List LoginData
  globals : Globals

def Handling.view (h : Handling) : View :=
  ⟨h.conn.core, h.effects.filterMap Effect.login?, h.globals⟩

def View.add (v : View) : Option LoginData → View
  | some d => { v with shown := v.shown ++ [d] }
  | none => v

@[simp] theorem View.add_none (v : View) : v.add none = v := rfl

@[simp] theorem view_emit (h : Handling) (e : Effect) : (h.emit e).view = h.view.add e.login? := by
  cases found : e.login? <;>
    simp only [Handling.view, Handling.emit_conn, Handling.emit_effects, Handling.emit_globals,
      List.filterMap_append, List.filterMap_cons, found, List.filterMap_nil, View.add,
      List.append_nil]

@[simp] theorem view_send (h : Handling) (r : Reply) : (h.send r).view = h.view := view_emit _ _

@[simp] theorem view_sendLoginError (h : Handling) (err : String) :
    (sendLoginError env h err).view = h.view := view_send _ _

@[simp] theorem view_setGlobals (h : Handling) (g : Globals) :
    (h.setGlobals g).view = { h.view with globals := g } := rfl

@[simp] theorem view_tryStartCmIpc (h : Handling) : (tryStartCmIpc h).view = h.view := by
  unfold tryStartCmIpc
  split
  · exact (view_emit _ _).trans rfl
  · rfl

@[simp] theorem view_checkFailure (h : Handling) (i : FailureKind) :
    (checkFailure env h i).1.view = h.view := by
  unfold checkFailure
  split
  · rfl
  · simp

@[simp] theorem view_updateFailure (h : Handling) (failure : Login.FailureEntry) (remove : Bool)
    (i : FailureKind) :
    (updateFailure env h failure remove i).view =
      { h.view with
        globals := h.globals.setFailures i
          (Login.updateFailure (h.globals.failures i) h.conn.ip failure env.minute remove) } :=
  rfl

@[simp] theorem view_prepareTerminal (h : Handling) :
    (prepareTerminalLoginForAuthorization p env h).1.view = h.view := by
  unfold prepareTerminalLoginForAuthorization
  split
  · rfl
  simp only
  split
  · simp
  split
  · simp
  split
  · simp
  split
  · exact (view_sendLoginError env _ _).trans rfl
  · split
    · exact (view_tryStartCmIpc _).trans rfl
    · rfl

@[simp] theorem view_subscribe (h : Handling) (service : ServiceName) (sub : Bool) :
    (h.subscribe service sub).view = h.view := view_emit _ _

theorem view_onSet {option : EnumOrUnknown BoolOption} {body : Bool → Handling → Handling}
    (same : ∀ on h, (body on h).view = h.view) (h : Handling) :
    (onSet option body h).view = h.view := by
  unfold onSet
  split <;> simp [same]

@[simp] theorem view_turnOffPrivacy (h : Handling) (implKey : String) :
    (turnOffPrivacy env h implKey).view = h.view := by
  unfold turnOffPrivacy
  split <;> simp

@[simp] theorem view_turnOnPrivacy (h : Handling) (implKey : String) :
    (turnOnPrivacy env h implKey).view = h.view := by
  unfold turnOnPrivacy
  split
  · simp
  split
  · simp
  cases env.replacedImplKey <;> simp only <;> (repeat' split) <;> simp

theorem view_updateImageQuality (o : OptionMessage) (h : Handling) :
    (updateImageQuality o h).view = h.view := by
  unfold updateImageQuality
  split
  · rfl
  · split <;> simp

theorem view_updateCustomFps (o : OptionMessage) (h : Handling) :
    (updateCustomFps o h).view = h.view := by
  unfold updateCustomFps
  split <;> simp

theorem view_updateSupportedDecoding (o : OptionMessage) (h : Handling) :
    (updateSupportedDecoding o h).view = h.view := by
  unfold updateSupportedDecoding
  split <;> simp

theorem view_updateFollowRemoteCursor (on : Bool) (h : Handling) :
    (updateFollowRemoteCursor on h).view = h.view := rfl

theorem view_updateShowRemoteCursor (on : Bool) (h : Handling) :
    (updateShowRemoteCursor on h).view = h.view := by
  simp only [updateShowRemoteCursor, view_subscribe]
  rfl

theorem view_updateFollowRemoteWindow (on : Bool) (h : Handling) :
    (updateFollowRemoteWindow on h).view = h.view := by
  simp only [updateFollowRemoteWindow, view_subscribe]
  rfl

theorem view_updateDisableAudio (on : Bool) (h : Handling) :
    (updateDisableAudio on h).view = h.view := by
  simp only [updateDisableAudio]
  (repeat' split) <;> first | rfl | exact (view_subscribe _ _ _).trans rfl

theorem view_updateEnableFileTransfer (on : Bool) (h : Handling) :
    (updateEnableFileTransfer p env on h).view = h.view := by
  unfold updateEnableFileTransfer
  split_ifs <;> simp [Handling.sendToCm] <;> rfl

theorem view_updateDisableClipboard (on : Bool) (h : Handling) :
    (updateDisableClipboard env on h).view = h.view :=
  (view_subscribe _ _ _).trans rfl

theorem view_updateDisableKeyboard (on : Bool) (h : Handling) :
    (updateDisableKeyboard p env on h).view = h.view := by
  simp only [updateDisableKeyboard, view_subscribe]
  split <;> simp <;> rfl

theorem view_updatePrivacyMode (o : OptionMessage) (h : Handling) :
    (updatePrivacyMode p env o h).view = h.view := by
  unfold updatePrivacyMode
  (repeat' split) <;> simp

theorem view_updateBlockInput (o : OptionMessage) (h : Handling) :
    (updateBlockInput o h).view = h.view := by
  unfold updateBlockInput
  split
  · split <;> simp
  · exact view_onSet (fun on h => view_send h _) h

theorem view_updateTerminalPersistence (on : Bool) (h : Handling) :
    (updateTerminalPersistence on h).view = h.view :=
  (view_emit _ _).trans rfl

theorem view_updateShowMyCursor (on : Bool) (h : Handling) :
    (updateShowMyCursor p env on h).view = h.view := by
  unfold updateShowMyCursor
  split_ifs <;> simp <;> rfl

/-- What the option leaves of `lock_after_session_end`. -/
def lockAfter (o : OptionMessage) (lock : Bool) : Bool :=
  match o.lockAfterSessionEnd with
  | some .yes => true
  | some .no => false
  | some .notSet | none => lock

theorem view_updateLockAfterSessionEnd (o : OptionMessage) (h : Handling) :
    (onSet o.lockAfterSessionEnd updateLockAfterSessionEnd h).view =
      { h.view with
        core := { h.view.core with
          lockAfterSessionEnd := lockAfter o h.view.core.lockAfterSessionEnd } } := by
  unfold onSet lockAfter
  split <;> simp_all <;> rfl

theorem view_updateOptions (o : OptionMessage) (h : Handling) :
    (updateOptions p env o h).view =
      { h.view with
        core := { h.view.core with
          lockAfterSessionEnd := lockAfter o h.view.core.lockAfterSessionEnd } } := by
  have mobile {f : Handling → Handling} (same : ∀ h, (f h).view = h.view) (h : Handling) :
      (if p.os.mobile then h else f h).view = h.view := by
    split <;> simp [same]
  have desktop {f : Handling → Handling} (same : ∀ h, (f h).view = h.view) (h : Handling) :
      (if p.os = .windows ∨ p.unixFileCopyPaste then f h else h).view = h.view := by
    split <;> simp [same]
  simp only [updateOptions]
  rw [mobile (view_onSet (view_updateShowMyCursor p env)),
    mobile (view_onSet view_updateTerminalPersistence), view_updateBlockInput,
    view_updatePrivacyMode, view_onSet (view_updateDisableKeyboard p env),
    view_onSet (view_updateDisableClipboard env),
    desktop (view_onSet (view_updateEnableFileTransfer p env)),
    view_onSet view_updateDisableAudio, view_onSet view_updateFollowRemoteWindow,
    mobile (view_onSet view_updateFollowRemoteCursor),
    mobile (view_onSet view_updateShowRemoteCursor), view_updateLockAfterSessionEnd,
    view_updateSupportedDecoding, view_updateCustomFps, view_updateImageQuality]

theorem scopedLoginOption_lock {t : AuthConnType} {o o' : OptionMessage} (scope : t ≠ .remote)
    (kept : (scopedLoginOption t o).1 = some o') : o'.lockAfterSessionEnd = some .notSet := by
  cases t with
  | remote => exact absurd rfl scope
  | fileTransfer | portForward => simp [scopedLoginOption] at kept
  | viewCamera =>
    simp only [scopedLoginOption, scopedViewCameraOption, Option.ite_none_right_eq_some,
      Option.some.injEq] at kept
    rw [← kept.2]
    rfl
  | terminal =>
    simp only [scopedLoginOption, scopedTerminalLoginOption, Option.ite_none_right_eq_some,
      Option.some.injEq] at kept
    rw [← kept.2]
    rfl

/-- Only a remote session can get its screen locked by an option. -/
theorem view_updateScopedLoginOptions (h : Handling) :
    ∃ lock : Bool,
      (lock → h.view.core.lockAfterSessionEnd ∨ h.view.core.authedConnId = some .remote) ∧
      (updateScopedLoginOptions p env h).view =
        { h.view with core := { h.view.core with lockAfterSessionEnd := lock } } := by
  unfold updateScopedLoginOptions
  split
  · exact ⟨h.view.core.lockAfterSessionEnd, .inl, rfl⟩
  simp only
  split
  · exact ⟨h.view.core.lockAfterSessionEnd, .inl, rfl⟩
  rename_i option t authed
  split
  · exact ⟨h.view.core.lockAfterSessionEnd, .inl, rfl⟩
  rename_i option' kept
  refine ⟨_, ?_, view_updateOptions p env _ _⟩
  by_cases remote : t = .remote
  · intro
    exact .inr (by rw [← remote]; exact authed)
  · intro lock
    simp only [lockAfter, scopedLoginOption_lock remote kept] at lock
    exact .inl lock

def Core.authConnType (k : Core) : AuthConnType :=
  if k.fileTransfer.isSome then .fileTransfer
  else if k.portForwardSocket.isSome then .portForward
  else if k.viewCamera then .viewCamera
  else if k.terminal then .terminal
  else .remote

def Core.sessionKey (k : Core) : SessionKey := ⟨k.lr.myId, k.lr.myName, k.lr.sessionId⟩

/-- The view of an authorized connection, up to the lock that a remote session
can ask for. -/
def View.authorize (v : View) (lock : Bool) : View where
  core := { v.core with
    authorized := true
    authedConnId := some v.core.authConnType
    lockAfterSessionEnd := lock }
  shown := v.shown
  globals := { v.globals with
    authedConns :=
      v.globals.authedConns ++ [⟨v.core.id, v.core.authConnType, v.core.sessionKey⟩] }

theorem view_setAuthorized (h : Handling) :
    (setAuthorized h).view = h.view.authorize h.view.core.lockAfterSessionEnd := rfl

theorem view_updateCodecOnLogin (h : Handling) : (updateCodecOnLogin h).view = h.view := by
  simp [updateCodecOnLogin]

theorem view_sendPeerInfo (h : Handling) : (sendPeerInfo env h).1.view = h.view := by
  unfold sendPeerInfo
  split
  · simp
  split
  · simp [view_updateCodecOnLogin]
  split
  · simp [view_updateCodecOnLogin]
  · simp only [view_send, view_updateCodecOnLogin]
    rfl

@[simp] theorem view_trySubMonitorServices (h : Handling) :
    (trySubMonitorServices p env h).view = h.view := by
  unfold trySubMonitorServices
  split
  · exact (view_emit _ _).trans rfl
  · rfl

theorem view_initTerminalService (h : Handling) : (initTerminalService env h).view = h.view := by
  unfold initTerminalService
  split
  · rfl
  · exact (view_emit _ _).trans rfl

theorem view_startSession (h : Handling) (wait subService : Bool) :
    (startSession p env h wait subService).view = h.view := by
  unfold startSession
  split
  · simp only
    split
    · exact (view_emit _ _).trans rfl
    · rfl
  split
  · simp only
    split
    · rfl
    · exact (view_initTerminalService env _).trans rfl
  split
  · simp only [view_send]
    split
    · exact view_emit h .addCameraConnection
    · rfl
  split
  · simp
  · rfl

theorem view_authorize (h : Handling) :
    ∃ lock : Bool,
      (lock → h.view.core.lockAfterSessionEnd ∨ h.view.core.authConnType = .remote) ∧
      (authorize p env h).view = h.view.authorize lock := by
  unfold authorize
  simp only
  split
  · exact ⟨_, .inl, by rw [view_send, view_setAuthorized]⟩
  split
  · exact ⟨_, .inl, by rw [view_send, view_setAuthorized]⟩
  obtain ⟨lock, source, same⟩ :=
    view_updateScopedLoginOptions p env (sendPeerInfo env (setAuthorized h)).1
  rw [view_sendPeerInfo, view_setAuthorized] at source same
  refine ⟨lock, fun on => (source on).imp_right fun remote => ?_, ?_⟩
  · simpa [View.authorize] using remote
  · rw [view_startSession, same]
    rfl

theorem view_isRecentSession_tfa (h : Handling) :
    (isRecentSession p env h true).1.view =
      { h.view with globals := sweepSessions env.now h.globals } := by
  unfold isRecentSession
  simp only [if_true]
  split <;> rfl

/-- The second factor is not asked for. -/
def SecondFactorGiven (g : Globals) (c : Connection) : Prop :=
  c.require2fa = none ∨ c.fromSwitch = true ∨ recentSecondFactor env g c = true

/-- The view after the second factor was looked for. -/
def View.checked (v : View) : View :=
  if v.core.require2fa.isSome then { v with globals := sweepSessions env.now v.globals } else v

theorem view_needsSecondFactor (h : Handling) :
    (needsSecondFactor p env h).1.view = h.view.checked env ∧
      ((needsSecondFactor p env h).2 = false ↔ SecondFactorGiven env h.globals h.conn) := by
  unfold needsSecondFactor View.checked SecondFactorGiven
  cases required : h.conn.require2fa with
  | none => simp [Handling.view, Connection.core, required]
  | some totp =>
    have some : h.view.core.require2fa.isSome = true := by
      simp [Handling.view, Connection.core, required]
    simp only [Option.isSome_some, if_true, some]
    refine ⟨view_isRecentSession_tfa p env h, ?_⟩
    unfold isRecentSession
    simp only [if_true]
    split <;> rename_i recent
    · simp [recent]
    · simp [recent]

/-- The connection once its port is connected. -/
def Core.connected (k : Core) : Core :=
  match k.portForwardSocket, k.lr.union with
  | none, some (.portForward pf) =>
    let addr := (normalizePortForwardTarget pf).1
    { k with portForwardAddress := addr, portForwardSocket := some addr }
  | _, _ => k

@[simp] theorem connected_lockAfterSessionEnd (k : Core) :
    k.connected.lockAfterSessionEnd = k.lockAfterSessionEnd := by
  unfold Core.connected
  split <;> rfl

theorem connectPortForwardIfNeeded_cases (h : Handling) :
    (connectPortForwardIfNeeded env h).2 = true ∧
      (connectPortForwardIfNeeded env h).1.view =
        { h.view with core := h.view.core.connected } ∨
    (connectPortForwardIfNeeded env h).2 = false ∧
      ∃ addr, (connectPortForwardIfNeeded env h).1.view =
        { h.view with core := { h.view.core with portForwardAddress := addr } } := by
  unfold connectPortForwardIfNeeded Core.connected
  split
  · rename_i connected
    obtain ⟨addr, socket⟩ := Option.isSome_iff_exists.mp connected
    refine .inl ⟨rfl, ?_⟩
    simp [Handling.view, Connection.core, socket]
  · rename_i unconnected
    have socket : h.conn.portForwardSocket = none := by simpa using unconnected
    split
    · rename_i pf union
      simp only
      split
      · refine .inl ⟨rfl, ?_⟩
        simp [Handling.view, Connection.core, socket, union]
      · exact .inr ⟨rfl, _, (view_sendLoginError env _ _).trans rfl⟩
    · rename_i other
      refine .inl ⟨rfl, ?_⟩
      have same : h.view.core.portForwardSocket = none := socket
      simp only [same]
      split
      · rename_i union
        exact absurd union (other _)
      · rfl

/-- How `send_logon_response_and_keep_alive` ends for a connection that is not
authorized yet. -/
inductive Logon (h : Handling) : View → Bool → Prop where
  | owes (missing : ¬ SecondFactorGiven env h.globals h.conn) :
      Logon h (h.view.checked env) true
  | closed (k : Core) (unauthorized : k.authorized = false)
      (socket : k.portForwardSocket = h.conn.portForwardSocket) :
      Logon h { h.view.checked env with core := k } false
  | authorized (lock : Bool)
      (source : lock → h.conn.options.lockAfterSessionEnd ∨
        h.view.core.connected.authConnType = .remote)
      (given : SecondFactorGiven env h.globals h.conn) :
      Logon h ({ h.view.checked env with core := h.view.core.connected }.authorize lock) true

theorem checked_core (v : View) : (v.checked env).core = v.core := by
  unfold View.checked
  split <;> rfl

theorem prepareTerminal_close (h : Handling) :
    (prepareTerminalLoginForAuthorization p env h).2 ≠ some true := by
  unfold prepareTerminalLoginForAuthorization
  split
  · simp
  simp only
  split
  · simp
  split
  · simp
  split
  · simp
  split <;> simp

theorem logon_cases (h : Handling) (unauthorized : h.conn.authorized = false) :
    Logon env h (sendLogonResponseAndKeepAlive p env h).1.view
      (sendLogonResponseAndKeepAlive p env h).2 := by
  obtain ⟨checked, given⟩ := view_needsSecondFactor p env h
  unfold sendLogonResponseAndKeepAlive
  simp only [unauthorized, Bool.false_eq_true, if_false]
  generalize needsSecondFactor p env h = second at checked given
  obtain ⟨h₁, needs⟩ := second
  simp only at checked given
  cases needs with
  | true =>
    simp only [view_sendLoginError, checked]
    exact .owes fun done => by simpa using given.mpr done
  | false =>
    have given := given.mp rfl
    have prepared := view_prepareTerminal p env h₁
    have closes := prepareTerminal_close p env h₁
    simp only
    generalize prepareTerminalLoginForAuthorization p env h₁ = terminal at prepared closes
    obtain ⟨h₂, answer⟩ := terminal
    simp only [checked] at prepared closes ⊢
    have core : h₂.view.core = h.view.core := by rw [prepared, checked_core]
    cases answer with
    | some keepAlive =>
      have closed : keepAlive = false := by simpa using closes
      subst closed
      have view : h₂.view = { h.view.checked env with core := h₂.view.core } := by rw [prepared]
      simp only
      rw [view, core]
      exact .closed _ unauthorized rfl
    | none =>
      have connect := connectPortForwardIfNeeded_cases env h₂
      simp only
      generalize connectPortForwardIfNeeded env h₂ = port at connect
      obtain ⟨h₃, connected⟩ := port
      simp only [prepared, checked_core] at connect ⊢
      rcases connect with ⟨rfl, view⟩ | ⟨rfl, addr, view⟩
      · obtain ⟨lock, source, authorized⟩ := view_authorize p env h₃
        simp only
        rw [authorized, view]
        rw [view] at source
        exact .authorized lock (fun on => (source on).imp_left (by simp; exact id)) given
      · simp only
        rw [view]
        exact .closed _ unauthorized rfl

end CamelliaRemote.Server
