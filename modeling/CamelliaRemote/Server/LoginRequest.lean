import CamelliaRemote.Server.Login

namespace CamelliaRemote.Server

variable (p : Host) (env : Env)

/-- An unexpired trusted device stands for the second factor. -/
def trustedDeviceMatches (g : Globals) (lr : LoginRequest) : Bool :=
  !lr.hwid.isEmpty && env.enableTrustedDevices &&
    (g.trustedDevices.find? (·.hwid = lr.hwid)).any fun d =>
      !p.outdate d env.time && d.id = lr.myId && d.name = lr.myName && d.platform = lr.myPlatform

def handleLoginRequestWithoutValidation (h : Handling) (lr : LoginRequest) : Handling :=
  let c := { h.conn with
    lr
    peerArgb := p.str2color (lr.myId ++ lr.myPlatform)
    optionsInLogin := lr.option <|> h.conn.optionsInLogin
    videoAckRequired := lr.videoAckRequired }
  if c.require2fa.isSome && trustedDeviceMatches p env h.globals lr then
    h.setConn { c with connAuditTwoFactor := .trustedDevice, require2fa := none }
  else h.setConn c

def resetSessionScopeForLogin (h : Handling) : Handling :=
  h.setConn { h.conn with
    fileTransfer := none
    viewCamera := false
    terminal := false
    portForwardAddress := ""
    options := { h.conn.options with terminalPersistent := false } }

/-- The scope that the request asks for, or why the connection is closed. -/
def selectSessionScope (c : Connection) (lr : LoginRequest) : Except String Connection :=
  match lr.union with
  | some (.fileTransfer dir showHidden) =>
    if !env.permission .fileTransfer then .error "No permission of file transfer"
    else .ok { c with fileTransfer := some (dir, showHidden) }
  | some .viewCamera =>
    if !env.permission .camera then .error "No permission of viewing camera"
    else .ok { c with viewCamera := true }
  | some (.terminal serviceId) =>
    if !env.permission .terminal then .error "No permission of terminal"
    else if p.os = .windows && lr.osLogin.username ≠ "" && !env.isInstalled then
      .error "Supported only in the installed version."
    else
      let persistent :=
        match c.optionsInLogin with
        | some o => o.terminalPersistent = some .yes
        | none => c.options.terminalPersistent
      .ok { c with
        terminal := true
        options := { c.options with terminalPersistent := persistent }
        terminalServiceId := serviceId }
  | some (.portForward pf) =>
    if !env.permission .tunnel then .error "No permission of IP tunneling"
    else .ok { c with portForwardAddress := (normalizePortForwardTarget pf).1 }
  | none => if env.isInPrivacyMode then .error "Someone turns on privacy mode, exit" else .ok c

def allowsLogonScreenPassword : Bool := env.allowLogonScreenPassword && env.isLogon

/-- The login as a click of the local user, without a password. -/
def clickOnly (allowLogonScreenPassword : Bool) : Bool :=
  (env.approveMode = .click && !allowLogonScreenPassword) ||
    (env.approveMode = .both && !env.hasValidPassword)

/-- Ask the local user; a terminal with an OS login is checked first. -/
def askConnectionManager (h : Handling) (lr : LoginRequest) : Handling × Bool :=
  match if shouldUseTerminalOsLoginScope p h.conn.terminal lr.osLogin.username then
      prepareTerminalLoginForAuthorization p env h
    else (h, none) with
  | (h, some keepAlive) => (h, keepAlive)
  | (h, none) => (tryStartCm h lr.myId lr.myName false, true)

/-- The last branch: a password is there and is no recent one. -/
def checkPassword (h : Handling) (lr : LoginRequest) (allowLogonScreenPassword : Bool)
    (errMsg : String) : Handling × Bool :=
  match checkFailure env h .password with
  | (h, _, false) => (h, true)
  | (h, failure, true) =>
    match validatePassword p env h allowLogonScreenPassword with
    | (h, false) =>
      let h := updateFailure env h failure false .password
      let h := h.setGlobals (checkUpdateTemporaryPassword env h.globals false)
      if errMsg = "" then
        (tryStartCm (sendLoginError env h loginMsgPasswordWrong) lr.myId lr.myName false, true)
      else (sendLoginError env h loginMsgDesktopSessionNotReadyPasswordWrong, true)
    | (h, true) =>
      let h := updateFailure env h failure true .password
      if errMsg = "" then logonAndStartCm p env h lr.myId lr.myName
      else (sendLoginError env h errMsg, true)

def authenticate (h : Handling) (lr : LoginRequest) (errMsg : String) : Handling × Bool :=
  if clickOnly env (allowsLogonScreenPassword env) then
    match askConnectionManager p env h lr with
    | (h, false) => (h, false)
    | (h, true) =>
      if p.getVersionNumber "1.2.0" ≤ p.getVersionNumber lr.version then
        (sendLoginError env h loginMsgNoPasswordAccess, true)
      else (h, true)
  else
    match isRecentSession p env h false with
    | (h, true) =>
      if errMsg = "" then logonAndStartCm p env h lr.myId lr.myName
      else (sendLoginError env h errMsg, true)
    | (h, false) =>
      if lr.password.isEmpty then
        if errMsg = "" then askConnectionManager p env h lr
        else (sendLoginError env h loginMsgDesktopSessionNotReadyPasswordEmpty, true)
      else checkPassword p env h lr (allowsLogonScreenPassword env) errMsg

def shouldCheckLinuxHeadlessOsAuthBeforeDesktopStart (c : Connection) (lr : LoginRequest) :
    Bool :=
  p.os = .linux && c.isHeadlessAllowed && !isBlank lr.osLogin.username &&
    env.desktopUsername = ""

def shouldRecordLinuxHeadlessOsAuthFailure (c : Connection) (lr : LoginRequest)
    (errMsg : String) : Bool :=
  c.isHeadlessAllowed && !isBlank lr.osLogin.username && errMsg = loginMsgPasswordWrong

/-- `try_start_desktop`; only Linux starts a desktop. -/
def startDesktopErr (c : Connection) : String :=
  if p.os = .linux && c.isHeadlessAllowed then env.tryStartDesktop else ""

/-- The desktop cannot be started, and that is not only a matter of waiting. -/
def desktopFails (errMsg : String) : Bool :=
  errMsg ≠ "" && errMsg ≠ loginMsgDesktopSessionNotReady

def startDesktop (h : Handling) (lr : LoginRequest) : Handling × Bool :=
  let errMsg := startDesktopErr p env h.conn
  if desktopFails errMsg then
    if shouldRecordLinuxHeadlessOsAuthFailure h.conn lr errMsg then
      match checkFailure env h .password with
      | (h, _, false) => (h, true)
      | (h, failure, true) =>
        (sendLoginError env (updateFailure env h failure false .password) errMsg, true)
    else (sendLoginError env h errMsg, true)
  else authenticate p env h lr errMsg

def checkHeadless (h : Handling) (lr : LoginRequest) : Handling × Bool :=
  if shouldCheckLinuxHeadlessOsAuthBeforeDesktopStart p env h.conn lr then
    match checkFailure env h .password with
    | (h, _, false) => (h, true)
    | (h, _, true) => startDesktop p env h lr
  else startDesktop p env h lr

def onLoginRequest (h : Handling) (lr : LoginRequest) : Handling × Bool :=
  let h := handleLoginRequestWithoutValidation p env h lr
  if h.conn.authorized then (h, true)
  else
    let h := resetSessionScopeForLogin h
    match selectSessionScope p env h.conn lr with
    | .error err => (sendLoginError env h err, false)
    | .ok c =>
      let h := h.setConn c
      if !p.isDirectIpAccess lr.username && lr.username ≠ env.ownId then
        (sendLoginError env h loginMsgOffline, false)
      else if p.os = .windows && c.terminal && isBlank lr.osLogin.username && env.isPrelogin then
        (sendLoginError env h
          "No active console user logged on, please connect and logon first.", false)
      else
        let h :=
          if p.os.mobile || shouldUseTerminalOsLoginScope p c.terminal lr.osLogin.username then h
          else tryStartCmIpc h
        checkHeadless p env h lr

def addTrustedDevice (h : Handling) (tfa : Auth2fa) : Handling :=
  if !tfa.hwid.isEmpty && env.enableTrustedDevices then
    let lr := h.conn.lr
    let device := ⟨tfa.hwid, env.time, lr.myId, lr.myName, lr.myPlatform⟩
    h.setGlobals { h.globals with
      trustedDevices := env.addTrustedDevice h.globals.trustedDevices device }
  else h

/-- What follows a right code. -/
def passSecondFactor (h : Handling) (failure : Login.FailureEntry) : Handling :=
  let h := updateFailure env h failure true .tfa
  let h := h.setConn { h.conn with require2fa := none, connAuditTwoFactor := .totp }
  h.setGlobals (setSession2fa env.now h.globals h.conn.sessionKey)

def onAuth2fa (h : Handling) (tfa : Auth2fa) : Handling × Bool :=
  match checkFailure env h .tfa with
  | (h, _, false) => (h, true)
  | (h, failure, true) =>
    match h.conn.require2fa.bind (p.checkCurrent · env.time tfa.code) with
    | none => (h, true)
    | some false =>
      (sendLoginError env (updateFailure env h failure false .tfa) loginMsg2faWrong, true)
    | some true =>
      let h := passSecondFactor env h failure
      match logonAndStartCm p env h h.conn.lr.myId h.conn.lr.myName with
      | (h, false) => (h, false)
      | (h, true) => (addTrustedDevice env h tfa, true)

/-- Ten seconds. -/
def switchSidesTimeout : Nat := 10000

/-- The unexpired uuid stored for the peer. -/
def storedSwitchUuid (g : Globals) (peerId : String) : Option Bytes :=
  ((g.switchSidesUuid peerId).filter (env.now - ·.1 < switchSidesTimeout)).map (·.2)

/-- `Uuid::from_slice`. -/
def uuidFromSlice (bytes : Bytes) : Option Bytes := if bytes.length = 16 then some bytes else none

/-- The response carries the unexpired uuid stored for its peer. -/
def switchUuidMatches (g : Globals) (uuid : Bytes) (peerId : String) : Bool :=
  (uuidFromSlice uuid).any fun uuid => storedSwitchUuid env g peerId = some uuid

def takeSwitchUuid (g : Globals) (peerId : String) : Globals :=
  { g with
    switchSidesUuid := Function.update
      (fun id => (g.switchSidesUuid id).filter (env.now - ·.1 < switchSidesTimeout)) peerId none }

/-- The connection takes over the request of the response, as a remote session. -/
def switchSides (h : Handling) (lr : LoginRequest) : Handling :=
  let h := handleLoginRequestWithoutValidation p env (resetSessionScopeForLogin h) lr
  h.setConn { h.conn with fromSwitch := true, connAuditPrimaryAuth := .switchSides }

def onSwitchSidesResponse (h : Handling) (s : SwitchSidesResponse) : Handling × Bool :=
  if !p.flutter || p.os.mobile then (h, true)
  else
    match s.lr with
    | none => (h, true)
    | some lr =>
      let same := switchUuidMatches env h.globals s.uuid lr.myId
      let h := h.setGlobals (takeSwitchUuid env h.globals lr.myId)
      if !same then (h, true)
      else if lr.union.isSome then (sendLoginError env h "Connection not allowed", false)
      else
        match logonAndStartCm p env (switchSides p env h lr) lr.myId lr.myName with
        | (h, false) => (h, false)
        | (h, true) => (tryStartCmIpc h, true)

/-- The local user accepts: no password and no second factor is needed. -/
def onAuthorize (h : Handling) : Handling × Bool :=
  sendLogonResponseAndKeepAlive p env
    (h.setConn { h.conn with connAuditPrimaryAuth := .click, require2fa := none })

end CamelliaRemote.Server
