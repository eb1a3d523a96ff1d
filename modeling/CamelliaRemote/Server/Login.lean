import CamelliaRemote.Server.Options
import CamelliaRemote.Server.Sessions

namespace CamelliaRemote.Server

variable (p : Host) (env : Env)

def loginMsgDesktopSessionNotReady : String := "Desktop session not ready"
def loginMsgDesktopSessionNotReadyPasswordEmpty : String :=
  "Desktop session not ready, password empty"
def loginMsgDesktopSessionNotReadyPasswordWrong : String :=
  "Desktop session not ready, password wrong"
def loginMsgPasswordWrong : String := "Wrong Password"
def loginMsg2faWrong : String := "Wrong 2FA Code"
def require2faMsg : String := "2FA Required"
def loginMsgNoPasswordAccess : String := "No Password Access"
def loginMsgOffline : String := "Offline"

def sendLoginError (h : Handling) (err : String) : Handling :=
  h.send (.loginError err (err = require2faMsg && env.enableTrustedDevices))

def tryStartCm (h : Handling) (peerId name : String) (authorized : Bool) : Handling :=
  let c := h.conn
  h.sendToCm (.login
    { id := c.id
      isFileTransfer := c.fileTransfer.isSome
      isViewCamera := c.viewCamera
      isTerminal := c.terminal
      portForward := c.portForwardAddress
      peerId, name
      avatar := c.lr.avatar
      authorized
      keyboard := c.keyboard
      clipboard := c.clipboard
      audio := c.audio
      file := c.file
      restart := c.restart
      recording := c.recording
      blockInput := c.blockInput
      privacyMode := c.privacyMode
      fromSwitch := c.fromSwitch })

def tryStartCmIpc (h : Handling) : Handling :=
  if h.conn.startCmIpcPara then
    (h.setConn { h.conn with startCmIpcPara := false }).emit .startCmIpc
  else h

/-- `check_failure`: the entry it read, and whether the attempt is admitted. -/
def checkFailure (h : Handling) (i : FailureKind) : Handling × Login.FailureEntry × Bool :=
  match Login.checkFailure (h.globals.failures i) h.conn.ip env.minute with
  | (failure, none) => (h, failure, true)
  | (failure, some refusal) =>
    ((sendLoginError env h refusal.error).emit (.alarm refusal.audit), failure, false)

def updateFailure (h : Handling) (failure : Login.FailureEntry) (remove : Bool)
    (i : FailureKind) : Handling :=
  h.setGlobals (h.globals.setFailures i
    (Login.updateFailure (h.globals.failures i) h.conn.ip failure env.minute remove))

def utf8 (s : String) : Bytes := s.toUTF8.data.toList

def verifyH1 (c : Connection) (h1 : Bytes) : Bool :=
  p.sha256 (h1 ++ utf8 c.challenge) = c.lr.password

def validatePasswordPlain (c : Connection) (password : String) : Bool :=
  password ≠ "" && verifyH1 p c (p.sha256 (utf8 password ++ utf8 c.salt))

def validatePasswordStorage (c : Connection) (storage : String) : Bool :=
  (p.decodePermanentPasswordH1 storage).any (verifyH1 p c)

def validatePresetPasswordStorage (c : Connection) (storage salt : String) : Bool :=
  salt ≠ "" && (p.decodePresetPasswordH1 storage).any (verifyH1 p c)

/-- The response of the login request is right for the temporary password. -/
def temporaryPasswordVerifies (g : Globals) (c : Connection) : Bool :=
  env.temporaryEnabled && validatePasswordPlain p c g.temporaryPassword

/-- The response is right for the permanent password, or for the preset one if
there is no permanent password. -/
def permanentPasswordVerifies (c : Connection) (allowPermanentPassword : Bool) : Bool :=
  (env.permanentEnabled || allowPermanentPassword) &&
    if env.localStorage ≠ "" then
      p.localPasswordStorageUsable env.localStorage env.localSalt &&
        validatePasswordStorage p c env.localStorage
    else
      p.presetPasswordStorageUsable env.presetStorage env.presetSalt &&
        validatePresetPasswordStorage p c env.presetStorage env.presetSalt

/-- A tenth consecutive wrong attempt rotates the temporary password. -/
def checkUpdateTemporaryPassword (g : Globals) (success : Bool) : Globals :=
  if !env.temporaryEnabled || g.temporaryPassword = "" then g
  else
    let failures := if g.countedPassword = g.temporaryPassword then g.countedFailures else 0
    if success then { g with countedPassword := g.temporaryPassword, countedFailures := 0 }
    else if failures + 1 < 10 then
      { g with countedPassword := g.temporaryPassword, countedFailures := failures + 1 }
    else
      { g with
        temporaryPassword := env.freshPassword
        countedPassword := env.freshPassword
        countedFailures := 0 }

def setConnAuditPrimaryAuth (h : Handling) (method : ConnAuditPrimaryAuth) : Handling :=
  h.setConn { h.conn with connAuditPrimaryAuth := method }

def setConnAuditTwoFactor (h : Handling) (twoFactor : ConnAuditTwoFactor) : Handling :=
  h.setConn { h.conn with connAuditTwoFactor := twoFactor }

def validatePassword (h : Handling) (allowPermanentPassword : Bool) : Handling × Bool :=
  if temporaryPasswordVerifies p env h.globals h.conn then
    let h := setConnAuditPrimaryAuth h .temporaryPassword
    let g := updateOrInsertSession env.now h.globals h.conn.sessionKey
      (some h.globals.temporaryPassword) (some false)
    (h.setGlobals (checkUpdateTemporaryPassword env g true), true)
  else if permanentPasswordVerifies p env h.conn allowPermanentPassword then
    (setConnAuditPrimaryAuth h .permanentPassword, true)
  else (h, false)

/-- The entry of the connection's session, if it is live. -/
def liveSession (g : Globals) (c : Connection) : Option Session :=
  (g.sessions c.sessionKey).filter (·.live env.now g)

/-- The live session of the same key saves the second factor. -/
def recentSecondFactor (g : Globals) (c : Connection) : Bool :=
  (liveSession env g c).any fun s => !c.lr.password.isEmpty && s.tfa

/-- The response is right for the password of the live session of the same key. -/
def recentPasswordVerifies (g : Globals) (c : Connection) : Bool :=
  (liveSession env g c).any fun s =>
    !c.lr.password.isEmpty && validatePasswordPlain p c s.randomPassword

def isRecentSession (h : Handling) (tfa : Bool) : Handling × Bool :=
  let recent :=
    if tfa then recentSecondFactor env h.globals h.conn
    else recentPasswordVerifies p env h.globals h.conn
  let h := h.setGlobals (sweepSessions env.now h.globals)
  if recent then
    (if tfa then setConnAuditTwoFactor h .totp
      else setConnAuditPrimaryAuth h .temporaryPassword, true)
  else (h, false)

/-- `char::is_whitespace`: the Unicode property `White_Space`. -/
def isWhitespace (c : Char) : Bool :=
  let n := c.toNat
  (9 ≤ n && n ≤ 13) || n == 0x20 || n == 0x85 || n == 0xa0 || n == 0x1680 ||
    (0x2000 ≤ n && n ≤ 0x200a) || n == 0x2028 || n == 0x2029 || n == 0x202f || n == 0x205f ||
    n == 0x3000

/-- `trim().is_empty()`. -/
def isBlank (s : String) : Bool := s.toList.all isWhitespace

def shouldUseTerminalOsLoginScope (isTerminal : Bool) (username : String) : Bool :=
  p.os = .windows && isTerminal && !isBlank username

def prepareTerminalLoginForAuthorization (h : Handling) : Handling × Option Bool :=
  if p.os.mobile || !h.conn.terminal || h.conn.terminalUserToken.isSome then (h, none)
  else
    let osLogin := shouldUseTerminalOsLoginScope p h.conn.terminal h.conn.lr.osLogin.username
    match if osLogin then env.osCredentialPolicy else none with
    | some err => ((sendLoginError env h err).emit .osCredentialAlarm, some false)
    | none =>
      if osLogin && !env.osCredentialGateFree then
        ((sendLoginError env h "Please try 1 minute later").emit .osCredentialAlarm, some false)
      else
        match if p.os = .windows then env.fillTerminalUserToken else .ok .selfUser with
        | .error msg => (sendLoginError env h msg, some false)
        | .ok token =>
          let h := h.setConn { h.conn with terminalUserToken := some token }
          if env.isServiceSpecifiedUser.any (· != (token == .currentLogonUser)) then
            (sendLoginError env h "Terminal service user mismatch detected.", some false)
          else (if osLogin then tryStartCmIpc h else h, none)

/-- `normalize_port_forward_target`: the address, and whether it is RDP. -/
def normalizePortForwardTarget (pf : PortForward) : String × Bool :=
  let isRdp := pf.host = "RDP" && pf.port = 0
  let host := if isRdp || pf.host = "" then "localhost" else pf.host
  let port := if isRdp then 3389 else pf.port
  (host ++ ":" ++ toString port, isRdp)

def connectPortForwardIfNeeded (h : Handling) : Handling × Bool :=
  if h.conn.portForwardSocket.isSome then (h, true)
  else
    match h.conn.lr.union with
    | some (.portForward pf) =>
      let (addr, isRdp) := normalizePortForwardTarget pf
      let h := h.setConn { h.conn with portForwardAddress := addr }
      if env.portForwardConnects then
        (h.setConn { h.conn with portForwardSocket := some addr }, true)
      else
        let target := if isRdp then "RDP" else addr
        (sendLoginError env h
          s!"Failed to access remote {target}. Please make sure it is reachable/open.", false)
    | _ => (h, true)

/-- The type a connection is authorized with. -/
def selectAuthConnType (c : Connection) : AuthConnType :=
  if c.fileTransfer.isSome then .fileTransfer
  else if c.portForwardSocket.isSome then .portForward
  else if c.viewCamera then .viewCamera
  else if c.terminal then .terminal
  else .remote

/-- `authorized = true` up to the audit of the login. -/
def setAuthorized (h : Handling) : Handling :=
  let connType := selectAuthConnType h.conn
  let key := h.conn.sessionKey
  let g := { h.globals with authedConns := h.globals.authedConns ++ [⟨h.conn.id, connType, key⟩] }
  let twoFactor :=
    if h.conn.connAuditPrimaryAuth = .click || h.conn.connAuditPrimaryAuth = .switchSides then
      .none
    else h.conn.connAuditTwoFactor
  (h.setGlobals g).setConn { h.conn with
    authorized := true
    authedConnId := some connType
    sessionLastRecvTime := (g.sessions key).map (·.lastRecvTime)
    connAuditTwoFactor := twoFactor }

def trySubMonitorServices (h : Handling) : Handling :=
  if h.conn.isRemote && !h.conn.servicesSubed then
    let c := h.conn
    let noperms : List ServiceName :=
      (if !c.peerKeyboardEnabled && !c.options.showRemoteCursor then [ServiceName.cursor]
        else []) ++
      (if !c.options.showRemoteCursor then [ServiceName.pos] else []) ++
      (if !c.options.followRemoteWindow then [ServiceName.windowFocus] else []) ++
      (if !c.canSubClipboardService env then [ServiceName.clipboard] else []) ++
      (if p.unixFileCopyPaste && !c.canSubFileClipboardService env then
        [ServiceName.fileClipboard] else []) ++
      (if !c.audioEnabled then [ServiceName.audio] else [])
    (h.setConn { c with
      servicesSubed := true
      autoDisconnectTimer := env.allowAutoDisconnect.map (env.now, ·) }).emit
      (.addMonitorConnection noperms c.displayIdx)
  else h

def initTerminalService (h : Handling) : Handling :=
  match h.conn.terminalUserToken with
  | none => h
  | some _ =>
    let serviceId :=
      if h.conn.terminalServiceId = "" then env.generatedServiceId else h.conn.terminalServiceId
    (h.setConn { h.conn with terminalServiceId := serviceId }).emit
      (.initTerminalService serviceId h.conn.options.terminalPersistent)

/-- `handle_windows_specific_session`: the peer has to choose a session first. -/
def waitSessionIdConfirm (h : Handling) : Bool :=
  p.os = .windows && !h.conn.terminal && env.isInstalled && env.isShareRdp &&
    (h.globals.authedConns.filter (·.connType ≠ .portForward)).length = 1 &&
    env.windowsSessions.length > 1 && env.currentSessionId.any (env.windowsSessions.contains ·) &&
    p.getVersionNumber "1.2.4" ≤ p.getVersionNumber h.conn.lr.version

def updateCodecOnLogin (h : Handling) : Handling :=
  h.emit (.encoderUpdate (h.conn.lr.option.bind (·.supportedDecoding)))

/-- The login response, and whether the monitor services can be subscribed. -/
def sendPeerInfo (h : Handling) : Handling × Bool :=
  if h.conn.fileTransfer.isSome || h.conn.terminal then (h.send .peerInfo, false)
  else if h.conn.viewCamera then ((updateCodecOnLogin h).send .peerInfo, false)
  else
    match env.displaysOnLogin with
    | .error err => ((updateCodecOnLogin h).send (.loginError err false), false)
    | .ok primary =>
      ((updateCodecOnLogin (h.setConn { h.conn with displayIdx := primary })).send .peerInfo, true)

/-- What follows the login response, by the type of the session. -/
def startSession (h : Handling) (wait subService : Bool) : Handling :=
  match h.conn.fileTransfer with
  | some (dir, showHidden) =>
    let dir := if dir ≠ "" && env.isDir dir then dir else ""
    let h := h.setConn { h.conn with keyboard := false }
    if !wait then h.sendFs (.readDir dir showHidden)
    else h.setConn { h.conn with delayedReadDir := some (dir, showHidden) }
  | none =>
    if h.conn.terminal then
      let h := h.setConn { h.conn with keyboard := false }
      if p.os.mobile then h else initTerminalService env h
    else if h.conn.viewCamera then
      let h := if !wait then h.emit .addCameraConnection else h
      (h.setConn { h.conn with keyboard := false }).send (.permission .keyboard false)
    else if subService && !wait then trySubMonitorServices p env h
    else h

/-- `send_logon_response_and_keep_alive` from `authorized = true` on. -/
def authorize (h : Handling) : Handling :=
  let h := setAuthorized h
  if h.conn.portForwardSocket.isSome then h.send .peerInfo
  else if p.os = .linux && h.conn.isRemote && env.displayServerError ≠ "" then
    h.send (.loginError env.displayServerError false)
  else
    let wait := waitSessionIdConfirm p env h
    let (h, subService) := sendPeerInfo env h
    let h := updateScopedLoginOptions p env h
    startSession p env h wait subService

/-- The peer still owes the second factor. -/
def needsSecondFactor (h : Handling) : Handling × Bool :=
  if h.conn.require2fa.isSome then
    let (h, recent) := isRecentSession p env h true
    (h, !recent && !h.conn.fromSwitch)
  else (h, false)

def sendLogonResponseAndKeepAlive (h : Handling) : Handling × Bool :=
  if h.conn.authorized then (h, true)
  else
    match needsSecondFactor p env h with
    | (h, true) => (sendLoginError env h require2faMsg, true)
    | (h, false) =>
      match prepareTerminalLoginForAuthorization p env h with
      | (h, some keepAlive) => (h, keepAlive)
      | (h, none) =>
        match connectPortForwardIfNeeded env h with
        | (h, false) => (h, false)
        | (h, true) => (authorize p env h, true)

/-- `send_logon_response_and_keep_alive`, and then the connection manager hears of it. -/
def logonAndStartCm (h : Handling) (peerId name : String) : Handling × Bool :=
  match sendLogonResponseAndKeepAlive p env h with
  | (h, false) => (h, false)
  | (h, true) => (tryStartCm h peerId name h.conn.authorized, true)

end CamelliaRemote.Server
