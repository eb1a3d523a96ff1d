import CamelliaRemote.Lib.Runs
import CamelliaRemote.Server.Handlers

namespace CamelliaRemote.Server

variable (p : Host) (env : Env)

def sendCloseReasonNoRetry (h : Handling) (reason : String) : Handling :=
  let h := h.send (.closeReason (if reason = "" then "Closed manually by the peer" else reason))
  h.setGlobals (checkRemoveSession h.globals h.conn.id h.conn.sessionKey)

/-- A violation is recorded, and reported the first time. -/
def reportScopeViolation (h : Handling) (message : String) : Handling :=
  let connType := (h.conn.authedConnType.map AuthConnType.asStr).getD "unknown"
  if message ∈ h.conn.scopeViolationMessages then h
  else
    let h := h.setConn { h.conn with
      scopeViolationMessages := h.conn.scopeViolationMessages ++ [message] }
    if env.scopeViolationAlarm then h.emit (.scopeViolationAlarm connType message) else h

def handleAuthorizedScopeViolation (h : Handling) (message : String) : Handling × Bool :=
  let h := reportScopeViolation env h message
  if env.scopeViolationClose then
    (onClose p (sendCloseReasonNoRetry h "Connection not allowed") true, false)
  else (h, true)

def onTestDelay (h : Handling) (t : TestDelay) : Handling :=
  if t.fromClient then h.send (.testDelay t)
  else
    match h.conn.lastTestDelay with
    | none => h
    | some tm =>
      let delay := env.now - tm
      (h.emit (.userNetworkDelay delay)).setConn { h.conn with
        lastTestDelay := none, networkDelay := delay }

def onCloseReason (h : Handling) : Handling × Bool :=
  let h := onClose p h true
  (h.setGlobals (checkRemoveSession h.globals h.conn.id h.conn.sessionKey), false)

/-- What follows the gate of an authorized connection. -/
def dispatch (h : Handling) (msg : Message) : Handling × Bool :=
  match msg with
  | some (.loginRequest lr) => onLoginRequest p env h lr
  | some (.auth2fa tfa) => onAuth2fa p env h tfa
  | some (.testDelay t) => (onTestDelay env h t, true)
  | some (.switchSidesResponse s) => onSwitchSidesResponse p env h s
  | some msg =>
    if h.conn.authorized && h.conn.portForwardSocket.isNone then onAuthorizedMessage p env h msg
    else (h, true)
  | none => (h, true)

def isLoginRequest : Message → Bool
  | some (.loginRequest _) => true
  | _ => false

def isCloseReason : Message → Bool
  | some (.misc (some (.closeReason _))) => true
  | _ => false

def onMessage (h : Handling) (msg : Message) : Handling × Bool :=
  if isCloseReason msg then onCloseReason p h
  else if h.conn.authorized then
    if isLoginRequest msg then (h, true)
    else
      match authorizedScopeViolation p h.conn msg with
      | some message => handleAuthorizedScopeViolation p env h message
      | none => dispatch p env h msg
  else dispatch p env h msg

/-- `ipc::Data`, as far as the connection manager sends it to a connection and
it is more than a message to pass on. -/
inductive FromCm where
  | authorize
  | close
  | cmErr (e : String)
  | chatMessage (text : String)
  | switchPermission (name : PermissionName) (enabled : Bool)
  | voiceCallResponse (accepted : Bool)
  | closeVoiceCall
  | readJobEnded (id : Int)

def setPermission (c : Connection) (name : PermissionName) (enabled : Bool) : Connection :=
  match name with
  | .keyboard => { c with keyboard := enabled }
  | .clipboard => { c with clipboard := enabled }
  | .audio => { c with audio := enabled }
  | .file => { c with file := enabled }
  | .restart => { c with restart := enabled }
  | .recording => { c with recording := enabled }
  | .blockInput => { c with blockInput := enabled }
  | .privacyMode => { c with privacyMode := enabled }

/-- The subscriptions that follow a permission. -/
def resubscribe (h : Handling) (name : PermissionName) (enabled : Bool) : Handling :=
  let c := h.conn
  match name with
  | .keyboard =>
    let h := h.subscribe .clipboard (c.canSubClipboardService env)
    let h :=
      if p.unixFileCopyPaste then
        h.subscribe .fileClipboard (c.canSubFileClipboardService env)
      else h
    h.subscribe .cursor (enabled || c.options.showRemoteCursor)
  | .clipboard => h.subscribe .clipboard (c.canSubClipboardService env)
  | .audio =>
    if c.authorized && (!c.isAuthedViewCameraConn || c.voiceCalling || !c.audioEnabled) then
      h.subscribe .audio c.audioEnabled
    else h
  | .file =>
    if p.unixFileCopyPaste then
      let h := if !enabled then h.emit .tryEmptyFileClipboard else h
      h.subscribe .fileClipboard (c.canSubFileClipboardService env)
    else h
  | .restart | .recording | .blockInput | .privacyMode => h

/-- Revoking privacy mode leaves it first; if that fails, the permission stays. -/
def revokePrivacyMode (h : Handling) : Handling × Bool :=
  if env.isInPrivacyMode && env.privacyModeConnId = some h.conn.id then
    let h := h.emit .turnOffPrivacy
    match env.turnOffPrivacy with
    | some (.ok ()) => (h.send (.privacyMode .prvOffByPeer "" env.curImplKey), true)
    | res =>
      let h := h.send (turnOffPrivacyResultToMsg res env.curImplKey)
      (h.sendToCm (.switchPermission .privacyMode h.conn.privacyMode), false)
  else (h, true)

def onSwitchPermission (h : Handling) (name : PermissionName) (enabled : Bool) : Handling :=
  match if name = .privacyMode && !enabled then revokePrivacyMode env h else (h, true) with
  | (h, false) => h
  | (h, true) =>
    let h := h.setConn (setPermission h.conn name enabled)
    resubscribe p env (h.send (.permission name enabled)) name enabled

def onCm (h : Handling) : FromCm → Handling × Bool
  | .authorize =>
    match onAuthorize p env h with
    | (h, keepAlive) => (h, keepAlive && h.conn.portForwardSocket.isNone)
  | .close =>
    let h := h.setConn { h.conn with chatUnanswered := false, fileTransferred := false }
    (onClose p (sendCloseReasonNoRetry h "") true, false)
  | .cmErr e => if e ≠ "expected" then (onClose p h false, false) else (h, true)
  | .chatMessage text =>
    ((h.send (.chatMessage text)).setConn { h.conn with chatUnanswered := false }, true)
  | .switchPermission name enabled => (onSwitchPermission p env h name enabled, true)
  | .voiceCallResponse accepted => (handleVoiceCall h accepted, true)
  | .closeVoiceCall => (closeVoiceCall h, true)
  | .readJobEnded id =>
    (h.setConn { h.conn with cmReadJobIds := h.conn.cmReadJobIds.filter (· ≠ id) }, true)

inductive Turn where
  | message (msg : Message)
  | cm (data : FromCm)
  /-- The test-delay timer, while the peer answers. -/
  | testDelayTick
  /-- The stream fails, the peer is silent, the user is idle. -/
  | lost (lock : Bool)
  /-- A printer job for the peer. -/
  | printerData (path : String)

/-- `session_last_recv_time` is set on every message. -/
def touchSession (g : Globals) (c : Connection) : Globals :=
  match c.sessionLastRecvTime with
  | some cell => { g with instants := Function.update g.instants cell env.now }
  | none => g

/-- A message in the loop: a port forward ends the loop once it is authorized
and no `TestDelay` is on its way. -/
def turnMessage (h : Handling) (msg : Message) : Handling × Bool :=
  let h := h.setGlobals (touchSession env h.globals h.conn)
  match onMessage p env h msg with
  | (h, keepAlive) =>
    let forwards := h.conn.portForwardSocket.isSome && h.conn.authorized
    (h, keepAlive && !(forwards && h.conn.lastTestDelay.isNone))

def Handling.turn (h : Handling) : Turn → Handling × Bool
  | .message msg => turnMessage p env h msg
  | .cm data => onCm p env h data
  | .testDelayTick =>
    if h.conn.lastTestDelay.isNone && !(h.conn.portForwardSocket.isSome && h.conn.authorized) then
      let t : TestDelay := { lastDelay := h.conn.networkDelay }
      ((h.send (.testDelay t)).setConn { h.conn with lastTestDelay := some env.now }, true)
    else (h, true)
  | .lost lock => (onClose p h lock, false)
  | .printerData path =>
    let fresh := h.conn.printerData.filter (env.now - ·.1 < 60000)
    let c := { h.conn with printerData := fresh ++ [(env.now, path)] }
    ((h.send (.fsSendPrinter path)).setConn c, true)

def endForward (h : Handling) : Handling :=
  let h := onClose p h false
  h.setGlobals (checkRemoveSession h.globals h.conn.id h.conn.sessionKey)

/-- `try_port_forward_loop`: the bytes of the peer are no messages any more, and
the connection manager can only end it. -/
def Handling.forward (h : Handling) (t : Turn) : Handling × Bool :=
  match t with
  | .cm .close => (endForward p h, false)
  | .cm (.cmErr _) => (endForward p h, false)
  | .lost _ => (endForward p h, false)
  | _ => (h, true)

/-- After the loop an authorized connection changes the temporary password. -/
def leaveLoop (h : Handling) : Globals :=
  if h.conn.authorized then { h.globals with temporaryPassword := env.freshPassword }
  else h.globals

/-- Dropping `AuthedConnID` takes the connection off the list. -/
def dropAuthedConn (g : Globals) (id : Nat) : Globals :=
  { g with authedConns := g.authedConns.filter (·.connId ≠ id) }

/-- What `Connection::start` reads. -/
structure Opening where
  ip : Login.IpAddr
  salt : String
  challenge : String
  isHeadlessAllowed : Bool
  require2fa : Option Totp
  keyboard : Bool
  clipboard : Bool
  audio : Bool
  file : Bool
  restart : Bool
  recording : Bool
  blockInput : Bool
  privacyMode : Bool

def Opening.start (o : Opening) (id : Nat) : Connection where
  id
  ip := o.ip
  salt := o.salt
  challenge := o.challenge
  isHeadlessAllowed := o.isHeadlessAllowed
  require2fa := o.require2fa
  keyboard := o.keyboard
  clipboard := o.clipboard
  audio := o.audio
  file := o.file
  restart := o.restart
  recording := o.recording
  blockInput := o.blockInput
  privacyMode := o.privacyMode

/-- An open connection and all that it has done. -/
structure Live where
  conn : Connection
  did : List Effect := []
  /-- The connection has left its loop and forwards a port. -/
  forwarding : Bool := false

structure World where
  globals : Globals := {}
  conns : Nat → Option Live := fun _ => none
  next : Nat := 1

inductive Event where
  | opened (o : Opening)
  | turn (id : Nat) (env : Env) (t : Turn)
  /-- Changes from outside: a new temporary password, the list of trusted
  devices, a stored switch-sides uuid. -/
  | temporaryPassword (password : String)
  | trustedDevices (devices : List TrustedDevice)
  | switchSidesUuid (peerId : String) (now : Nat) (uuid : Bytes)

/-- A connection whose loop has ended goes on as a port forward or is dropped. -/
def World.settle (w : World) (id : Nat) (env : Env) (l : Live) (h : Handling) (again : Bool) :
    World :=
  let did := l.did ++ h.effects
  if again then
    { w with
      globals := h.globals
      conns := Function.update w.conns id (some ⟨h.conn, did, l.forwarding⟩) }
  else
    let g := if l.forwarding then h.globals else leaveLoop env h
    if h.conn.portForwardSocket.isSome then
      { w with globals := g, conns := Function.update w.conns id (some ⟨h.conn, did, true⟩) }
    else
      { w with globals := dropAuthedConn g id, conns := Function.update w.conns id none }

/-- What a turn of an open connection does to it, and whether its loop goes on. -/
def Live.turn (l : Live) (g : Globals) (env : Env) (t : Turn) : Handling × Bool :=
  if l.forwarding then Handling.forward p ⟨g, l.conn, []⟩ t
  else Handling.turn p env ⟨g, l.conn, []⟩ t

def World.turn (w : World) (id : Nat) (env : Env) (t : Turn) : World :=
  match w.conns id with
  | none => w
  | some l => w.settle id env l (l.turn p w.globals env t).1 (l.turn p w.globals env t).2

def World.step (w : World) : Event → World
  | .opened o =>
    { w with
      conns := Function.update w.conns w.next (some { conn := o.start w.next })
      next := w.next + 1 }
  | .turn id env t => w.turn p id env t
  | .temporaryPassword password =>
    { w with globals := { w.globals with temporaryPassword := password } }
  | .trustedDevices devices => { w with globals := { w.globals with trustedDevices := devices } }
  | .switchSidesUuid peerId now uuid =>
    { w with
      globals := { w.globals with
        switchSidesUuid := Function.update w.globals.switchSidesUuid peerId (some (now, uuid)) } }

abbrev World.run (w : World) (es : List Event) : World := Runs.run (World.step p) w es

end CamelliaRemote.Server
