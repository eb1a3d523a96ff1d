import CamelliaRemote.Login.Failures
import CamelliaRemote.Protocol

/-!
The state of `server/connection.rs`. One `Connection` per peer, and the globals that all
connections share. A handler takes the state as a `Handling` and gives back the next one with
everything the handling did to the outside, in order. What the outside answers is a parameter:
`Host` is fixed for a run (the build, and pure functions of other crates), `Env` belongs to one
event (clocks, settings, the answers of the platform).
-/

namespace CamelliaRemote.Server

inductive Os where
  | windows
  | linux
  | macos
  | android
  | ios
  deriving DecidableEq, Repr

/-- `cfg(any(target_os = "android", target_os = "ios"))`. -/
def Os.mobile : Os → Bool
  | .android | .ios => true
  | _ => false

/-- The secret of `require_2fa`. -/
structure Totp where
  secret : Bytes

structure TrustedDevice where
  hwid : Bytes
  time : Int
  id : String
  name : String
  platform : String

abbrev Key := Nat

structure Host where
  os : Os
  flutter : Bool
  unixFileCopyPaste : Bool
  sha256 : Bytes → Bytes
  decodePermanentPasswordH1 : String → Option Bytes
  decodePresetPasswordH1 : String → Option Bytes
  localPasswordStorageUsable : (storage salt : String) → Bool
  presetPasswordStorageUsable : (storage salt : String) → Bool
  /-- `TOTP::check_current` at a time; `none` if it fails. -/
  checkCurrent : Totp → Int → String → Option Bool
  outdate : TrustedDevice → Int → Bool
  isDirectIpAccess : String → Bool
  getVersionNumber : String → Int
  canEnableOverwriteDetection : Int → Bool
  str2color : String → Nat
  modifierKey : Nat → Option Key
  isModifier : KeyEvent → Bool
  controlKey : Key → Option Int
  msg2clip : Bytes → Option Bytes

inductive ApproveMode where
  | both
  | password
  | click
  deriving DecidableEq, Repr

inductive LoginPermission where
  | fileTransfer
  | camera
  | terminal
  | tunnel
  deriving DecidableEq, Repr

/-- The two maps of `LOGIN_FAILURES`. -/
inductive FailureKind where
  | password
  | tfa
  deriving DecidableEq, Repr

inductive TerminalUserToken where
  | selfUser
  | currentLogonUser
  deriving DecidableEq, Repr

structure Env where
  /-- `Instant::now()` in milliseconds. -/
  now : Nat := 0
  /-- `get_time()` in milliseconds. -/
  time : Int := 0
  ownId : String := ""
  approveMode : ApproveMode := .both
  hasValidPassword : Bool := true
  temporaryEnabled : Bool := true
  permanentEnabled : Bool := true
  /-- What `update_temporary_password` would generate. -/
  freshPassword : String := ""
  localStorage : String := ""
  localSalt : String := ""
  presetStorage : String := ""
  presetSalt : String := ""
  allowLogonScreenPassword : Bool := false
  isLogon : Bool := false
  isPrelogin : Bool := false
  isInstalled : Bool := true
  isShareRdp : Bool := false
  isServer : Bool := true
  enableTrustedDevices : Bool := false
  /-- The list that `Config::add_trusted_device` leaves. -/
  addTrustedDevice : List TrustedDevice → TrustedDevice → List TrustedDevice :=
    fun devices device => devices ++ [device]
  permission : LoginPermission → Bool := fun _ => true
  isInPrivacyMode : Bool := false
  /-- `privacy_mode::get_privacy_mode_conn_id` and `get_cur_impl_key`. -/
  privacyModeConnId : Option Nat := none
  curImplKey : String := ""
  desktopUsername : String := ""
  tryStartDesktop : String := ""
  displayServerError : String := ""
  /-- `get_sync_displays` on login: the primary display, or the error. -/
  displaysOnLogin : Except String Nat := .ok 0
  portForwardConnects : Bool := true
  /-- `evaluate_os_credential_policy`: the login error of a blocked attempt. -/
  osCredentialPolicy : Option String := none
  osCredentialGateFree : Bool := true
  /-- `fill_terminal_user_token` on Windows. -/
  fillTerminalUserToken : Except String TerminalUserToken := .ok .selfUser
  isServiceSpecifiedUser : Option Bool := none
  generatedServiceId : String := ""
  isDir : String → Bool := fun _ => true
  /-- `get_available_sessions`, `get_current_process_session_id`. -/
  windowsSessions : List Nat := []
  currentSessionId : Option Nat := none
  scopeViolationAlarm : Bool := false
  scopeViolationClose : Bool := false
  oneWayFileTransfer : Bool := false
  oneWayClipboardRedirection : Bool := false
  allowAutoDisconnect : Option Nat := none
  videoSourceCount : Nat := 0
  /-- `get_subbed_displays_count` after `capture_displays`. -/
  subbedDisplaysCount : Nat := 0
  /-- The displays that `change_resolution` finds, by name. -/
  displays : List String := []
  /-- The index has a display to describe in `make_display_changed_msg`. -/
  displayKnown : Bool := true
  isPrivacyModeSupported : Bool := true
  /-- The key of an implementation that is on and no longer the current one. -/
  replacedImplKey : Option String := none
  /-- `privacy_mode::turn_on_privacy` and then `check_privacy_mode_err`. -/
  turnOnPrivacy : Option (Except String Bool) := none
  privacyModeErr : String := ""
  turnOffPrivacy : Option (Except String Unit) := none
  isWin10OrGreater : Bool := true
  whiteboardSupported : Bool := true
  virtualDisplaySupported : Bool := true
  plugMonitor : Except String Unit := .ok ()
  portableServiceRunning : Bool := false
  startPortableService : Except String Unit := .ok ()
  newReadJob : Except String Nat := .ok 0
  maxValidatedFiles : Nat := 0
  /-- What `serve_clip_messages` answers the peer; `none` is a list of files,
  which is only audited. -/
  clipReplies : List (Option Bytes) := []
  macosHandlesClip : Bool := false
  retina : MouseEvent → MouseEvent := id

/-- `get_time() / 60_000`. -/
def Env.minute (env : Env) : Int := env.time / 60000

structure SessionKey where
  peerId : String
  name : String
  sessionId : Nat
  deriving DecidableEq, Repr

/-- An entry of `SESSIONS`. Its `last_recv_time` is a cell shared with the
connections of the session: an index into `Globals.instants`. -/
structure Session where
  randomPassword : String
  tfa : Bool
  lastRecvTime : Nat

inductive AuthConnType where
  | remote
  | fileTransfer
  | portForward
  | viewCamera
  | terminal
  deriving DecidableEq, Repr

def AuthConnType.asStr : AuthConnType → String
  | .remote => "remote"
  | .fileTransfer => "file_transfer"
  | .portForward => "port_forward"
  | .viewCamera => "view_camera"
  | .terminal => "terminal"

structure AuthedConn where
  connId : Nat
  connType : AuthConnType
  sessionKey : SessionKey

structure Globals where
  sessions : SessionKey → Option Session := fun _ => none
  instants : Nat → Nat := fun _ => 0
  nextInstant : Nat := 0
  /-- `LOGIN_FAILURES`: wrong passwords, then wrong second factors. -/
  passwordFailures : Login.FailureMap := fun _ => none
  tfaFailures : Login.FailureMap := fun _ => none
  temporaryPassword : String := ""
  countedPassword : String := ""
  countedFailures : Nat := 0
  trustedDevices : List TrustedDevice := []
  /-- `SWITCH_SIDES_UUID` and `PENDING_SWITCH_SIDES_UUID`: when it was stored, and it. -/
  switchSidesUuid : String → Option (Nat × Bytes) := fun _ => none
  pendingSwitchSidesUuid : String → Option (Nat × Bytes) := fun _ => none
  authedConns : List AuthedConn := []

namespace Globals

def failures (g : Globals) : FailureKind → Login.FailureMap
  | .password => g.passwordFailures
  | .tfa => g.tfaFailures

def setFailures (g : Globals) (i : FailureKind) (m : Login.FailureMap) : Globals :=
  match i with
  | .password => { g with passwordFailures := m }
  | .tfa => { g with tfaFailures := m }

end Globals

inductive ConnAuditPrimaryAuth where
  | none
  | click
  | temporaryPassword
  | permanentPassword
  | switchSides
  deriving DecidableEq, Repr

inductive ConnAuditTwoFactor where
  | none
  | totp
  | trustedDevice
  deriving DecidableEq, Repr

/-- The fields that an `OptionMessage` sets. Image quality, frame rate and
decoding abilities are kept by the video service. -/
structure Options where
  lockAfterSessionEnd : Bool := false
  showRemoteCursor : Bool := false
  followRemoteCursor : Bool := false
  followRemoteWindow : Bool := false
  disableAudio : Bool := false
  enableFileTransfer : Bool := false
  disableClipboard : Bool := false
  disableKeyboard : Bool := false
  terminalPersistent : Bool := false
  showMyCursor : Bool := false
  deriving DecidableEq, Repr

structure Connection where
  id : Nat
  ip : Login.IpAddr
  salt : String
  challenge : String
  isHeadlessAllowed : Bool := false
  lr : LoginRequest := {}
  peerArgb : Nat := 0
  authorized : Bool := false
  require2fa : Option Totp := none
  fromSwitch : Bool := false
  authedConnId : Option AuthConnType := none
  sessionLastRecvTime : Option Nat := none
  connAuditPrimaryAuth : ConnAuditPrimaryAuth := .none
  connAuditTwoFactor : ConnAuditTwoFactor := .none
  fileTransfer : Option (String × Bool) := none
  viewCamera : Bool := false
  terminal : Bool := false
  portForwardAddress : String := ""
  portForwardSocket : Option String := none
  terminalServiceId : String := ""
  terminalUserToken : Option TerminalUserToken := none
  optionsInLogin : Option OptionMessage := none
  videoAckRequired : Bool := false
  /-- `start_cm_ipc_para` is still there. -/
  startCmIpcPara : Bool := true
  keyboard : Bool := true
  clipboard : Bool := true
  audio : Bool := true
  file : Bool := true
  restart : Bool := true
  recording : Bool := true
  blockInput : Bool := true
  privacyMode : Bool := true
  options : Options := {}
  displayIdx : Nat := 0
  multiUiSession : Bool := false
  servicesSubed : Bool := false
  autoDisconnectTimer : Option (Nat × Nat) := none
  delayedReadDir : Option (String × Bool) := none
  readJobs : List Int := []
  cmReadJobIds : List Int := []
  /-- When a printer job was announced, and its path. -/
  printerData : List (Nat × String) := []
  fileTransferred : Bool := false
  chatUnanswered : Bool := false
  audioSender : Bool := false
  voiceCallRequestTimestamp : Option Int := none
  voiceCalling : Bool := false
  pressedModifiers : List Key := []
  lastTestDelay : Option Nat := none
  networkDelay : Nat := 0
  scopeViolationMessages : List String := []
  closed : Bool := false

namespace Connection

def sessionKey (c : Connection) : SessionKey := ⟨c.lr.myId, c.lr.myName, c.lr.sessionId⟩

def authedConnType (c : Connection) : Option AuthConnType := c.authedConnId

def isAuthedRemoteConn (c : Connection) : Bool := c.authedConnId = some .remote

def isAuthedViewCameraConn (c : Connection) : Bool := c.authedConnId = some .viewCamera

def isRemote (c : Connection) : Bool :=
  c.fileTransfer.isNone && c.portForwardSocket.isNone && !c.viewCamera && !c.terminal

def peerKeyboardEnabled (c : Connection) : Bool := c.keyboard && !c.options.disableKeyboard

def clipboardEnabled (c : Connection) : Bool := c.clipboard && !c.options.disableClipboard

def audioEnabled (c : Connection) : Bool := c.audio && !c.options.disableAudio

def fileTransferEnabled (c : Connection) : Bool := c.file && c.options.enableFileTransfer

def canSubClipboardService (env : Env) (c : Connection) : Bool :=
  c.clipboardEnabled && c.peerKeyboardEnabled && !env.oneWayClipboardRedirection

def canSubFileClipboardService (env : Env) (c : Connection) : Bool :=
  c.clipboardEnabled && c.fileTransferEnabled && !env.oneWayFileTransfer

end Connection

/-- `ipc::FS`. -/
inductive FS where
  | readEmptyDirs (dir : String) (includeHidden : Bool)
  | readDir (dir : String) (includeHidden : Bool)
  | readAllFiles (path : String) (id : Int) (includeHidden : Bool)
  | readFile (path : String) (id fileNum : Int) (includeHidden overwriteDetection : Bool)
  | newWrite (path : String) (id fileNum : Int) (files : List (String × Nat))
      (overwriteDetection : Bool) (totalSize : Nat)
  | removeDir (path : String) (id : Int) (recursive : Bool)
  | removeFile (path : String) (id fileNum : Int)
  | createDir (path : String) (id : Int)
  | cancelWrite (id : Int)
  | cancelRead (id : Int)
  | sendConfirmForRead (r : SendConfirm)
  | sendConfirm (r : SendConfirm)
  | rename (id : Int) (path newName : String)
  | writeBlock (id fileNum : Int) (data : Bytes) (compressed : Bool)
  | writeDone (id fileNum : Int)
  | writeError (id fileNum : Int) (err : String)
  | checkDigest (id fileNum : Int) (fileSize lastModified : Nat) (isResume : Bool)

/-- `ipc::Data::Login`. -/
structure LoginData where
  id : Nat
  isFileTransfer : Bool
  isViewCamera : Bool
  isTerminal : Bool
  portForward : String
  peerId : String
  name : String
  avatar : String
  authorized : Bool
  keyboard : Bool
  clipboard : Bool
  audio : Bool
  file : Bool
  restart : Bool
  recording : Bool
  blockInput : Bool
  privacyMode : Bool
  fromSwitch : Bool

inductive PermissionName where
  | keyboard
  | clipboard
  | audio
  | file
  | restart
  | recording
  | blockInput
  | privacyMode
  deriving DecidableEq, Repr

/-- `ipc::Data`, as far as a connection sends it to the connection manager. -/
inductive Data where
  | login (d : LoginData)
  | fs (f : FS)
  | fileTransferLog (action : String) (id : Int)
  | chatMessage (text : String)
  | clipboardFile (clip : Bytes)
  | clipboardFileEnabled (enabled : Bool)
  | voiceCallIncoming
  | startVoiceCall
  | closeVoiceCall
  | switchPermission (name : PermissionName) (enabled : Bool)
  | disconnected
  | close

inductive MessageInput where
  | mouse (msg : MouseEvent) (username : String) (argb : Nat) (simulate showCursor : Bool)
  | key (msg : KeyEvent) (press : Bool)
  | pointer (msg : PointerDeviceEvent)
  | blockOn
  | blockOff

inductive PrivacyModeState where
  | prvOnFailedDenied
  | prvNotSupported
  | prvOnSucceeded
  | prvOnFailed
  | prvOnFailedPlugin
  | prvOffSucceeded
  | prvOffFailed
  | prvOffByPeer

inductive ServiceName where
  | cursor
  | pos
  | windowFocus
  | clipboard
  | fileClipboard
  | audio
  deriving DecidableEq, Repr

inductive Reply where
  | loginError (error : String) (enableTrustedDevices : Bool)
  | peerInfo
  | permission (name : PermissionName) (enabled : Bool)
  | closeReason (reason : String)
  | testDelay (t : TestDelay)
  | privacyMode (state : PrivacyModeState) (details implKey : String)
  | blockInputFailed (on : Bool) (details : String)
  | messageBox (title text : String)
  | elevationResponse (err : String)
  | voiceCallResponse (reqTimestamp : Int) (accepted : Bool)
  | displayChanged (display : Int)
  | fsError (id : Int) (err : String) (fileNum : Int)
  | fsDir (id : Int) (path : String)
  | fsSendPrinter (path : String)
  | chatMessage (text : String)
  | clip (msg : Bytes)

inductive Effect where
  | send (r : Reply)
  | cm (d : Data)
  | startCmIpc
  | input (m : MessageInput)
  | mobilePointer (kind : String) (mask x y : Int)
  | mobileKey (msg : KeyEvent)
  | lockScreen
  /-- `update_clipboard` on the host side, and its mobile counterparts. -/
  | updateClipboard (cbs : List Clipboard)
  /-- A file clipboard message is served by the host's file clipboard. -/
  | serveFileClipboard (clip : Bytes)
  | tryEmptyFileClipboard
  | turnOnPrivacy (implKey : String)
  | turnOffPrivacy
  | changeResolution (display : String) (r : Resolution)
  | toggleVirtualDisplay (display : Int) (on : Bool)
  | initTerminalService (serviceId : String) (persistent : Bool)
  | handleTerminalAction (serviceId : String) (persistent : Bool)
      (action : Option TerminalAction.Union)
  | setTerminalPersistent (serviceId : String) (persistent : Bool)
  /-- `VIDEO_QOS` and the encoder. -/
  | userImageQuality (quality : Int)
  | userCustomFps (fps : Int)
  | userAutoAdjustFps (fps : Nat)
  | userRecord (status : Bool)
  | userNetworkDelay (delay : Nat)
  | encoderUpdate (decoding : Option SupportedDecoding)
  | subscribe (service : ServiceName) (sub : Bool)
  | switchDisplayTo (display : Nat)
  | captureDisplays (add sub set : List Nat)
  | refreshVideo (display : Option Int)
  | notifyVideoFrameFetched
  | takeScreenshot (display : Int) (sid : String)
  | addMonitorConnection (noperms : List ServiceName) (display : Nat)
  | addCameraConnection
  | audioFormat (sampleRate channels : Nat)
  | audioFrame (data : Bytes)
  | setVoiceCallInputDevice (on : Bool)
  | registerWhiteboard (on : Bool)
  | startReadJob (id : Int) (path : String)
  | confirmReadJob (r : SendConfirm)
  | reboot
  | startPortableService (logon : Option (String × String))
  | connectToUserSession (sid : Nat)
  | runMeSwitchSides (peerId : String) (uuid : Bytes)
  | alarm (a : Login.AlarmAuditType)
  | scopeViolationAlarm (connType message : String)
  | osCredentialAlarm
  | fileAudit (received : Bool) (path : String)

structure Handling where
  globals : Globals
  conn : Connection
  effects : List Effect := []

namespace Handling

def emit (h : Handling) (e : Effect) : Handling := { h with effects := h.effects ++ [e] }

def send (h : Handling) (r : Reply) : Handling := h.emit (.send r)

def sendToCm (h : Handling) (d : Data) : Handling := h.emit (.cm d)

def sendFs (h : Handling) (f : FS) : Handling := h.sendToCm (.fs f)

def setConn (h : Handling) (c : Connection) : Handling := { h with conn := c }

def setOptions (h : Handling) (o : Options) : Handling :=
  h.setConn { h.conn with options := o }

def setGlobals (h : Handling) (g : Globals) : Handling := { h with globals := g }

variable (h : Handling) (e : Effect) (c : Connection) (g : Globals) (o : Options)

@[simp] theorem emit_conn : (h.emit e).conn = h.conn := rfl
@[simp] theorem emit_globals : (h.emit e).globals = h.globals := rfl
@[simp] theorem emit_effects : (h.emit e).effects = h.effects ++ [e] := rfl
@[simp] theorem setConn_conn : (h.setConn c).conn = c := rfl
@[simp] theorem setConn_globals : (h.setConn c).globals = h.globals := rfl
@[simp] theorem setConn_effects : (h.setConn c).effects = h.effects := rfl
@[simp] theorem setOptions_conn : (h.setOptions o).conn = { h.conn with options := o } := rfl
@[simp] theorem setOptions_globals : (h.setOptions o).globals = h.globals := rfl
@[simp] theorem setOptions_effects : (h.setOptions o).effects = h.effects := rfl
@[simp] theorem setGlobals_conn : (h.setGlobals g).conn = h.conn := rfl
@[simp] theorem setGlobals_globals : (h.setGlobals g).globals = g := rfl
@[simp] theorem setGlobals_effects : (h.setGlobals g).effects = h.effects := rfl

end Handling

end CamelliaRemote.Server
