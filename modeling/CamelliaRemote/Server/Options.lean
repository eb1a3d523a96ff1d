import CamelliaRemote.Server.Scope

namespace CamelliaRemote.Server

variable (p : Host) (env : Env)

def privacyNotSupported : String :=
  "Unsupported. 1 Multi-screen is not supported. 2 Please confirm the license is activated."

def turnOffPrivacyResultToMsg (res : Option (Except String Unit)) (implKey : String) : Reply :=
  match res with
  | some (.ok ()) => .privacyMode .prvOffSucceeded "" implKey
  | some (.error e) => .privacyMode .prvOffFailed e implKey
  | none => .privacyMode .prvOffFailed "Not supported" implKey

def turnOffPrivacy (h : Handling) (implKey : String) : Handling :=
  if !env.isPrivacyModeSupported then
    h.send (.privacyMode .prvNotSupported privacyNotSupported implKey)
  else
    (h.emit .turnOffPrivacy).send (turnOffPrivacyResultToMsg env.turnOffPrivacy implKey)

def turnOnPrivacy (h : Handling) (implKey : String) : Handling :=
  if !h.conn.isAuthedRemoteConn || !h.conn.privacyMode then
    h.send (.privacyMode .prvOnFailedDenied "" implKey)
  else if !env.isPrivacyModeSupported then
    h.send (.privacyMode .prvNotSupported privacyNotSupported implKey)
  else
    let h :=
      match env.replacedImplKey with
      | some key => h.send (.privacyMode .prvOffSucceeded "" key)
      | none => h
    let h := h.emit (.turnOnPrivacy implKey)
    match env.turnOnPrivacy with
    | some (.ok true) =>
      if env.privacyModeErr = "" then h.send (.privacyMode .prvOnSucceeded "" implKey)
      else (h.emit .turnOffPrivacy).send (.privacyMode .prvOnFailed env.privacyModeErr implKey)
    | some (.ok false) => h.send (.privacyMode .prvOnFailedPlugin "" implKey)
    | some (.error e) =>
      (if env.isInPrivacyMode then h.emit .turnOffPrivacy else h).send
        (.privacyMode .prvOnFailed e implKey)
    | none => h.send (.privacyMode .prvOffFailed "Not supported" implKey)

/-- The body under `if let Ok(q) = ... { if q != BoolOption::NotSet { .. } }`. -/
def onSet (option : EnumOrUnknown BoolOption) (body : Bool → Handling → Handling)
    (h : Handling) : Handling :=
  match option with
  | some .yes => body true h
  | some .no => body false h
  | some .notSet | none => h

def Handling.subscribe (h : Handling) (service : ServiceName) (sub : Bool) : Handling :=
  h.emit (.subscribe service sub)

/-- The quality that an option asks for, and a negative number if none. -/
def requestedQuality (o : OptionMessage) (q : ImageQuality) : Int :=
  if q = .notSet then if 0 < o.customImageQuality then o.customImageQuality else -1 else q.value

def updateImageQuality (o : OptionMessage) (h : Handling) : Handling :=
  match o.imageQuality with
  | none => h
  | some q =>
    if 0 < requestedQuality o q then h.emit (.userImageQuality (requestedQuality o q)) else h

def updateCustomFps (o : OptionMessage) (h : Handling) : Handling :=
  if 0 < o.customFps then h.emit (.userCustomFps o.customFps) else h

def updateSupportedDecoding (o : OptionMessage) (h : Handling) : Handling :=
  match o.supportedDecoding with
  | none => h
  | some q => h.emit (.encoderUpdate (some q))

def updateLockAfterSessionEnd (on : Bool) (h : Handling) : Handling :=
  h.setOptions { h.conn.options with lockAfterSessionEnd := on }

def updateFollowRemoteCursor (on : Bool) (h : Handling) : Handling :=
  h.setOptions { h.conn.options with followRemoteCursor := on }

def updateShowRemoteCursor (on : Bool) (h : Handling) : Handling :=
  let h := h.setOptions { h.conn.options with showRemoteCursor := on }
  (h.subscribe .cursor (h.conn.peerKeyboardEnabled || on)).subscribe .pos on

def updateFollowRemoteWindow (on : Bool) (h : Handling) : Handling :=
  (h.setOptions { h.conn.options with followRemoteWindow := on }).subscribe .windowFocus on

def updateDisableAudio (on : Bool) (h : Handling) : Handling :=
  let h := h.setOptions { h.conn.options with disableAudio := on }
  if h.conn.isAuthedViewCameraConn then
    if h.conn.voiceCalling || !h.conn.audioEnabled then h.subscribe .audio h.conn.audioEnabled
    else h
  else h.subscribe .audio h.conn.audioEnabled

def updateEnableFileTransfer (on : Bool) (h : Handling) : Handling :=
  let h := h.setOptions { h.conn.options with enableFileTransfer := on }
  let h :=
    if p.os = .windows then h.sendToCm (.clipboardFileEnabled h.conn.fileTransferEnabled) else h
  if p.unixFileCopyPaste then
    let h := if !on then h.emit .tryEmptyFileClipboard else h
    h.subscribe .fileClipboard (h.conn.canSubFileClipboardService env)
  else h

def updateDisableClipboard (on : Bool) (h : Handling) : Handling :=
  let h := h.setOptions { h.conn.options with disableClipboard := on }
  h.subscribe .clipboard (h.conn.canSubClipboardService env)

def updateDisableKeyboard (on : Bool) (h : Handling) : Handling :=
  let h := h.setOptions { h.conn.options with disableKeyboard := on }
  let h := h.subscribe .clipboard (h.conn.canSubClipboardService env)
  let h :=
    if p.unixFileCopyPaste then
      h.subscribe .fileClipboard (h.conn.canSubFileClipboardService env)
    else h
  h.subscribe .cursor (h.conn.peerKeyboardEnabled || h.conn.options.showRemoteCursor)

/-- For versions before 1.2.4, which toggle privacy mode by an option. -/
def updatePrivacyMode (o : OptionMessage) (h : Handling) : Handling :=
  if p.getVersionNumber h.conn.lr.version < p.getVersionNumber "1.2.4" ∧ h.conn.keyboard then
    match o.privacyMode with
    | some .yes => turnOnPrivacy env h ""
    | some .no => turnOffPrivacy env h ""
    | some .notSet | none => h
  else h

def updateBlockInput (o : OptionMessage) (h : Handling) : Handling :=
  if h.conn.keyboard && h.conn.blockInput then
    match o.blockInput with
    | some .yes => h.emit (.input .blockOn)
    | some .no => h.emit (.input .blockOff)
    | some .notSet | none => h
  else onSet o.blockInput (fun on h => h.send (.blockInputFailed on "No permission")) h

def updateTerminalPersistence (persistent : Bool) (h : Handling) : Handling :=
  (h.setOptions { h.conn.options with terminalPersistent := persistent }).emit
    (.setTerminalPersistent h.conn.terminalServiceId persistent)

def showMyCursorNotSupported : String :=
  if p.os = .windows && !env.isWin10OrGreater then "Windows 10 or greater is required."
  else if p.os = .linux && !env.whiteboardSupported then
    "This feature is not supported on native Wayland, please install XWayland or switch to X11."
  else ""

def updateShowMyCursor (on : Bool) (h : Handling) : Handling :=
  let h := h.setOptions { h.conn.options with showMyCursor := on }
  if showMyCursorNotSupported p env = "" then h.emit (.registerWhiteboard on)
  else if on then h.send (.messageBox "Show my cursor" (showMyCursorNotSupported p env))
  else h

def updateOptions (o : OptionMessage) (h : Handling) : Handling :=
  let h := updateImageQuality o h
  let h := updateCustomFps o h
  let h := updateSupportedDecoding o h
  let h := onSet o.lockAfterSessionEnd updateLockAfterSessionEnd h
  let h := if p.os.mobile then h else onSet o.showRemoteCursor updateShowRemoteCursor h
  let h := if p.os.mobile then h else onSet o.followRemoteCursor updateFollowRemoteCursor h
  let h := onSet o.followRemoteWindow updateFollowRemoteWindow h
  let h := onSet o.disableAudio updateDisableAudio h
  let h :=
    if p.os = .windows ∨ p.unixFileCopyPaste then
      onSet o.enableFileTransfer (updateEnableFileTransfer p env) h
    else h
  let h := onSet o.disableClipboard (updateDisableClipboard env) h
  let h := onSet o.disableKeyboard (updateDisableKeyboard p env) h
  let h := updatePrivacyMode p env o h
  let h := updateBlockInput o h
  let h := if p.os.mobile then h else onSet o.terminalPersistent updateTerminalPersistence h
  if p.os.mobile then h else onSet o.showMyCursor (updateShowMyCursor p env) h

/-- The options of the login request, cut to the scope of the session. -/
def updateScopedLoginOptions (h : Handling) : Handling :=
  match h.conn.optionsInLogin with
  | none => h
  | some option =>
    let h := h.setConn { h.conn with optionsInLogin := none }
    match h.conn.authedConnType with
    | none => h
    | some connType =>
      match (scopedLoginOption connType option).1 with
      | none => h
      | some option => updateOptions p env option h

end CamelliaRemote.Server
