import CamelliaRemote.Server.LoginRequest

/-!
The handlers of an authorized connection. The `authorized` branch of `on_message`, one definition
for each kind of message.
-/

namespace CamelliaRemote.Server

variable (p : Host) (env : Env)

/-- `as usize` of a signed field. -/
def asUsize (n : Int) : Nat := (n % 2 ^ 64).toNat

def updateAutoDisconnectTimer (h : Handling) : Handling :=
  h.setConn { h.conn with
    autoDisconnectTimer := h.conn.autoDisconnectTimer.map fun t => (env.now, t.2) }

def onMouseEvent (h : Handling) (me : MouseEvent) : Handling :=
  if h.conn.isAuthedViewCameraConn then h
  else
    let c := h.conn
    let shown := if p.os = .macos then env.retina me else me
    let h :=
      if p.os.mobile then h.emit (.mobilePointer "mouse" me.mask me.x me.y)
      else if c.peerKeyboardEnabled then
        h.emit (.input (.mouse shown c.lr.myName c.peerArgb true c.options.showMyCursor))
      else if c.options.showMyCursor then
        h.emit (.input (.mouse shown c.lr.myName c.peerArgb false true))
      else h
    updateAutoDisconnectTimer env h

def mobileTouch (h : Handling) : Option TouchEvent → Handling
  | some (.panStart x y) => h.emit (.mobilePointer "touch" 4 x y)
  | some (.panUpdate x y) => h.emit (.mobilePointer "touch" 5 x y)
  | some (.panEnd x y) => h.emit (.mobilePointer "touch" 6 x y)
  | some (.scaleUpdate _) | none => h

def onPointerDeviceEvent (h : Handling) (pde : PointerDeviceEvent) : Handling :=
  if h.conn.isAuthedViewCameraConn then h
  else
    let h :=
      if p.os.mobile then mobileTouch h pde.touchEvent
      else if h.conn.peerKeyboardEnabled then h.emit (.input (.pointer pde))
      else h
    updateAutoDisconnectTimer env h

/-- The modifier that a key event of the map or translate mode is about. -/
def pressedModifier (ke : KeyEvent) : Option Key :=
  match ke.mode, ke.union with
  | some .map, some (.chr code) => p.modifierKey code
  | some .map, _ => p.modifierKey 0
  | some .translate, some (.chr code) => p.modifierKey (code % 2 ^ 16)
  | _, _ => none

/-- Linux and Android handle all down as press, modifiers excepted. -/
def isPress (ke : KeyEvent) : Bool :=
  if p.os = .linux || p.os = .android then
    (ke.press || ke.down) && !(p.isModifier ke || (pressedModifier p ke).isSome)
  else ke.press

def recordModifier (h : Handling) (ke : KeyEvent) : Handling :=
  match pressedModifier p ke with
  | none => h
  | some key =>
    let others := h.conn.pressedModifiers.filter (· ≠ key)
    h.setConn { h.conn with
      pressedModifiers := if isPress p ke then others ++ [key] else others }

/-- A typed text is sent as it is; any other press as down and up. -/
def inputPress (ke : KeyEvent) : Bool :=
  isPress p ke &&
    match ke.union with
    | some (.unicode _) | some (.seq _) => false
    | _ => true

def onKeyEvent (h : Handling) (ke : KeyEvent) : Handling :=
  if p.os = .ios || h.conn.isAuthedViewCameraConn then h
  else if p.os = .android then
    let h := recordModifier p h ke
    h.emit (.mobileKey { ke with modifiers := h.conn.pressedModifiers.filterMap p.controlKey })
  else
    let h :=
      if h.conn.peerKeyboardEnabled then
        (recordModifier p h ke).emit (.input (.key ke (inputPress p ke)))
      else h
    updateAutoDisconnectTimer env h

def shouldHandleTextClipboardMessage (c : Connection) : Bool := c.authedConnType = some .remote

/-- `Clipboard` with one item, `MultiClipboards` with its items; iOS takes no list. -/
def onClipboards (h : Handling) (cbs : List Clipboard) (multi : Bool) : Handling :=
  if shouldHandleTextClipboardMessage h.conn && h.conn.clipboardEnabled &&
      !(p.os = .ios && multi) then
    h.emit (.updateClipboard cbs)
  else h

def sendClipReply (h : Handling) : Option Bytes → Handling
  | some msg => h.send (.clip msg)
  | none => h.emit (.fileAudit false "")

def onCliprdr (h : Handling) (clip : Option Cliprdr.Union) : Handling :=
  if !(p.os = .windows || p.unixFileCopyPaste) then h
  else
    match clip with
    | some (.files _) => h.emit (.fileAudit true "")
    | some (.other bytes) =>
      match p.msg2clip bytes with
      | none => h
      | some clip =>
        let h := if p.os = .windows then h.sendToCm (.clipboardFile clip) else h
        if p.unixFileCopyPaste &&
            p.getVersionNumber "1.3.8" ≤ p.getVersionNumber h.conn.lr.version then
          let h := h.emit (.serveFileClipboard clip)
          if p.os = .macos && env.macosHandlesClip then h
          else env.clipReplies.foldl sendClipReply h
        else h
    | none => h

def readDir (h : Handling) (dir : String) (includeHidden : Bool) : Handling :=
  h.sendFs (.readDir dir includeHidden)

/-- `OPTION_ONE_WAY_FILE_TRANSFER` refuses the actions that have a job to refuse. -/
def oneWayJobId : Option FileAction.Union → Option Int
  | some (.send s) => some s.id
  | some (.removeFile id _ _) => some id
  | some (.rename id _ _) => some id
  | some (.create id _) => some id
  | some (.removeDir id _ _) => some id
  | _ => none

/-- `need_fs_cm_send_files`. -/
def needFsCmSendFiles : Bool := p.os = .windows && env.isServer

def tooManyFiles (count : Nat) : String :=
  let limit := env.maxValidatedFiles
  s!"file transfer rejected: too many files ({count} files exceeds limit of {limit}). " ++
    "Adjust 'file-transfer-max-files' option to increase limit."

def createAndStartReadJob (h : Handling) (id : Int) (path : String) (checkFileLimit : Bool) :
    Handling :=
  match env.newReadJob with
  | .error err => h.send (.fsError id err 0)
  | .ok count =>
    if checkFileLimit && env.maxValidatedFiles < count then
      h.send (.fsError id (tooManyFiles env count) (-1))
    else
      let h := h.setConn { h.conn with readJobs := h.conn.readJobs ++ [id] }
      ((h.emit (.startReadJob id path)).send (.fsDir id path)).emit (.fileAudit false path)

def onAllFiles (h : Handling) (id : Int) (path : String) (includeHidden : Bool) : Handling :=
  if needFsCmSendFiles p env then h.sendFs (.readAllFiles path id includeHidden)
  else
    match env.newReadJob with
    | .error err => h.send (.fsError id err (-1))
    | .ok count =>
      if env.maxValidatedFiles < count then h.send (.fsError id (tooManyFiles env count) (-1))
      else h.send (.fsDir id path)

/-- The peer's version asks before it overwrites. -/
def overwriteDetection (c : Connection) : Bool :=
  p.canEnableOverwriteDetection (p.getVersionNumber c.lr.version)

def onSend (h : Handling) (s : SendRequest) : Handling :=
  match s.fileType with
  | .generic =>
    let h :=
      if needFsCmSendFiles p env then
        (h.setConn { h.conn with cmReadJobIds := s.id :: h.conn.cmReadJobIds }).sendFs
          (.readFile s.path s.id s.fileNum s.includeHidden (overwriteDetection p h.conn))
      else createAndStartReadJob env h s.id s.path true
    h.setConn { h.conn with fileTransferred := true }
  | .printer =>
    match h.conn.printerData.findIdx? (·.2 = s.path) with
    | some i =>
      let h := h.setConn { h.conn with printerData := h.conn.printerData.eraseIdx i }
      let h := createAndStartReadJob env h s.id s.path false
      h.setConn { h.conn with fileTransferred := true }
    | none => h

def onReceive (h : Handling) (r : ReceiveRequest) : Handling :=
  let files := r.files.map fun f => (f.1, f.2.2)
  let h := h.sendFs
    (.newWrite r.path r.id r.fileNum files (overwriteDetection p h.conn) r.totalSize)
  (h.emit (.fileAudit true r.path)).setConn { h.conn with fileTransferred := true }

def onCancel (h : Handling) (id : Int) : Handling :=
  let h := h.sendFs (.cancelWrite id)
  let h := h.setConn { h.conn with cmReadJobIds := h.conn.cmReadJobIds.filter (· ≠ id) }
  let h := h.sendFs (.cancelRead id)
  if id ∈ h.conn.readJobs then
    (h.setConn { h.conn with readJobs := h.conn.readJobs.erase id }).sendToCm
      (.fileTransferLog "transfer" id)
  else h

def onSendConfirm (h : Handling) (r : SendConfirm) : Handling :=
  if r.id ∈ h.conn.readJobs then h.emit (.confirmReadJob r)
  else if r.id ∈ h.conn.cmReadJobIds then h.sendFs (.sendConfirmForRead r)
  else h.sendFs (.sendConfirm r)

def handleFileAction (h : Handling) : Option FileAction.Union → Handling
  | some (.readEmptyDirs path includeHidden) => h.sendFs (.readEmptyDirs path includeHidden)
  | some (.readDir path includeHidden) => readDir h path includeHidden
  | some (.allFiles id path includeHidden) => onAllFiles p env h id path includeHidden
  | some (.send s) => onSend p env h s
  | some (.receive r) => onReceive p h r
  | some (.removeDir id path recursive) => h.sendFs (.removeDir path id recursive)
  | some (.removeFile id path fileNum) => h.sendFs (.removeFile path id fileNum)
  | some (.create id path) =>
    (h.sendFs (.createDir path id)).sendToCm (.fileTransferLog "create_dir" id)
  | some (.cancel id) => onCancel h id
  | some (.sendConfirm r) => onSendConfirm h r
  | some (.rename id path newName) =>
    (h.sendFs (.rename id path newName)).sendToCm (.fileTransferLog "rename" id)
  | none => h

/-- A session of another type may still ask for a printer job. -/
def isPrinterSend : Option FileAction.Union → Bool
  | some (.send s) => s.fileType = .printer
  | _ => false

def onFileAction (h : Handling) (fa : Option FileAction.Union) : Handling :=
  if h.conn.fileTransfer.isSome || isPrinterSend fa then
    if h.conn.delayedReadDir.isSome then
      match fa with
      | some (.readDir path includeHidden) =>
        h.setConn { h.conn with delayedReadDir := some (path, includeHidden) }
      | _ => h
    else
      match if env.oneWayFileTransfer then oneWayJobId fa else none with
      | some id => h.send (.fsError id "one-way-file-transfer-tip" 0)
      | none => handleFileAction p env h fa
  else h

def onFileResponse (h : Handling) : Option FileResponse.Union → Handling
  | some (.block id fileNum data compressed) => h.sendFs (.writeBlock id fileNum data compressed)
  | some (.done id fileNum) => h.sendFs (.writeDone id fileNum)
  | some (.digest id fileNum lastModified fileSize isResume) =>
    h.sendFs (.checkDigest id fileNum fileSize lastModified isResume)
  | some (.error id err fileNum) => h.sendFs (.writeError id fileNum err)
  | some .dir | some .emptyDirs | none => h

def shouldHandleRenderBroadcastMessage (c : Connection) : Bool :=
  c.authedConnType = some .remote || c.authedConnType = some .viewCamera

def changeResolution (h : Handling) (display : Option Nat) (r : Resolution) : Handling :=
  if h.conn.keyboard then
    match env.displays[display.getD h.conn.displayIdx]? with
    | some name => h.emit (.changeResolution name r)
    | none => h
  else h

def sendDisplayChanged (h : Handling) (display : Int) : Handling :=
  if env.displayKnown then h.send (.displayChanged display) else h

def onSwitchDisplay (h : Handling) (s : SwitchDisplay) : Handling :=
  let display := asUsize s.display
  if h.conn.displayIdx = display then h
  else if env.videoSourceCount ≤ display then h
  else
    let h := (h.setConn { h.conn with displayIdx := display }).emit (.switchDisplayTo display)
    let h :=
      if !p.os.mobile && !h.conn.viewCamera && s.width ≠ 0 && s.height ≠ 0 then
        changeResolution env h none ⟨s.width, s.height⟩
      else h
    sendDisplayChanged env h h.conn.displayIdx

/-- The request has displays, and none of those it is about is there. -/
def allInvalid (valid : List Int → List Nat) (d : CaptureDisplays) : Bool :=
  (!d.add.isEmpty && (valid d.add).isEmpty) ||
    (d.add.isEmpty && !d.sub.isEmpty && (valid d.sub).isEmpty) ||
    (d.add.isEmpty && d.sub.isEmpty && !d.set.isEmpty && (valid d.set).isEmpty)

def onCaptureDisplays (h : Handling) (d : CaptureDisplays) : Handling :=
  let valid := fun l : List Int => (l.map asUsize).filter (· < env.videoSourceCount)
  if allInvalid valid d then h
  else
    let h :=
      if !d.add.isEmpty then h.emit (.captureDisplays (valid d.add) [] [])
      else if !d.sub.isEmpty then h.emit (.captureDisplays [] (valid d.sub) [])
      else h.emit (.captureDisplays [] [] (valid d.set))
    let h := h.setConn { h.conn with multiUiSession := env.subbedDisplaysCount > 1 }
    if h.conn.options.followRemoteWindow then h.subscribe .windowFocus (!h.conn.multiUiSession)
    else h

def toggleVirtualDisplay (h : Handling) (display : Int) (on : Bool) : Handling :=
  let title := "Virtual display"
  if on && !env.virtualDisplaySupported then
    h.send (.messageBox title "idd_not_support_under_win10_2004_tip")
  else
    let h := h.emit (.toggleVirtualDisplay display on)
    match env.plugMonitor with
    | .ok () => h
    | .error e =>
      h.send (.messageBox title
        ((if on then "Failed to plug in virtual display: "
          else "Failed to plug out virtual displays: ") ++ e))

def togglePrivacyMode (h : Handling) (implKey : String) (on : Bool) : Handling :=
  if on then turnOnPrivacy env h implKey else turnOffPrivacy env h implKey

def handleElevationRequest (h : Handling) (logon : Option (String × String)) : Handling :=
  let idle := !env.isInstalled && !env.portableServiceRunning
  let err :=
    if !h.conn.keyboard then "No permission"
    else if !idle then "No need to elevate"
    else
      match env.startPortableService with
      | .ok () => ""
      | .error e => e
  let h := if h.conn.keyboard && idle then h.emit (.startPortableService logon) else h
  updateAutoDisconnectTimer env (h.send (.elevationResponse err))

def onAudioFormat (h : Handling) (sampleRate channels : Nat) : Handling :=
  if h.conn.options.disableAudio then h
  else (h.setConn { h.conn with audioSender := true }).emit (.audioFormat sampleRate channels)

def onAudioFrame (h : Handling) (data : Bytes) : Handling :=
  if !h.conn.options.disableAudio && h.conn.audioSender then h.emit (.audioFrame data) else h

def closeVoiceCall (h : Handling) : Handling :=
  let h := (h.emit (.setVoiceCallInputDevice false)).sendToCm .closeVoiceCall
  let h := h.setConn { h.conn with voiceCalling := false }
  if h.conn.isAuthedViewCameraConn then h.subscribe .audio false else h

def onVoiceCallRequest (h : Handling) (reqTimestamp : Int) (isConnect : Bool) : Handling :=
  if isConnect then
    let stamp := if reqTimestamp = 0 then env.time else reqTimestamp
    (h.setConn { h.conn with voiceCallRequestTimestamp := some stamp }).sendToCm .voiceCallIncoming
  else closeVoiceCall h

/-- `handle_voice_call`: the local user answers. -/
def handleVoiceCall (h : Handling) (accepted : Bool) : Handling :=
  match h.conn.voiceCallRequestTimestamp with
  | none => h
  | some ts =>
    let h := h.setConn { h.conn with voiceCallRequestTimestamp := none, voiceCalling := accepted }
    let h :=
      if accepted then (h.emit (.setVoiceCallInputDevice true)).sendToCm .startVoiceCall
      else h.sendToCm .closeVoiceCall
    let h := h.send (.voiceCallResponse ts accepted)
    if h.conn.isAuthedViewCameraConn then
      h.subscribe .audio (h.conn.audioEnabled && accepted)
    else h

def handleTerminalAction (h : Handling) (action : Option TerminalAction.Union) : Handling :=
  if p.os.mobile then h
  else
    match h.conn.terminalUserToken with
    | none => h
    | some _ =>
      h.emit (.handleTerminalAction h.conn.terminalServiceId h.conn.options.terminalPersistent
        action)

def onOption (h : Handling) (o : OptionMessage) : Handling :=
  if h.conn.authedConnType = some .remote then updateOptions p env o h
  else
    match scopedUpdateOptionMessage h.conn o with
    | some option => updateOptions p env option h
    | none => h

def onRefreshVideo (h : Handling) (refresh : Bool) (display : Option Int) : Handling :=
  if shouldHandleRenderBroadcastMessage h.conn then
    updateAutoDisconnectTimer env (if refresh then h.emit (.refreshVideo display) else h)
  else h

def onClose (h : Handling) (lock : Bool) : Handling :=
  if h.conn.closed then h
  else
    let h := h.setConn { h.conn with closed := true }
    let h := h.emit (.setVoiceCallInputDevice false)
    let h :=
      if lock && h.conn.options.lockAfterSessionEnd && h.conn.keyboard && !p.os.mobile then
        h.emit .lockScreen
      else h
    let keep := !p.os.mobile && (h.conn.chatUnanswered || h.conn.fileTransferred && p.flutter)
    let h := h.sendToCm (if keep then .disconnected else .close)
    h.setConn { h.conn with portForwardSocket := none }

def onSwitchSidesRequest (h : Handling) (uuid : Bytes) : Handling × Bool :=
  if !p.flutter || p.os.mobile then (h, true)
  else
    match uuidFromSlice uuid with
    | none => (h, true)
    | some uuid =>
      let peerId := h.conn.lr.myId
      let live := fun id =>
        (h.globals.pendingSwitchSidesUuid id).filter (env.now - ·.1 < switchSidesTimeout)
      let h := h.setGlobals { h.globals with
        pendingSwitchSidesUuid := Function.update live peerId (some (env.now, uuid)) }
      (onClose p (h.emit (.runMeSwitchSides peerId uuid)) false, false)

def onSelectedSid (h : Handling) (sid : Nat) : Handling × Bool :=
  match env.currentSessionId with
  | none => (h, true)
  | some current =>
    if env.isInstalled && env.isShareRdp &&
        (h.globals.authedConns.filter (·.connType ≠ .portForward)).length = 1 &&
        env.windowsSessions.length > 1 && current ≠ sid && env.windowsSessions.contains sid then
      (h.emit (.connectToUserSession sid), false)
    else if h.conn.fileTransfer.isSome then
      match h.conn.delayedReadDir with
      | some (dir, showHidden) =>
        (readDir (h.setConn { h.conn with delayedReadDir := none }) dir showHidden, true)
      | none => (h, true)
    else if h.conn.viewCamera then (h.emit .addCameraConnection, true)
    else if !h.conn.terminal then (trySubMonitorServices p env h, true)
    else (h, true)

def onMisc (h : Handling) : Misc.Union → Handling × Bool
  | .switchDisplay s => (onSwitchDisplay p env h s, true)
  | .captureDisplays displays => (onCaptureDisplays env h displays, true)
  | .toggleVirtualDisplay display on =>
    (if p.os = .windows && !h.conn.viewCamera then toggleVirtualDisplay env h display on else h,
      true)
  | .togglePrivacyMode implKey on =>
    (if !h.conn.viewCamera then togglePrivacyMode env h implKey on else h, true)
  | .chatMessage text =>
    let h := h.sendToCm (.chatMessage text)
    (updateAutoDisconnectTimer env (h.setConn { h.conn with chatUnanswered := true }), true)
  | .option o => (onOption p env h o, true)
  | .refreshVideo refresh => (onRefreshVideo env h refresh none, true)
  | .refreshVideoDisplay display => (onRefreshVideo env h true (some display), true)
  | .videoReceived => (h.emit .notifyVideoFrameFetched, true)
  | .restartRemoteDevice => (if !p.os.mobile && h.conn.restart then h.emit .reboot else h, true)
  | .elevationRequest (some r) =>
    if p.os = .windows then
      match r with
      | .direct => (handleElevationRequest env h none, true)
      | .logon username password => (handleElevationRequest env h (some (username, password)), true)
    else (h, true)
  | .audioFormat sampleRate channels => (onAudioFormat h sampleRate channels, true)
  | .switchSidesRequest uuid => onSwitchSidesRequest p env h uuid
  | .changeResolution r =>
    (if !p.os.mobile && !h.conn.viewCamera then changeResolution env h none r else h, true)
  | .changeDisplayResolution display r =>
    (if !p.os.mobile && !h.conn.viewCamera then changeResolution env h (some (asUsize display)) r
      else h, true)
  | .autoAdjustFps fps => (h.emit (.userAutoAdjustFps fps), true)
  | .clientRecordStatus status => (h.emit (.userRecord status), true)
  | .selectedSid sid => if p.os = .windows then onSelectedSid p env h sid else (h, true)
  | .messageQuery display => (sendDisplayChanged env h display, true)
  | _ => (h, true)

/-- The `match` on the message in the `authorized` branch. -/
def onAuthorizedMessage (h : Handling) : Message.Union → Handling × Bool
  | .mouseEvent me => (onMouseEvent p env h me, true)
  | .pointerDeviceEvent pde => (onPointerDeviceEvent p env h pde, true)
  | .keyEvent ke => (onKeyEvent p env h ke, true)
  | .clipboard cb => (onClipboards p h [cb] false, true)
  | .multiClipboards cbs => (onClipboards p h cbs true, true)
  | .cliprdr clip => (onCliprdr p env h clip, true)
  | .fileAction fa => (onFileAction p env h fa, true)
  | .fileResponse fr => (onFileResponse h fr, true)
  | .misc (some misc) => onMisc p env h misc
  | .audioFrame data => (onAudioFrame h data, true)
  | .voiceCallRequest reqTimestamp isConnect =>
    (onVoiceCallRequest env h reqTimestamp isConnect, true)
  | .screenshotRequest display sid =>
    ((h.emit (.takeScreenshot display sid)).emit (.refreshVideo (some display)), true)
  | .terminalAction action => (handleTerminalAction p h action, true)
  | _ => (h, true)

end CamelliaRemote.Server
