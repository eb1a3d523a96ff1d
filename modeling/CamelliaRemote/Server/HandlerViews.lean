import CamelliaRemote.Server.Turns

namespace CamelliaRemote.Server

variable (p : Host) (env : Env)

/-- The connection manager learns of a login from `login` alone. -/
theorem view_sendToCm {d : Data} (other : ∀ l, d ≠ .login l) (h : Handling) :
    (h.sendToCm d).view = h.view := by
  have silent : (Effect.cm d).login? = none := by
    cases d with
    | login l => exact absurd rfl (other l)
    | _ => rfl
  rw [Handling.sendToCm, view_emit, silent, View.add_none]

@[simp] theorem view_sendFs (h : Handling) (f : FS) : (h.sendFs f).view = h.view :=
  view_sendToCm (by simp) h

@[simp] theorem view_updateAutoDisconnectTimer (h : Handling) :
    (updateAutoDisconnectTimer env h).view = h.view := view_setConn (by rfl)

/-- No input of the peer shows in a view, whatever it does to the host. -/
@[simp] theorem view_onMouseEvent (h : Handling) (me : MouseEvent) :
    (onMouseEvent p env h me).view = h.view := by
  unfold onMouseEvent
  split
  · rfl
  rw [view_updateAutoDisconnectTimer]
  split_ifs <;> simp

@[simp] theorem view_onPointerDeviceEvent (h : Handling) (pde : PointerDeviceEvent) :
    (onPointerDeviceEvent p env h pde).view = h.view := by
  unfold onPointerDeviceEvent mobileTouch
  (repeat' split) <;> simp

@[simp] theorem view_recordModifier (h : Handling) (ke : KeyEvent) :
    (recordModifier p h ke).view = h.view := by
  unfold recordModifier
  split
  · rfl
  · exact view_setConn (by rfl)

@[simp] theorem view_onKeyEvent (h : Handling) (ke : KeyEvent) :
    (onKeyEvent p env h ke).view = h.view := by
  unfold onKeyEvent
  (repeat' split) <;> simp

@[simp] theorem view_onClipboards (h : Handling) (cbs : List Clipboard) (multi : Bool) :
    (onClipboards p h cbs multi).view = h.view := by
  unfold onClipboards
  split <;> simp

/-- Replies of the file clipboard go to the peer. -/
theorem view_sendClipReplies (replies : List (Option Bytes)) (h : Handling) :
    (replies.foldl sendClipReply h).view = h.view := by
  induction replies generalizing h with
  | nil => rfl
  | cons reply replies ih =>
    rw [List.foldl_cons, ih]
    cases reply <;> simp [sendClipReply]

@[simp] theorem view_onCliprdr (h : Handling) (clip : Option Cliprdr.Union) :
    (onCliprdr p env h clip).view = h.view := by
  unfold onCliprdr
  split
  · rfl
  split
  · simp
  · split
    · rfl
    rename_i clip _
    have passed : ∀ h', h' = (if p.os = .windows then h.sendToCm (.clipboardFile clip) else h) →
        h'.view = h.view := by
      rintro h' rfl
      split
      · exact view_sendToCm (by simp) h
      · rfl
    generalize (if p.os = .windows then h.sendToCm (.clipboardFile clip) else h) = h' at passed
    have passed := passed h' rfl
    simp only
    split_ifs <;> simp [view_sendClipReplies, passed]
  · rfl

/-- A read job is added to `read_jobs`, which a view leaves out. -/
@[simp] theorem view_createAndStartReadJob (h : Handling) (id : Int) (path : String)
    (check : Bool) : (createAndStartReadJob env h id path check).view = h.view := by
  unfold createAndStartReadJob
  (repeat' split) <;> simp
  exact view_setConn (by rfl)

@[simp] theorem view_onAllFiles (h : Handling) (id : Int) (path : String)
    (includeHidden : Bool) : (onAllFiles p env h id path includeHidden).view = h.view := by
  unfold onAllFiles
  (repeat' split) <;> simp

@[simp] theorem view_onSend (h : Handling) (s : SendRequest) :
    (onSend p env h s).view = h.view := by
  unfold onSend
  split
  · refine (view_setConn (by rfl)).trans ?_
    split
    · exact (view_sendFs _ _).trans (view_setConn (by rfl))
    · exact view_createAndStartReadJob env h _ _ _
  · split
    · refine (view_setConn (by rfl)).trans ?_
      exact (view_createAndStartReadJob env _ _ _ _).trans (view_setConn (by rfl))
    · rfl

@[simp] theorem view_onReceive (h : Handling) (r : ReceiveRequest) :
    (onReceive p h r).view = h.view := by
  unfold onReceive
  refine (view_setConn (by rfl)).trans ?_
  simp

@[simp] theorem view_onCancel (h : Handling) (id : Int) : (onCancel h id).view = h.view := by
  have cancelled : ((((h.sendFs (.cancelWrite id)).setConn { (h.sendFs (.cancelWrite id)).conn with
      cmReadJobIds := (h.sendFs (.cancelWrite id)).conn.cmReadJobIds.filter (· ≠ id) }).sendFs
        (.cancelRead id))).view = h.view :=
    (view_sendFs _ _).trans ((view_setConn (by rfl)).trans (view_sendFs _ _))
  unfold onCancel
  simp only
  split
  · rw [view_sendToCm (by simp)]
    exact (view_setConn (by rfl)).trans cancelled
  · exact cancelled

@[simp] theorem view_onSendConfirm (h : Handling) (r : SendConfirm) :
    (onSendConfirm h r).view = h.view := by
  unfold onSendConfirm
  (repeat' split) <;> simp

/-- No file action shows in a view, for its commands to the connection manager are not logins. -/
@[simp] theorem view_handleFileAction (h : Handling) (fa : Option FileAction.Union) :
    (handleFileAction p env h fa).view = h.view := by
  unfold handleFileAction
  split <;> simp [readDir, view_sendToCm]

@[simp] theorem view_onFileAction (h : Handling) (fa : Option FileAction.Union) :
    (onFileAction p env h fa).view = h.view := by
  unfold onFileAction
  (repeat' split) <;> first | rfl | simp

@[simp] theorem view_onFileResponse (h : Handling) (fr : Option FileResponse.Union) :
    (onFileResponse h fr).view = h.view := by
  unfold onFileResponse
  split <;> simp

@[simp] theorem view_changeResolution (h : Handling) (display : Option Nat) (r : Resolution) :
    (changeResolution env h display r).view = h.view := by
  unfold changeResolution
  (repeat' split) <;> simp

@[simp] theorem view_sendDisplayChanged (h : Handling) (display : Int) :
    (sendDisplayChanged env h display).view = h.view := by
  unfold sendDisplayChanged
  split <;> simp

/-- The display of a connection is no part of its view. -/
@[simp] theorem view_onSwitchDisplay (h : Handling) (s : SwitchDisplay) :
    (onSwitchDisplay p env h s).view = h.view := by
  unfold onSwitchDisplay
  simp only
  split
  · rfl
  split
  · rfl
  have switched : ((h.setConn { h.conn with displayIdx := asUsize s.display }).emit
      (.switchDisplayTo (asUsize s.display))).view = h.view :=
    (view_emit _ _).trans (view_setConn (by rfl))
  rw [view_sendDisplayChanged]
  split
  · rw [view_changeResolution, switched]
  · exact switched

@[simp] theorem view_onCaptureDisplays (h : Handling) (d : CaptureDisplays) :
    (onCaptureDisplays env h d).view = h.view := by
  unfold onCaptureDisplays
  simp only
  split
  · rfl
  generalize captured : (ite (!d.add.isEmpty) _ _ : Handling) = h'
  have same : h'.view = h.view := by
    rw [← captured]
    split_ifs <;> simp
  have counted : (h'.setConn { h'.conn with
      multiUiSession := decide (env.subbedDisplaysCount > 1) }).view = h.view :=
    (view_setConn (by rfl)).trans same
  split
  · rw [view_subscribe]
    exact counted
  · exact counted

@[simp] theorem view_toggleVirtualDisplay (h : Handling) (display : Int) (on : Bool) :
    (toggleVirtualDisplay env h display on).view = h.view := by
  unfold toggleVirtualDisplay
  simp only
  (repeat' split) <;> simp

@[simp] theorem view_togglePrivacyMode (h : Handling) (implKey : String) (on : Bool) :
    (togglePrivacyMode env h implKey on).view = h.view := by
  unfold togglePrivacyMode
  split <;> simp

@[simp] theorem view_handleElevationRequest (h : Handling) (logon : Option (String × String)) :
    (handleElevationRequest env h logon).view = h.view := by
  unfold handleElevationRequest
  simp only [view_updateAutoDisconnectTimer, view_send]
  split <;> simp

@[simp] theorem view_onAudioFormat (h : Handling) (sampleRate channels : Nat) :
    (onAudioFormat h sampleRate channels).view = h.view := by
  unfold onAudioFormat
  split
  · rfl
  · exact (view_emit _ _).trans (view_setConn (by rfl))

@[simp] theorem view_onAudioFrame (h : Handling) (data : Bytes) :
    (onAudioFrame h data).view = h.view := by
  unfold onAudioFrame
  split <;> simp

@[simp] theorem view_onVoiceCallRequest (h : Handling) (reqTimestamp : Int) (isConnect : Bool) :
    (onVoiceCallRequest env h reqTimestamp isConnect).view = h.view := by
  unfold onVoiceCallRequest
  split
  · exact (view_sendToCm (by simp) _).trans (view_setConn (by rfl))
  · exact view_closeVoiceCall h

@[simp] theorem view_handleTerminalAction (h : Handling) (action : Option TerminalAction.Union) :
    (handleTerminalAction p h action).view = h.view := by
  unfold handleTerminalAction
  (repeat' split) <;> simp

@[simp] theorem view_onRefreshVideo (h : Handling) (refresh : Bool) (display : Option Int) :
    (onRefreshVideo env h refresh display).view = h.view := by
  unfold onRefreshVideo
  split
  · rw [view_updateAutoDisconnectTimer]
    split <;> simp
  · rfl

/-- An option can only lock the screen at the end of the session. -/
theorem view_onOption (h : Handling) (o : OptionMessage) :
    ∃ lock, (onOption p env h o).view =
      { h.view with core := { h.view.core with lockAfterSessionEnd := lock } } := by
  unfold onOption
  split
  · exact ⟨_, view_updateOptions p env o h⟩
  split
  · exact ⟨_, view_updateOptions p env _ h⟩
  · exact ⟨_, rfl⟩

end CamelliaRemote.Server
