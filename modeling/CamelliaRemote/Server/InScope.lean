import CamelliaRemote.Server.Turns

namespace CamelliaRemote.Server

variable {p : Host} {env : Env} {t : AuthConnType}

/-- The effects that are bound to a session type. -/
def Effect.within (t : AuthConnType) : Effect → Bool
  | .input _ | .mobilePointer _ _ _ _ | .mobileKey _ | .lockScreen => false
  | .updateClipboard _ | .serveFileClipboard _ | .tryEmptyFileClipboard => false
  | .cm (.clipboardFile _) | .cm (.clipboardFileEnabled _) => false
  | .turnOnPrivacy _ | .turnOffPrivacy => false
  | .changeResolution _ _ | .toggleVirtualDisplay _ _ => false
  | .cm (.fs _) | .startReadJob _ _ | .confirmReadJob _ => t = .fileTransfer
  | .handleTerminalAction _ _ _ | .setTerminalPersistent _ _ => t = .terminal
  | .userImageQuality _ | .userCustomFps _ | .encoderUpdate _ => t = .viewCamera
  | _ => true

/-- The options differ only in those of the type. -/
def Options.Within (t : AuthConnType) (o o' : Options) : Prop :=
  o' = { o with
    disableAudio := if t = .viewCamera then o'.disableAudio else o.disableAudio
    terminalPersistent :=
      if t = .terminal then o'.terminalPersistent else o.terminalPersistent }

theorem Options.Within.refl (o : Options) : Options.Within t o o := by
  simp [Options.Within]

theorem Options.Within.trans {o o' o'' : Options} (first : Options.Within t o o')
    (second : Options.Within t o' o'') : Options.Within t o o'' := by
  unfold Options.Within at *
  rw [second, first]
  cases t <;> simp

theorem Options.Within.lock {o o' : Options} (within : Options.Within t o o') :
    o'.lockAfterSessionEnd = o.lockAfterSessionEnd := by
  rw [within]

structure InScope (t : AuthConnType) (h h' : Handling) : Prop where
  authorized : h'.conn.authorized = h.conn.authorized
  authedConnId : h'.conn.authedConnId = h.conn.authedConnId
  scope : t ≠ .remote →
    h'.conn.fileTransfer = h.conn.fileTransfer ∧ h'.conn.viewCamera = h.conn.viewCamera
  options : t ≠ .remote → Options.Within t h.conn.options h'.conn.options
  sessions : ∀ key, h'.globals.tfa key = true → h.globals.tfa key = true
  effects : t ≠ .remote → ∃ done, h'.effects = h.effects ++ done ∧ ∀ e ∈ done, e.within t = true

namespace InScope

variable {h h' h'' : Handling}

theorem refl (h : Handling) : InScope t h h where
  authorized := rfl
  authedConnId := rfl
  scope := fun _ => ⟨rfl, rfl⟩
  options := fun _ => .refl _
  sessions := fun _ => id
  effects := fun _ => ⟨[], by simp⟩

theorem trans (first : InScope t h h') (second : InScope t h' h'') : InScope t h h'' where
  authorized := second.authorized.trans first.authorized
  authedConnId := second.authedConnId.trans first.authedConnId
  scope := fun type =>
    ⟨(second.scope type).1.trans (first.scope type).1,
      (second.scope type).2.trans (first.scope type).2⟩
  options := fun type => (first.options type).trans (second.options type)
  sessions := fun key on => first.sessions key (second.sessions key on)
  effects := by
    intro type
    obtain ⟨done, eq, ok⟩ := first.effects type
    obtain ⟨done', eq', ok'⟩ := second.effects type
    refine ⟨done ++ done', by rw [eq', eq, List.append_assoc], fun e he => ?_⟩
    exact (List.mem_append.mp he).elim (ok e) (ok' e)

theorem emit (before : InScope t h h') {e : Effect} (ok : t ≠ .remote → e.within t = true) :
    InScope t h (h'.emit e) :=
  before.trans
    { refl h' with effects := fun type => ⟨[e], rfl, by simpa using ok type⟩ }

theorem send (before : InScope t h h') (r : Reply) : InScope t h (h'.send r) :=
  before.emit fun _ => rfl

theorem subscribe (before : InScope t h h') (service : ServiceName) (sub : Bool) :
    InScope t h (h'.subscribe service sub) :=
  before.emit fun _ => rfl

theorem setConn (before : InScope t h h') {c : Connection} (core : c.core = h'.conn.core)
    (options : c.options = h'.conn.options) : InScope t h (h'.setConn c) :=
  before.trans
    { authorized := congrArg Core.authorized core
      authedConnId := congrArg Core.authedConnId core
      scope := fun _ => ⟨congrArg Core.fileTransfer core, congrArg Core.viewCamera core⟩
      options := fun _ => by simp only [Handling.setConn_conn, options]; exact .refl _
      sessions := fun _ => id
      effects := fun _ => ⟨[], by simp⟩ }

theorem setGlobals (before : InScope t h h') {g : Globals}
    (sessions : ∀ key, g.tfa key = true → h'.globals.tfa key = true) :
    InScope t h (h'.setGlobals g) :=
  before.trans { refl h' with sessions, effects := fun _ => ⟨[], by simp⟩ }

/-- A remote session keeps only that it is one. -/
theorem remote (authorized : h'.conn.authorized = h.conn.authorized)
    (authedConnId : h'.conn.authedConnId = h.conn.authedConnId)
    (sessions : ∀ key, h'.globals.tfa key = true → h.globals.tfa key = true) :
    InScope .remote h h' where
  authorized := authorized
  authedConnId := authedConnId
  scope := fun type => absurd rfl type
  options := fun type => absurd rfl type
  sessions := sessions
  effects := fun type => absurd rfl type

theorem remote_of_view (view : h'.view = h.view) : InScope .remote h h' :=
  remote (congrArg (·.core.authorized) view) (congrArg (·.core.authedConnId) view) fun key on => by
    have globals : h'.globals = h.globals := congrArg View.globals view
    rwa [globals] at on

end InScope

/-! ## Input -/

variable {h h₀ : Handling}

theorem updateAutoDisconnectTimer_inScope (before : InScope t h₀ h) :
    InScope t h₀ (updateAutoDisconnectTimer env h) := before.setConn (by rfl) (by rfl)

theorem onMouseEvent_inScope (me : MouseEvent) (authed : h.conn.authedConnId = some t)
    (type : t = .remote ∨ t = .viewCamera) : InScope t h (onMouseEvent p env h me) := by
  unfold onMouseEvent
  rcases type with rfl | rfl
  · split
    · exact .refl h
    · refine updateAutoDisconnectTimer_inScope ?_
      split_ifs <;> first | exact (InScope.refl h).emit (absurd rfl) | exact .refl h
  · simp [Connection.isAuthedViewCameraConn, authed, InScope.refl]

theorem onPointerDeviceEvent_inScope (pde : PointerDeviceEvent)
    (authed : h.conn.authedConnId = some t) (type : t = .remote ∨ t = .viewCamera) :
    InScope t h (onPointerDeviceEvent p env h pde) := by
  unfold onPointerDeviceEvent mobileTouch
  rcases type with rfl | rfl
  · split
    · exact .refl h
    · refine updateAutoDisconnectTimer_inScope ?_
      (repeat' split) <;> first | exact (InScope.refl h).emit (absurd rfl) | exact .refl h
  · simp [Connection.isAuthedViewCameraConn, authed, InScope.refl]

theorem recordModifier_inScope (ke : KeyEvent) : InScope t h (recordModifier p h ke) := by
  unfold recordModifier
  split
  · exact .refl h
  · exact (InScope.refl h).setConn (by rfl) (by rfl)

theorem onKeyEvent_inScope (ke : KeyEvent) (authed : h.conn.authedConnId = some t)
    (type : t = .remote ∨ t = .viewCamera) : InScope t h (onKeyEvent p env h ke) := by
  unfold onKeyEvent
  rcases type with rfl | rfl
  · split
    · exact .refl h
    split
    · exact (recordModifier_inScope ke).emit (absurd rfl)
    · refine updateAutoDisconnectTimer_inScope ?_
      split
      · exact (recordModifier_inScope ke).emit (absurd rfl)
      · exact .refl h
  · simp [Connection.isAuthedViewCameraConn, authed, InScope.refl]

/-! ## Clipboard -/

theorem onClipboards_inScope (cbs : List Clipboard) (multi : Bool)
    (authed : h.conn.authedConnId = some t) : InScope t h (onClipboards p h cbs multi) := by
  unfold onClipboards
  split <;> rename_i handles
  · have remote : t = .remote := by
      simp only [shouldHandleTextClipboardMessage, Connection.authedConnType, authed,
        Bool.and_eq_true, decide_eq_true_eq, Option.some.injEq] at handles
      exact handles.1.1
    exact (InScope.refl h).emit (absurd remote)
  · exact .refl h

theorem sendClipReplies_inScope (replies : List (Option Bytes)) (before : InScope .remote h₀ h) :
    InScope .remote h₀ (replies.foldl sendClipReply h) := by
  induction replies generalizing h with
  | nil => exact before
  | cons reply replies ih =>
    refine ih ?_
    cases reply with
    | none => exact before.emit (absurd rfl)
    | some msg => exact before.send _

theorem onCliprdr_inScope (clip : Option Cliprdr.Union) :
    InScope .remote h (onCliprdr p env h clip) := by
  unfold onCliprdr
  split
  · exact .refl h
  split
  · exact (InScope.refl h).emit (absurd rfl)
  · split
    · exact .refl h
    · rename_i clip _
      have sent : InScope .remote h
          (if p.os = .windows then h.sendToCm (.clipboardFile clip) else h) := by
        split
        · exact (InScope.refl h).emit (absurd rfl)
        · exact .refl h
      simp only
      generalize (if p.os = .windows then h.sendToCm (.clipboardFile clip) else h) = h' at sent
      split
      · split
        · exact sent.emit (absurd rfl)
        · exact sendClipReplies_inScope _ (sent.emit (absurd rfl))
      · exact sent
  · exact .refl h

/-! ## Files -/

theorem InScope.sendFs {h' : Handling} (before : InScope t h h') (f : FS)
    (type : t = .remote ∨ t = .fileTransfer) : InScope t h (h'.sendFs f) :=
  before.emit fun other => by simpa [Effect.within] using type.resolve_left other

section Files
variable (type : t = .remote ∨ t = .fileTransfer)
include type

theorem createAndStartReadJob_inScope (id : Int) (path : String) (check : Bool)
    (before : InScope t h₀ h) : InScope t h₀ (createAndStartReadJob env h id path check) := by
  unfold createAndStartReadJob
  split
  · exact before.send _
  split
  · exact before.send _
  · refine InScope.emit (InScope.send (InScope.emit ?_ fun other => ?_) _) fun _ => rfl
    · exact before.setConn (by rfl) (by rfl)
    · simpa [Effect.within] using type.resolve_left other

theorem onAllFiles_inScope (id : Int) (path : String) (includeHidden : Bool) :
    InScope t h (onAllFiles p env h id path includeHidden) := by
  unfold onAllFiles
  split
  · exact (InScope.refl h).sendFs _ type
  split
  · exact (InScope.refl h).send _
  split <;> exact (InScope.refl h).send _

theorem onSend_inScope (s : SendRequest) : InScope t h (onSend p env h s) := by
  unfold onSend
  split
  · refine InScope.setConn ?_ (by rfl) (by rfl)
    split
    · exact InScope.sendFs ((InScope.refl h).setConn (by rfl) (by rfl)) _ type
    · exact createAndStartReadJob_inScope type _ _ _ (.refl h)
  · split
    · refine InScope.setConn ?_ (by rfl) (by rfl)
      exact createAndStartReadJob_inScope type _ _ _ ((InScope.refl h).setConn (by rfl) (by rfl))
    · exact .refl h

theorem onReceive_inScope (r : ReceiveRequest) : InScope t h (onReceive p h r) := by
  unfold onReceive
  refine InScope.setConn ?_ (by rfl) (by rfl)
  exact ((InScope.refl h).sendFs _ type).emit fun _ => rfl

theorem onCancel_inScope (id : Int) : InScope t h (onCancel h id) := by
  unfold onCancel
  have cancelled : InScope t h (((h.sendFs (.cancelWrite id)).setConn { h.conn with
      cmReadJobIds := h.conn.cmReadJobIds.filter (· ≠ id) }).sendFs (.cancelRead id)) :=
    (((InScope.refl h).sendFs _ type).setConn (by rfl) (by rfl)).sendFs _ type
  simp only
  split
  · exact InScope.emit (cancelled.setConn (by rfl) (by rfl)) fun _ => rfl
  · exact cancelled

theorem onSendConfirm_inScope (r : SendConfirm) : InScope t h (onSendConfirm h r) := by
  unfold onSendConfirm
  split
  · exact (InScope.refl h).emit fun other => by
      simpa [Effect.within] using type.resolve_left other
  split <;> exact (InScope.refl h).sendFs _ type

theorem handleFileAction_inScope (fa : Option FileAction.Union) :
    InScope t h (handleFileAction p env h fa) := by
  have start := InScope.refl (t := t) h
  unfold handleFileAction
  split
  · exact start.sendFs _ type
  · exact start.sendFs _ type
  · exact onAllFiles_inScope type _ _ _
  · exact onSend_inScope type _
  · exact onReceive_inScope type _
  · exact start.sendFs _ type
  · exact start.sendFs _ type
  · exact (start.sendFs _ type).emit fun _ => rfl
  · exact onCancel_inScope type _
  · exact onSendConfirm_inScope type _
  · exact (start.sendFs _ type).emit fun _ => rfl
  · exact start

theorem onFileAction_inScope (fa : Option FileAction.Union) :
    InScope t h (onFileAction p env h fa) := by
  unfold onFileAction
  split
  · split
    · split
      · exact (InScope.refl h).setConn (by rfl) (by rfl)
      · exact .refl h
    · split
      · exact (InScope.refl h).send _
      · exact handleFileAction_inScope type fa
  · exact .refl h

theorem onFileResponse_inScope (fr : Option FileResponse.Union) :
    InScope t h (onFileResponse h fr) := by
  unfold onFileResponse
  split <;> first | exact (InScope.refl h).sendFs _ type | exact .refl h

end Files

/-! ## Displays -/

/-- The scope of a session: the flag of its type, and nothing else, is set. -/
structure Connection.Typed (c : Connection) (t : AuthConnType) : Prop where
  authed : c.authedConnId = some t
  viewCamera : t = .viewCamera → c.viewCamera = true ∧ c.fileTransfer = none
  lock : t ≠ .remote → c.options.lockAfterSessionEnd = false

section Displays
variable (typed : h.conn.Typed t) (type : t = .remote ∨ t = .viewCamera)
include typed type

theorem remote_of_not_viewCamera (screen : h.conn.viewCamera = false) : t = .remote := by
  rcases type with remote | camera
  · exact remote
  · simp [(typed.viewCamera camera).1] at screen

end Displays

theorem changeResolution_inScope (display : Option Nat) (r : Resolution) (remote : t = .remote)
    (before : InScope t h₀ h) : InScope t h₀ (changeResolution env h display r) := by
  unfold changeResolution
  split
  · split
    · exact before.emit (absurd remote)
    · exact before
  · exact before

theorem sendDisplayChanged_inScope (display : Int) (before : InScope t h₀ h) :
    InScope t h₀ (sendDisplayChanged env h display) := by
  unfold sendDisplayChanged
  split
  · exact before.send _
  · exact before

theorem onSwitchDisplay_inScope (s : SwitchDisplay) (typed : h.conn.Typed t)
    (type : t = .remote ∨ t = .viewCamera) : InScope t h (onSwitchDisplay p env h s) := by
  have switched : InScope t h ((h.setConn { h.conn with displayIdx := asUsize s.display }).emit
      (.switchDisplayTo (asUsize s.display))) :=
    ((InScope.refl h).setConn (by rfl) (by rfl)).emit fun _ => rfl
  unfold onSwitchDisplay
  simp only
  split
  · exact .refl h
  split
  · exact .refl h
  · refine sendDisplayChanged_inScope _ ?_
    split <;> rename_i resizes
    · refine changeResolution_inScope _ _ (remote_of_not_viewCamera typed type ?_) switched
      simp only [Bool.and_eq_true, Bool.not_eq_true'] at resizes
      exact resizes.1.1.2
    · exact switched

theorem onCaptureDisplays_inScope (d : CaptureDisplays) :
    InScope t h (onCaptureDisplays env h d) := by
  have captures (add sub set : List Nat) :
      InScope t h (h.emit (.captureDisplays add sub set)) :=
    (InScope.refl h).emit fun _ => rfl
  unfold onCaptureDisplays
  simp only
  split
  · exact .refl h
  · (repeat' split) <;> first
      | exact ((captures _ _ _).setConn (by rfl) (by rfl)).subscribe _ _
      | exact (captures _ _ _).setConn (by rfl) (by rfl)

theorem toggleVirtualDisplay_inScope (display : Int) (on : Bool) (remote : t = .remote) :
    InScope t h (toggleVirtualDisplay env h display on) := by
  have toggled : InScope t h (h.emit (.toggleVirtualDisplay display on)) :=
    (InScope.refl h).emit (absurd remote)
  unfold toggleVirtualDisplay
  simp only
  split
  · exact (InScope.refl h).send _
  split
  · exact toggled
  · exact toggled.send _

theorem togglePrivacyMode_inScope (implKey : String) (on : Bool) :
    InScope .remote h (togglePrivacyMode env h implKey on) := by
  unfold togglePrivacyMode
  split
  · exact .remote_of_view (view_turnOnPrivacy env h implKey)
  · exact .remote_of_view (view_turnOffPrivacy env h implKey)

/-! ## The rest -/

theorem handleElevationRequest_inScope (logon : Option (String × String)) :
    InScope .remote h (handleElevationRequest env h logon) := by
  unfold handleElevationRequest
  simp only
  refine updateAutoDisconnectTimer_inScope (InScope.send ?_ _)
  split
  · exact (InScope.refl h).emit (absurd rfl)
  · exact .refl h

theorem onAudioFormat_inScope (sampleRate channels : Nat) :
    InScope t h (onAudioFormat h sampleRate channels) := by
  unfold onAudioFormat
  split
  · exact .refl h
  · exact InScope.emit ((InScope.refl h).setConn (by rfl) (by rfl)) fun _ => rfl

theorem onAudioFrame_inScope (data : Bytes) : InScope t h (onAudioFrame h data) := by
  unfold onAudioFrame
  split
  · exact (InScope.refl h).emit fun _ => rfl
  · exact .refl h

theorem closeVoiceCall_inScope : InScope t h (closeVoiceCall h) := by
  have closed : InScope t h ((h.emit (.setVoiceCallInputDevice false)).sendToCm .closeVoiceCall) :=
    ((InScope.refl h).emit fun _ => rfl).emit fun _ => rfl
  unfold closeVoiceCall
  simp only
  split
  · exact (closed.setConn (by rfl) (by rfl)).subscribe _ _
  · exact closed.setConn (by rfl) (by rfl)

theorem onVoiceCallRequest_inScope (reqTimestamp : Int) (isConnect : Bool) :
    InScope t h (onVoiceCallRequest env h reqTimestamp isConnect) := by
  unfold onVoiceCallRequest
  split
  · exact InScope.emit ((InScope.refl h).setConn (by rfl) (by rfl)) fun _ => rfl
  · exact closeVoiceCall_inScope

theorem handleTerminalAction_inScope (action : Option TerminalAction.Union)
    (type : t = .remote ∨ t = .terminal) : InScope t h (handleTerminalAction p h action) := by
  unfold handleTerminalAction
  split
  · exact .refl h
  split
  · exact .refl h
  · refine (InScope.refl h).emit fun other => ?_
    simpa [Effect.within] using type.resolve_left other

theorem onRefreshVideo_inScope (refresh : Bool) (display : Option Int) :
    InScope t h (onRefreshVideo env h refresh display) := by
  unfold onRefreshVideo
  split
  · refine updateAutoDisconnectTimer_inScope ?_
    split
    · exact (InScope.refl h).emit fun _ => rfl
    · exact .refl h
  · exact .refl h

/-! ## Options -/

theorem updatePrivacyMode_notSet {o : OptionMessage} (notSet : o.privacyMode = some .notSet) :
    updatePrivacyMode p env o h = h := by
  unfold updatePrivacyMode
  split
  · simp [notSet]
  · rfl

theorem updateBlockInput_notSet {o : OptionMessage} (notSet : o.blockInput = some .notSet) :
    updateBlockInput o h = h := by
  unfold updateBlockInput
  split <;> simp [notSet, onSet]

theorem updateImageQuality_inScope (o : OptionMessage) (type : t = .remote ∨ t = .viewCamera) :
    InScope t h (updateImageQuality o h) := by
  unfold updateImageQuality
  split
  · exact .refl h
  split
  · refine (InScope.refl h).emit fun other => ?_
    simpa [Effect.within] using type.resolve_left other
  · exact .refl h

theorem updateCustomFps_inScope (o : OptionMessage) (type : t = .remote ∨ t = .viewCamera) :
    InScope t h (updateCustomFps o h) := by
  unfold updateCustomFps
  split
  · refine (InScope.refl h).emit fun other => ?_
    simpa [Effect.within] using type.resolve_left other
  · exact .refl h

theorem updateSupportedDecoding_inScope (o : OptionMessage)
    (type : t = .remote ∨ t = .viewCamera) : InScope t h (updateSupportedDecoding o h) := by
  unfold updateSupportedDecoding
  split
  · exact .refl h
  · refine (InScope.refl h).emit fun other => ?_
    simpa [Effect.within] using type.resolve_left other

theorem InScope.setOptions {h' : Handling} (before : InScope t h h') {o : Options}
    (within : t ≠ .remote → Options.Within t h'.conn.options o) :
    InScope t h (h'.setOptions o) :=
  before.trans { refl h' with options := within, effects := fun _ => ⟨[], by simp⟩ }

theorem updateDisableAudio_inScope (option : EnumOrUnknown BoolOption)
    (type : t = .remote ∨ t = .viewCamera) : InScope t h (onSet option updateDisableAudio h) := by
  have set (on : Bool) : InScope t h (updateDisableAudio on h) := by
    have audio : InScope t h (h.setOptions { h.conn.options with disableAudio := on }) :=
      (InScope.refl h).setOptions fun other => by
        simp [Options.Within, type.resolve_left other]
    unfold updateDisableAudio
    simp only
    split
    · split
      · exact audio.subscribe _ _
      · exact audio
    · exact audio.subscribe _ _
  unfold onSet
  split
  · exact set true
  · exact set false
  · exact .refl h
  · exact .refl h

theorem updateTerminalPersistence_inScope (option : EnumOrUnknown BoolOption)
    (type : t = .remote ∨ t = .terminal) :
    InScope t h (onSet option updateTerminalPersistence h) := by
  have set (on : Bool) : InScope t h (updateTerminalPersistence on h) := by
    unfold updateTerminalPersistence
    refine InScope.emit ((InScope.refl h).setOptions fun other => ?_) fun other => ?_
    · simp [Options.Within, type.resolve_left other]
    · simpa [Effect.within] using type.resolve_left other
  unfold onSet
  split
  · exact set true
  · exact set false
  · exact .refl h
  · exact .refl h

theorem onSet_notSet (body : Bool → Handling → Handling) : onSet (some .notSet) body h = h := rfl

theorem updateOptions_viewCamera (o : OptionMessage) :
    InScope .viewCamera h (updateOptions p env (viewCameraFields o) h) := by
  have audio := ((updateImageQuality_inScope (h := h) (viewCameraFields o) (.inr rfl)).trans
    (updateCustomFps_inScope (viewCameraFields o) (.inr rfl))).trans
      ((updateSupportedDecoding_inScope (viewCameraFields o) (.inr rfl)).trans
        (updateDisableAudio_inScope (viewCameraFields o).disableAudio (.inr rfl)))
  have rest (h : Handling) : updatePrivacyMode p env (viewCameraFields o) h = h ∧
      updateBlockInput (viewCameraFields o) h = h :=
    ⟨updatePrivacyMode_notSet rfl, updateBlockInput_notSet rfl⟩
  simp only [updateOptions, rest]
  simp only [viewCameraFields, onSet_notSet, ite_self] at audio ⊢
  exact audio

theorem updateOptions_terminal (o : OptionMessage) :
    InScope .terminal h (updateOptions p env (terminalFields o) h) := by
  have persistent := updateTerminalPersistence_inScope (h := h)
    (terminalFields o).terminalPersistent (.inr rfl)
  have rest (h : Handling) : updatePrivacyMode p env (terminalFields o) h = h ∧
      updateBlockInput (terminalFields o) h = h ∧ updateImageQuality (terminalFields o) h = h ∧
      updateCustomFps (terminalFields o) h = h ∧ updateSupportedDecoding (terminalFields o) h = h :=
    ⟨updatePrivacyMode_notSet rfl, updateBlockInput_notSet rfl, rfl, rfl, rfl⟩
  simp only [updateOptions, rest]
  simp only [terminalFields, onSet_notSet, ite_self] at persistent ⊢
  split
  · exact .refl h
  · exact persistent

/-- An option message changes only what the type of the session may change. -/
theorem onOption_inScope (o : OptionMessage) (authed : h.conn.authedConnId = some t) :
    InScope t h (onOption p env h o) := by
  unfold onOption scopedUpdateOptionMessage
  simp only [Connection.authedConnType, authed, Option.some.injEq]
  cases t with
  | remote =>
    have view := view_updateOptions p env o h
    rw [if_pos rfl]
    refine .remote (congrArg (·.core.authorized) view) (congrArg (·.core.authedConnId) view) ?_
    intro key on
    have globals : (updateOptions p env o h).globals = h.globals := congrArg View.globals view
    rwa [globals] at on
  | fileTransfer | portForward => exact .refl h
  | viewCamera =>
    simp only [reduceCtorEq, if_false, scopedViewCameraOption]
    split <;> rename_i kept
    · simp only [Option.ite_none_right_eq_some, Option.some.injEq] at kept
      rw [← kept.2]
      exact updateOptions_viewCamera o
    · exact .refl h
  | terminal =>
    simp only [reduceCtorEq, if_false, scopedTerminalLoginOption]
    split <;> rename_i kept
    · simp only [Option.ite_none_right_eq_some, Option.some.injEq] at kept
      rw [← kept.2]
      exact updateOptions_terminal o
    · exact .refl h

/-! ## Ends -/

theorem InScope.closeSocket {h' : Handling} (before : InScope t h h') :
    InScope t h (h'.setConn { h'.conn with portForwardSocket := none }) :=
  before.trans { refl h' with effects := fun _ => ⟨[], by simp⟩ }

theorem ends_within (keep : Bool) :
    (Effect.cm (if keep then .disconnected else .close)).within t = true := by
  cases keep <;> rfl

theorem onClose_inScope (lock : Bool)
    (unlocked : t ≠ .remote → h.conn.options.lockAfterSessionEnd = false)
    (before : InScope t h₀ h) : InScope t h₀ (onClose p h lock) := by
  unfold onClose
  split
  · exact before
  simp only
  refine InScope.closeSocket (InScope.emit ?_ fun _ => ends_within _)
  split <;> rename_i locks
  · refine InScope.emit (InScope.emit (before.setConn (by rfl) (by rfl)) fun _ => rfl) ?_
    intro type
    simp [unlocked type] at locks
  · exact InScope.emit (before.setConn (by rfl) (by rfl)) fun _ => rfl

theorem onSwitchSidesRequest_inScope (uuid : Bytes) :
    InScope .remote h (onSwitchSidesRequest p env h uuid).1 := by
  unfold onSwitchSidesRequest
  split
  · exact .refl h
  split
  · exact .refl h
  · refine onClose_inScope _ (absurd rfl) (InScope.emit ?_ (absurd rfl))
    exact (InScope.refl h).setGlobals fun key on => on

theorem trySubMonitorServices_inScope : InScope t h (trySubMonitorServices p env h) := by
  unfold trySubMonitorServices
  split
  · exact InScope.emit ((InScope.refl h).setConn (by rfl) (by rfl)) fun _ => rfl
  · exact .refl h

theorem onSelectedSid_inScope (sid : Nat) (typed : h.conn.Typed t)
    (type : t = .remote ∨ t = .fileTransfer ∨ t = .viewCamera) :
    InScope t h (onSelectedSid p env h sid).1 := by
  unfold onSelectedSid
  split
  · exact .refl h
  split
  · exact (InScope.refl h).emit fun _ => rfl
  split <;> rename_i files
  · have reads : t = .remote ∨ t = .fileTransfer := by
      rcases type with remote | fileTransfer | camera
      · exact .inl remote
      · exact .inr fileTransfer
      · simp [(typed.viewCamera camera).2] at files
    split
    · exact InScope.sendFs ((InScope.refl h).setConn (by rfl) (by rfl)) _ reads
    · exact .refl h
  split
  · exact (InScope.refl h).emit fun _ => rfl
  split
  · exact trySubMonitorServices_inScope
  · exact .refl h

/-! ## Messages -/

/-- What the gate lets through. -/
theorem scoped_of_gate {msg : Message} (gate : authorizedMessageScopeViolation p t msg = none) :
    isConnectionHousekeepingMessage msg = true ∨ isNoopCompatMessage t msg = true ∨
      isScopedMessage p t msg = true := by
  unfold authorizedMessageScopeViolation at gate
  split at gate
  · exact .inl ‹_›
  split at gate
  · exact .inr (.inl ‹_›)
  split at gate
  · exact .inr (.inr ‹_›)
  · simp at gate

/-- The messages that more sessions than remote and camera ones get. -/
def isSharedMisc : Misc.Union → Bool
  | .refreshVideo _ | .refreshVideoDisplay _ | .option _ | .chatMessage _ | .selectedSid _
  | .closeReason _ => true
  | _ => false

theorem misc_type {misc : Misc.Union}
    (gate : authorizedMessageScopeViolation p t (some (.misc (some misc))) = none)
    (narrow : isSharedMisc misc = false) :
    t = .remote ∨ t = .viewCamera ∧ isViewCameraScopedMisc p misc = true := by
  have housekeeping : isConnectionHousekeepingMessage (some (.misc (some misc))) = false := by
    cases misc <;> first | rfl | simp [isSharedMisc] at narrow
  have noop : isNoopCompatMessage t (some (.misc (some misc))) = false := by
    cases t <;> cases misc <;> first | rfl | simp [isSharedMisc] at narrow
  have scope := scoped_of_gate gate
  rw [housekeeping, noop] at scope
  simp only [Bool.false_eq_true, false_or] at scope
  cases t with
  | remote => exact .inl rfl
  | viewCamera => exact .inr ⟨rfl, scope⟩
  | portForward => simp [isScopedMessage] at scope
  | fileTransfer | terminal =>
    cases misc <;> simp_all [isSharedMisc, isScopedMessage, isFileTransferScopedMessage,
      isTerminalScopedMessage]

theorem selectedSid_type {sid : Nat}
    (gate : authorizedMessageScopeViolation p t (some (.misc (some (.selectedSid sid)))) = none) :
    t = .remote ∨ t = .fileTransfer ∨ t = .viewCamera := by
  cases t <;> simp_all [authorizedMessageScopeViolation, isConnectionHousekeepingMessage,
    isNoopCompatMessage, isRenderBroadcastNoopCompatMessage, isTextClipboardNoopCompatMessage,
    isScopedMessage, isTerminalScopedMessage]

theorem onMisc_inScope (misc : Misc.Union) (typed : h.conn.Typed t)
    (gate : authorizedMessageScopeViolation p t (some (.misc (some misc))) = none) :
    InScope t h (onMisc p env h misc).1 := by
  have screen (narrow : isSharedMisc misc = false) : t = .remote ∨ t = .viewCamera :=
    (misc_type gate narrow).imp_right And.left
  have remote (narrow : isSharedMisc misc = false) (out : isViewCameraScopedMisc p misc = false) :
      t = .remote := by
    simpa [out] using misc_type gate narrow
  unfold onMisc
  split
  · exact onSwitchDisplay_inScope _ typed (screen rfl)
  · exact onCaptureDisplays_inScope _
  · simp only
    split <;> rename_i here
    · simp only [Bool.and_eq_true, Bool.not_eq_true'] at here
      exact toggleVirtualDisplay_inScope _ _ (remote_of_not_viewCamera typed (screen rfl) here.2)
    · exact .refl h
  · simp only
    split <;> rename_i here
    · cases remote_of_not_viewCamera typed (screen rfl) (by simpa using here)
      exact togglePrivacyMode_inScope _ _
    · exact .refl h
  · exact updateAutoDisconnectTimer_inScope (InScope.setConn
      ((InScope.refl h).emit fun _ => rfl) (by rfl) (by rfl))
  · exact onOption_inScope _ typed.authed
  · exact onRefreshVideo_inScope _ _
  · exact onRefreshVideo_inScope _ _
  · exact (InScope.refl h).emit fun _ => rfl
  · simp only
    split
    · exact (InScope.refl h).emit fun _ => rfl
    · exact .refl h
  · split
    · cases remote rfl rfl
      split <;> exact handleElevationRequest_inScope _
    · exact .refl h
  · exact onAudioFormat_inScope _ _
  · cases remote rfl rfl
    exact onSwitchSidesRequest_inScope _
  · simp only
    split <;> rename_i here
    · simp only [Bool.and_eq_true, Bool.not_eq_true'] at here
      exact changeResolution_inScope _ _ (remote_of_not_viewCamera typed (screen rfl) here.2)
        (.refl h)
    · exact .refl h
  · simp only
    split <;> rename_i here
    · simp only [Bool.and_eq_true, Bool.not_eq_true'] at here
      exact changeResolution_inScope _ _ (remote_of_not_viewCamera typed (screen rfl) here.2)
        (.refl h)
    · exact .refl h
  · exact (InScope.refl h).emit fun _ => rfl
  · exact (InScope.refl h).emit fun _ => rfl
  · split
    · exact onSelectedSid_inScope _ typed (selectedSid_type gate)
    · exact .refl h
  · exact sendDisplayChanged_inScope _ (.refl h)
  · exact .refl h

theorem onAuthorizedMessage_inScope (msg : Message.Union) (typed : h.conn.Typed t)
    (gate : authorizedMessageScopeViolation p t (some msg) = none) :
    InScope t h (onAuthorizedMessage p env h msg).1 := by
  have scope := scoped_of_gate gate
  unfold onAuthorizedMessage
  split
  · refine onMouseEvent_inScope _ typed.authed ?_
    cases t <;> simp_all [isConnectionHousekeepingMessage, isNoopCompatMessage,
      isRenderBroadcastNoopCompatMessage, isTextClipboardNoopCompatMessage, isScopedMessage,
      isFileTransferScopedMessage, isTerminalScopedMessage]
  · refine onPointerDeviceEvent_inScope _ typed.authed ?_
    cases t <;> simp_all [isConnectionHousekeepingMessage, isNoopCompatMessage,
      isRenderBroadcastNoopCompatMessage, isTextClipboardNoopCompatMessage, isScopedMessage,
      isFileTransferScopedMessage, isTerminalScopedMessage]
  · refine onKeyEvent_inScope _ typed.authed ?_
    cases t <;> simp_all [isConnectionHousekeepingMessage, isNoopCompatMessage,
      isRenderBroadcastNoopCompatMessage, isTextClipboardNoopCompatMessage, isScopedMessage,
      isFileTransferScopedMessage, isTerminalScopedMessage]
  · exact onClipboards_inScope _ _ typed.authed
  · exact onClipboards_inScope _ _ typed.authed
  · have remote : t = .remote := by
      cases t <;> simp_all [isConnectionHousekeepingMessage, isNoopCompatMessage,
        isRenderBroadcastNoopCompatMessage, isTextClipboardNoopCompatMessage, isScopedMessage,
        isFileTransferScopedMessage, isTerminalScopedMessage, isViewCameraScopedMessage]
    cases remote
    exact onCliprdr_inScope _
  · refine onFileAction_inScope ?_ _
    cases t <;> simp_all [isConnectionHousekeepingMessage, isNoopCompatMessage,
      isRenderBroadcastNoopCompatMessage, isTextClipboardNoopCompatMessage, isScopedMessage,
      isTerminalScopedMessage, isViewCameraScopedMessage]
  · refine onFileResponse_inScope ?_ _
    cases t <;> simp_all [isConnectionHousekeepingMessage, isNoopCompatMessage,
      isRenderBroadcastNoopCompatMessage, isTextClipboardNoopCompatMessage, isScopedMessage,
      isTerminalScopedMessage, isViewCameraScopedMessage]
  · exact onMisc_inScope _ typed gate
  · exact onAudioFrame_inScope _
  · exact onVoiceCallRequest_inScope _ _
  · exact ((InScope.refl h).emit fun _ => rfl).emit fun _ => rfl
  · refine handleTerminalAction_inScope _ ?_
    cases t <;> simp_all [isConnectionHousekeepingMessage, isNoopCompatMessage,
      isRenderBroadcastNoopCompatMessage, isTextClipboardNoopCompatMessage, isScopedMessage,
      isFileTransferScopedMessage, isViewCameraScopedMessage]
  · exact .refl h

/-! ## The loop -/

theorem Connection.Typed.unlocked (typed : h.conn.Typed t) (before : InScope t h h₀) :
    t ≠ .remote → h₀.conn.options.lockAfterSessionEnd = false := by
  intro type
  exact (before.options type).lock.trans (typed.lock type)

theorem onTestDelay_inScope (delay : TestDelay) : InScope t h (onTestDelay env h delay) := by
  unfold onTestDelay
  split
  · exact (InScope.refl h).send _
  split
  · exact .refl h
  · exact InScope.setConn ((InScope.refl h).emit fun _ => rfl) (by rfl) (by rfl)

theorem sendCloseReason_inScope (reason : String) (before : InScope t h₀ h) :
    InScope t h₀ (sendCloseReasonNoRetry h reason) :=
  InScope.setGlobals (before.send _) fun _ => tfa_checkRemoveSession

theorem onCloseReason_inScope (typed : h.conn.Typed t) : InScope t h (onCloseReason p h).1 :=
  InScope.setGlobals (onClose_inScope true typed.lock (.refl h)) fun _ => tfa_checkRemoveSession

theorem reportScopeViolation_inScope (message : String) :
    InScope t h (reportScopeViolation env h message) := by
  unfold reportScopeViolation
  simp only
  split
  · exact .refl h
  · split
    · exact InScope.emit ((InScope.refl h).setConn (by rfl) (by rfl)) fun _ => rfl
    · exact (InScope.refl h).setConn (by rfl) (by rfl)

theorem handleAuthorizedScopeViolation_inScope (message : String) (typed : h.conn.Typed t) :
    InScope t h (handleAuthorizedScopeViolation p env h message).1 := by
  have reported := @reportScopeViolation_inScope env t h message
  unfold handleAuthorizedScopeViolation
  simp only
  split
  · have told := sendCloseReason_inScope "Connection not allowed" reported
    exact onClose_inScope true (typed.unlocked told) told
  · exact reported

theorem tryStartCm_inScope (peerId name : String) (authorized : Bool) (before : InScope t h₀ h) :
    InScope t h₀ (tryStartCm h peerId name authorized) := before.emit fun _ => rfl

/-- Nobody is let in twice. -/
theorem logonAndStartCm_authorized (peerId name : String) (authorized : h.conn.authorized = true) :
    logonAndStartCm p env h peerId name = (tryStartCm h peerId name true, true) := by
  simp [logonAndStartCm, sendLogonResponseAndKeepAlive, authorized]

theorem tryStartCmIpc_inScope (before : InScope t h₀ h) : InScope t h₀ (tryStartCmIpc h) := by
  unfold tryStartCmIpc
  split
  · exact InScope.emit (before.setConn (by rfl) (by rfl)) fun _ => rfl
  · exact before

theorem switchSides_globals (lr : LoginRequest) : (switchSides p env h lr).globals = h.globals := by
  unfold switchSides handleLoginRequestWithoutValidation
  simp only
  split <;> rfl

theorem switchSides_inScope (lr : LoginRequest) (before : InScope .remote h₀ h) :
    InScope .remote h₀ (switchSides p env h lr) := by
  refine before.trans ?_
  obtain ⟨require2fa, core⟩ := switchSides_core p env h lr
  refine .remote (congrArg Core.authorized core) (congrArg Core.authedConnId core) fun key on => ?_
  rwa [switchSides_globals] at on

theorem onSwitchSidesResponse_inScope (s : SwitchSidesResponse)
    (authorized : h.conn.authorized = true) :
    InScope .remote h (onSwitchSidesResponse p env h s).1 := by
  unfold onSwitchSidesResponse
  split
  · exact .refl h
  split
  · exact .refl h
  rename_i lr _
  have taken : InScope .remote h (h.setGlobals (takeSwitchUuid env h.globals lr.myId)) :=
    (InScope.refl h).setGlobals fun key on => on
  simp only
  split
  · exact taken
  split
  · exact taken.send _
  have switched := @switchSides_inScope p env _ _ lr taken
  rw [logonAndStartCm_authorized lr.myId lr.myName (switched.authorized.trans authorized)]
  exact tryStartCmIpc_inScope (tryStartCm_inScope _ _ _ switched)

/-- The messages that an authorized connection takes, but for a second factor
of a remote session. -/
theorem dispatch_inScope (msg : Message) (typed : h.conn.Typed t)
    (authorized : h.conn.authorized = true) (request : isLoginRequest msg = false)
    (code : ∀ tfa, msg ≠ some (.auth2fa tfa))
    (gate : authorizedMessageScopeViolation p t msg = none) :
    InScope t h (dispatch p env h msg).1 := by
  unfold dispatch
  split
  · simp [isLoginRequest] at request
  · exact absurd rfl (code _)
  · exact onTestDelay_inScope _
  · have remote : t = .remote := by
      cases t <;> simp_all [authorizedMessageScopeViolation, isConnectionHousekeepingMessage,
        isNoopCompatMessage, isRenderBroadcastNoopCompatMessage, isTextClipboardNoopCompatMessage,
        isScopedMessage, isFileTransferScopedMessage, isTerminalScopedMessage,
        isViewCameraScopedMessage]
    cases remote
    exact onSwitchSidesResponse_inScope _ authorized
  · split
    · exact onAuthorizedMessage_inScope _ typed gate
    · exact .refl h
  · exact .refl h

theorem onMessage_inScope (msg : Message) (typed : h.conn.Typed t)
    (authorized : h.conn.authorized = true)
    (code : t = .remote → ∀ tfa, msg ≠ some (.auth2fa tfa)) :
    InScope t h (onMessage p env h msg).1 := by
  unfold onMessage
  split
  · exact onCloseReason_inScope typed
  split <;> rename_i request
  · exact .refl h
  have gates : authorizedScopeViolation p h.conn msg = authorizedMessageScopeViolation p t msg := by
    simp [authorizedScopeViolation, Connection.authedConnType, typed.authed]
  rw [gates]
  split <;> rename_i gate
  · exact handleAuthorizedScopeViolation_inScope _ typed
  · refine dispatch_inScope msg typed authorized (by simpa using request) ?_ gate
    rintro tfa rfl
    have remote : t = .remote := by
      cases t <;> simp_all [authorizedMessageScopeViolation, isConnectionHousekeepingMessage,
        isNoopCompatMessage, isRenderBroadcastNoopCompatMessage, isTextClipboardNoopCompatMessage,
        isScopedMessage, isFileTransferScopedMessage, isTerminalScopedMessage,
        isViewCameraScopedMessage]
    exact code remote tfa rfl

end CamelliaRemote.Server
