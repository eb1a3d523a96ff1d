import CamelliaRemote.Server.State

namespace CamelliaRemote.Server

def isBoolOptionNotSet (option : EnumOrUnknown BoolOption) : Bool := option = some .notSet

def optionHasNonViewCameraLoginField (option : OptionMessage) : Bool :=
  !(isBoolOptionNotSet option.lockAfterSessionEnd
    && isBoolOptionNotSet option.showRemoteCursor
    && isBoolOptionNotSet option.privacyMode
    && isBoolOptionNotSet option.blockInput
    && isBoolOptionNotSet option.disableClipboard
    && isBoolOptionNotSet option.enableFileTransfer
    && isBoolOptionNotSet option.disableKeyboard
    && isBoolOptionNotSet option.followRemoteCursor
    && isBoolOptionNotSet option.followRemoteWindow
    && isBoolOptionNotSet option.disableCamera
    && isBoolOptionNotSet option.terminalPersistent
    && isBoolOptionNotSet option.showMyCursor)

def optionHasNonTerminalLoginField (option : OptionMessage) : Bool :=
  option.imageQuality != some .notSet
    || option.customImageQuality != 0
    || option.customFps != 0
    || option.supportedDecoding.isSome
    || !isBoolOptionNotSet option.lockAfterSessionEnd
    || !isBoolOptionNotSet option.showRemoteCursor
    || !isBoolOptionNotSet option.privacyMode
    || !isBoolOptionNotSet option.blockInput
    || !isBoolOptionNotSet option.disableAudio
    || !isBoolOptionNotSet option.disableClipboard
    || !isBoolOptionNotSet option.enableFileTransfer
    || !isBoolOptionNotSet option.disableKeyboard
    || !isBoolOptionNotSet option.followRemoteCursor
    || !isBoolOptionNotSet option.followRemoteWindow
    || !isBoolOptionNotSet option.disableCamera
    || !isBoolOptionNotSet option.showMyCursor

def optionHasAnyField (option : OptionMessage) : Bool :=
  optionHasNonTerminalLoginField option || !isBoolOptionNotSet option.terminalPersistent

def isSupportedDecodingOnlyOption (option : OptionMessage) : Bool :=
  option.supportedDecoding.isSome
    && option.imageQuality == some .notSet
    && option.customImageQuality == 0
    && option.customFps == 0
    && isBoolOptionNotSet option.lockAfterSessionEnd
    && isBoolOptionNotSet option.showRemoteCursor
    && isBoolOptionNotSet option.privacyMode
    && isBoolOptionNotSet option.blockInput
    && isBoolOptionNotSet option.disableAudio
    && isBoolOptionNotSet option.disableClipboard
    && isBoolOptionNotSet option.enableFileTransfer
    && isBoolOptionNotSet option.disableKeyboard
    && isBoolOptionNotSet option.followRemoteCursor
    && isBoolOptionNotSet option.followRemoteWindow
    && isBoolOptionNotSet option.disableCamera
    && isBoolOptionNotSet option.terminalPersistent
    && isBoolOptionNotSet option.showMyCursor

def loginOption : String := "login.option"

/-- What `scoped_view_camera_option` copies. -/
def viewCameraFields (option : OptionMessage) : OptionMessage where
  imageQuality := if option.imageQuality.isSome then option.imageQuality else some .notSet
  customImageQuality := if 0 ≤ option.customImageQuality then option.customImageQuality else 0
  customFps := if 0 ≤ option.customFps then option.customFps else 0
  supportedDecoding := option.supportedDecoding
  disableAudio := if option.disableAudio.isSome then option.disableAudio else some .notSet

def scopedViewCameraOption (option : OptionMessage) : Option OptionMessage × Option String :=
  let kept := viewCameraFields option
  let violation := optionHasNonViewCameraLoginField option
  (if optionHasAnyField kept then some kept else none,
    if violation then some loginOption else none)

/-- What `scoped_terminal_login_option` copies. -/
def terminalFields (option : OptionMessage) : OptionMessage where
  terminalPersistent :=
    if option.terminalPersistent.isSome then option.terminalPersistent else some .notSet

def scopedTerminalLoginOption (option : OptionMessage) : Option OptionMessage × Option String :=
  let kept := terminalFields option
  let violation := option.terminalPersistent.isNone || optionHasNonTerminalLoginField option
  (if optionHasAnyField kept then some kept else none,
    if violation then some loginOption else none)

def scopedLoginOption (connType : AuthConnType) (option : OptionMessage) :
    Option OptionMessage × Option String :=
  match connType with
  | .remote => (some option, none)
  | .viewCamera => scopedViewCameraOption option
  | .terminal => scopedTerminalLoginOption option
  | .fileTransfer | .portForward =>
    (none, if optionHasAnyField option then some loginOption else none)

def scopedUpdateOptionMessage (c : Connection) (option : OptionMessage) : Option OptionMessage :=
  match c.authedConnType with
  | some .viewCamera => (scopedViewCameraOption option).1
  | some .terminal => (scopedTerminalLoginOption option).1
  | some .remote | some .fileTransfer | some .portForward | none => none

def isRenderBroadcastNoopCompatMessage : Message → Bool
  | some (.misc (some (.refreshVideo _))) => true
  | some (.misc (some (.refreshVideoDisplay _))) => true
  | some (.misc (some (.option option))) => isSupportedDecodingOnlyOption option
  | _ => false

def isTextClipboardNoopCompatMessage : Message → Bool
  | some (.clipboard _) | some (.multiClipboards _) => true
  | _ => false

def isConnectionHousekeepingMessage : Message → Bool
  | some (.loginRequest _) => true
  | some (.testDelay _) => true
  | some (.misc (some (.closeReason _))) => true
  | _ => false

def isFileTransferScopedMessage (p : Host) : Message → Bool
  | some (.fileAction _) | some (.fileResponse _) => true
  | some (.misc (some (.selectedSid _))) => p.os = .windows
  | _ => false

def isTerminalScopedOption (option : OptionMessage) : Bool :=
  (scopedTerminalLoginOption option).2.isNone

def isTerminalScopedMessage : Message → Bool
  | some (.terminalAction _) => true
  | some (.misc (some (.chatMessage _))) => true
  | some (.misc (some (.option option))) => isTerminalScopedOption option
  | _ => false

def isViewCameraScopedOption (option : OptionMessage) : Bool :=
  (scopedViewCameraOption option).2.isNone

def isViewCameraScopedMisc (p : Host) : Misc.Union → Bool
  | .switchDisplay _ | .captureDisplays _ | .refreshVideo _ | .refreshVideoDisplay _
  | .videoReceived | .chatMessage _ | .audioFormat _ _ | .clientRecordStatus _ => true
  | .messageQuery _ | .togglePrivacyMode _ _ | .toggleVirtualDisplay _ _ | .changeResolution _
  | .changeDisplayResolution _ _ => true
  | .option option => isViewCameraScopedOption option
  | .selectedSid _ => p.os = .windows
  | _ => false

def isViewCameraScopedMessage (p : Host) : Message → Bool
  | some (.screenshotRequest _ _) => true
  | some (.misc (some misc)) => isViewCameraScopedMisc p misc
  | some (.mouseEvent _) | some (.pointerDeviceEvent _) | some (.keyEvent _) => true
  | some (.audioFrame _) | some (.voiceCallRequest _ _) | some .voiceCallResponse => true
  | _ => false

def miscMessageFamily : Option Misc.Union → String
  | some (.chatMessage _) => "misc.chat_message"
  | some (.switchDisplay _) => "misc.switch_display"
  | some (.option _) => "misc.option"
  | some (.audioFormat _ _) => "misc.audio_format"
  | some (.captureDisplays _) => "misc.capture_displays"
  | some (.clientRecordStatus _) => "misc.client_record_status"
  | some (.togglePrivacyMode _ _) => "misc.toggle_privacy_mode"
  | some (.toggleVirtualDisplay _ _) => "misc.toggle_virtual_display"
  | some (.selectedSid _) => "misc.selected_sid"
  | some (.changeResolution _) => "misc.change_resolution"
  | some (.changeDisplayResolution _ _) => "misc.change_display_resolution"
  | some (.messageQuery _) => "misc.message_query"
  | some .followCurrentDisplay => "misc.follow_current_display"
  | some (.switchSidesRequest _) => "misc.switch_sides_request"
  | some _ => "misc.other"
  | none => "misc.empty"

def messageFamily : Message → String
  | some (.mouseEvent _) => "mouse_event"
  | some (.audioFrame _) => "audio_frame"
  | some (.pointerDeviceEvent _) => "pointer_device_event"
  | some (.keyEvent _) => "key_event"
  | some (.clipboard _) => "clipboard"
  | some (.fileAction _) => "file_action"
  | some (.fileResponse _) => "file_response"
  | some (.voiceCallRequest _ _) => "voice_call_request"
  | some .voiceCallResponse => "voice_call_response"
  | some (.multiClipboards _) => "multi_clipboards"
  | some (.screenshotRequest _ _) => "screenshot_request"
  | some .screenshotResponse => "screenshot_response"
  | some (.terminalAction _) => "terminal_action"
  | some .terminalResponse => "terminal_response"
  | some (.misc misc) => miscMessageFamily misc
  | some _ => "message.other"
  | none => "empty"

/-- Messages that legacy clients broadcast to all their sessions pass the gate
and are left to the handlers to ignore. -/
def isNoopCompatMessage (connType : AuthConnType) (msg : Message) : Bool :=
  match connType with
  | .fileTransfer | .terminal =>
    isRenderBroadcastNoopCompatMessage msg || isTextClipboardNoopCompatMessage msg
  | .portForward => isRenderBroadcastNoopCompatMessage msg
  | .viewCamera => isTextClipboardNoopCompatMessage msg
  | .remote => false

def isScopedMessage (p : Host) (connType : AuthConnType) (msg : Message) : Bool :=
  match connType with
  | .remote => true
  | .fileTransfer => isFileTransferScopedMessage p msg
  | .portForward => false
  | .viewCamera => isViewCameraScopedMessage p msg
  | .terminal => isTerminalScopedMessage msg

def authorizedMessageScopeViolation (p : Host) (connType : AuthConnType) (msg : Message) :
    Option String :=
  if isConnectionHousekeepingMessage msg then none
  else if isNoopCompatMessage connType msg then none
  else if isScopedMessage p connType msg then none
  else some (messageFamily msg)

def authorizedScopeViolation (p : Host) (c : Connection) (msg : Message) : Option String :=
  match c.authedConnType with
  | none => if isConnectionHousekeepingMessage msg then none else some "session.auth_type"
  | some connType => authorizedMessageScopeViolation p connType msg

end CamelliaRemote.Server
