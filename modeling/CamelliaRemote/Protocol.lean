import Mathlib.Algebra.Ring.Int.Defs
import Mathlib.Algebra.Ring.Nat
import Mathlib.Tactic.Common

/-!
Messages of the remote protocol. The messages a connection handles, under the names of the
protocol definitions, with the fields that the modelled handlers read. A scalar keeps the sign of
its wire type. An enumeration field can carry a number outside its enumeration; `enum_value()`
then fails, which is `none` here.
-/

namespace CamelliaRemote

abbrev Bytes := List UInt8

/-- An enumeration field as it was received: `none` for an unknown number. -/
abbrev EnumOrUnknown (E : Type) := Option E

inductive BoolOption where
  | notSet
  | no
  | yes
  deriving DecidableEq, Repr

inductive ImageQuality where
  | notSet
  | low
  | balanced
  | best
  deriving DecidableEq, Repr

def ImageQuality.value : ImageQuality → Int
  | .notSet => 0
  | .low => 2
  | .balanced => 3
  | .best => 4

structure SupportedDecoding where
  abilityVp9 : Int := 0
  abilityH264 : Int := 0
  abilityH265 : Int := 0
  abilityVp8 : Int := 0
  abilityAv1 : Int := 0
  prefer : Int := 0

structure OptionMessage where
  imageQuality : EnumOrUnknown ImageQuality := some .notSet
  lockAfterSessionEnd : EnumOrUnknown BoolOption := some .notSet
  showRemoteCursor : EnumOrUnknown BoolOption := some .notSet
  privacyMode : EnumOrUnknown BoolOption := some .notSet
  blockInput : EnumOrUnknown BoolOption := some .notSet
  customImageQuality : Int := 0
  disableAudio : EnumOrUnknown BoolOption := some .notSet
  disableClipboard : EnumOrUnknown BoolOption := some .notSet
  enableFileTransfer : EnumOrUnknown BoolOption := some .notSet
  supportedDecoding : Option SupportedDecoding := none
  customFps : Int := 0
  disableKeyboard : EnumOrUnknown BoolOption := some .notSet
  followRemoteCursor : EnumOrUnknown BoolOption := some .notSet
  followRemoteWindow : EnumOrUnknown BoolOption := some .notSet
  disableCamera : EnumOrUnknown BoolOption := some .notSet
  terminalPersistent : EnumOrUnknown BoolOption := some .notSet
  showMyCursor : EnumOrUnknown BoolOption := some .notSet

structure PortForward where
  host : String := ""
  port : Int := 0

structure OSLogin where
  username : String := ""
  password : String := ""

inductive LoginRequest.Union where
  | fileTransfer (dir : String) (showHidden : Bool)
  | portForward (pf : PortForward)
  | viewCamera
  | terminal (serviceId : String)

structure LoginRequest where
  username : String := ""
  password : Bytes := []
  myId : String := ""
  myName : String := ""
  option : Option OptionMessage := none
  union : Option LoginRequest.Union := none
  videoAckRequired : Bool := false
  sessionId : Nat := 0
  version : String := ""
  osLogin : OSLogin := {}
  myPlatform : String := ""
  hwid : Bytes := []
  avatar : String := ""

structure Auth2fa where
  code : String := ""
  hwid : Bytes := []

structure SwitchSidesResponse where
  uuid : Bytes := []
  lr : Option LoginRequest := none

structure TestDelay where
  time : Int := 0
  fromClient : Bool := false
  lastDelay : Nat := 0
  targetBitrate : Nat := 0

structure MouseEvent where
  mask : Int := 0
  x : Int := 0
  y : Int := 0
  modifiers : List Int := []

inductive TouchEvent where
  | scaleUpdate (scale : Int)
  | panStart (x y : Int)
  | panUpdate (x y : Int)
  | panEnd (x y : Int)

structure PointerDeviceEvent where
  touchEvent : Option TouchEvent := none
  modifiers : List Int := []

inductive KeyboardMode where
  | legacy
  | map
  | translate
  | auto
  deriving DecidableEq, Repr

inductive KeyEvent.Union where
  | controlKey (number : Int)
  | chr (code : Nat)
  | unicode (code : Nat)
  | seq (text : String)
  | win2winHotkey (code : Nat)

structure KeyEvent where
  down : Bool := false
  press : Bool := false
  union : Option KeyEvent.Union := none
  modifiers : List Int := []
  mode : EnumOrUnknown KeyboardMode := some .legacy

structure Clipboard where
  compress : Bool := false
  content : Bytes := []
  width : Int := 0
  height : Int := 0
  format : Int := 0
  specialName : String := ""

/-- A file clipboard message. All but `files` become the clipboard's own format
by `msg_2_clip`, which can fail. -/
inductive Cliprdr.Union where
  | files (files : List (String × Nat))
  | other (clip : Bytes)

inductive JobType where
  | generic
  | printer
  deriving DecidableEq, Repr

structure SendRequest where
  id : Int := 0
  path : String := ""
  includeHidden : Bool := false
  fileNum : Int := 0
  fileType : JobType := .generic

structure ReceiveRequest where
  id : Int := 0
  path : String := ""
  files : List (String × Nat × Nat) := []
  fileNum : Int := 0
  totalSize : Nat := 0

structure SendConfirm where
  id : Int := 0
  fileNum : Int := 0
  skip : Bool := false
  offsetBlk : Nat := 0

inductive FileAction.Union where
  | readDir (path : String) (includeHidden : Bool)
  | send (s : SendRequest)
  | receive (r : ReceiveRequest)
  | create (id : Int) (path : String)
  | removeDir (id : Int) (path : String) (recursive : Bool)
  | removeFile (id : Int) (path : String) (fileNum : Int)
  | allFiles (id : Int) (path : String) (includeHidden : Bool)
  | cancel (id : Int)
  | sendConfirm (r : SendConfirm)
  | rename (id : Int) (path newName : String)
  | readEmptyDirs (path : String) (includeHidden : Bool)

inductive FileResponse.Union where
  | dir
  | block (id fileNum : Int) (data : Bytes) (compressed : Bool)
  | error (id : Int) (error : String) (fileNum : Int)
  | done (id fileNum : Int)
  | digest (id fileNum : Int) (lastModified fileSize : Nat) (isResume : Bool)
  | emptyDirs

structure Resolution where
  width : Int := 0
  height : Int := 0

structure SwitchDisplay where
  display : Int := 0
  width : Int := 0
  height : Int := 0

structure CaptureDisplays where
  add : List Int := []
  sub : List Int := []
  set : List Int := []

inductive ElevationRequest.Union where
  | direct
  | logon (username password : String)

inductive TerminalAction.Union where
  | open (terminalId : Int) (rows cols : Nat)
  | data (terminalId : Int) (data : Bytes) (compressed : Bool)
  | resize (terminalId : Int) (rows cols : Nat)
  | close (terminalId : Int)

inductive Misc.Union where
  | chatMessage (text : String)
  | switchDisplay (s : SwitchDisplay)
  | permissionInfo
  | option (o : OptionMessage)
  | audioFormat (sampleRate channels : Nat)
  | closeReason (reason : String)
  | refreshVideo (refresh : Bool)
  | videoReceived
  | backNotification
  | restartRemoteDevice
  | uac
  | foregroundWindowElevated
  | stopService
  | elevationRequest (r : Option ElevationRequest.Union)
  | elevationResponse
  | portableServiceRunning
  | switchSidesRequest (uuid : Bytes)
  | switchBack
  | changeResolution (r : Resolution)
  | pluginRequest
  | pluginFailure
  | fullSpeedFps
  | autoAdjustFps (fps : Nat)
  | clientRecordStatus (status : Bool)
  | captureDisplays (displays : CaptureDisplays)
  | refreshVideoDisplay (display : Int)
  | toggleVirtualDisplay (display : Int) (on : Bool)
  | togglePrivacyMode (implKey : String) (on : Bool)
  | supportedEncoding
  | selectedSid (sid : Nat)
  | changeDisplayResolution (display : Int) (r : Resolution)
  | messageQuery (switchDisplay : Int)
  | followCurrentDisplay

inductive Message.Union where
  | signedId
  | publicKey
  | testDelay (t : TestDelay)
  | videoFrame
  | loginRequest (lr : LoginRequest)
  | loginResponse
  | hash
  | mouseEvent (me : MouseEvent)
  | audioFrame (data : Bytes)
  | cursorData
  | cursorPosition
  | cursorId
  | keyEvent (ke : KeyEvent)
  | clipboard (cb : Clipboard)
  | fileAction (fa : Option FileAction.Union)
  | fileResponse (fr : Option FileResponse.Union)
  | misc (m : Option Misc.Union)
  | cliprdr (clip : Option Cliprdr.Union)
  | messageBox
  | switchSidesResponse (s : SwitchSidesResponse)
  | voiceCallRequest (reqTimestamp : Int) (isConnect : Bool)
  | voiceCallResponse
  | peerInfo
  | pointerDeviceEvent (pde : PointerDeviceEvent)
  | auth2fa (tfa : Auth2fa)
  | multiClipboards (cbs : List Clipboard)
  | screenshotRequest (display : Int) (sid : String)
  | screenshotResponse
  | terminalAction (action : Option TerminalAction.Union)
  | terminalResponse

/-- A message as it is parsed; its union can be empty. -/
abbrev Message := Option Message.Union

end CamelliaRemote
