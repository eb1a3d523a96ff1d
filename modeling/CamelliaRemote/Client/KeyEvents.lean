import CamelliaRemote.Input.Keys

/-!
From captured keys to key events, `src/keyboard.rs` on Linux. The three keyboard modes that turn
an event of the local keyboard into the key events for the peer. What they read besides is the
peer's platform, the tables of rdev, the layout option, the state of the local keyboard and
`MODIFIERS_STATE`.
-/

namespace CamelliaRemote.Client
open Input (ControlKey)

/-- The keys of rdev that `keyboard.rs` names; `other` stands for the rest. -/
inductive RdevKey where
  | alt | altGr | backspace | capsLock | controlLeft | controlRight | delete | downArrow | endKey
  | escape | f (n : Fin 12) | home | leftArrow | metaLeft | metaRight | pageDown | pageUp
  | returnKey | rightArrow | shiftLeft | shiftRight | space | tab | upArrow | printScreen
  | scrollLock | pause | numLock | backQuote | num (n : Fin 10) | minus | equal
  | key (letter : Fin 26) | leftBracket | rightBracket | semiColon | quote | backSlash | comma | dot
  | slash | insert | kpReturn | kpMinus | kpPlus | kpMultiply | kpDivide | kpDecimal
  | kp (n : Fin 10) | apps | cancel | clear | kana | hangul | junja | final | hanja | hanji | lang2
  | print | select | execute | help | sleep | separator | other (code : Nat)
  deriving DecidableEq

structure UnicodeInfo where
  name : Option String := none
  isDead : Bool := false
  deriving DecidableEq

/-- A press or a release. -/
structure KeyboardEvent where
  key : RdevKey
  press : Bool
  positionCode : Nat := 0
  platformCode : Nat := 0
  unicode : Option UnicodeInfo := none
  deriving DecidableEq

/-- `get_key_state` of the keys that are asked for. -/
structure KeyStates where
  alt : Bool := false
  control : Bool := false
  rightControl : Bool := false
  shift : Bool := false
  rightShift : Bool := false
  metaKey : Bool := false
  capsLock : Bool := false
  numLock : Bool := false
  deriving DecidableEq

/-- The tables of rdev and the layout option. -/
structure Layout where
  linuxCodeToWinScancode : Nat → Option Nat
  linuxCodeToMacosCode : Nat → Option Nat
  linuxCodeToMacosIsoCode : Nat → Option Nat
  linuxCodeToAndroidKeyCode : Nat → Option Nat
  /-- `get_kb_layout_type() == "ISO"`. -/
  iso : Bool

def isModifier : RdevKey → Bool
  | .shiftLeft | .shiftRight | .controlLeft | .controlRight | .metaLeft | .metaRight | .alt
  | .altGr => true
  | _ => false

def isNumpadKey : RdevKey → Bool
  | .kp _ | .kpMinus | .kpMultiply | .kpDivide | .kpPlus | .kpDecimal => true
  | _ => false

/-- `is_letter_rdev_key` and `is_letter_rdev_key_ex`. -/
def isLetterKey4LockModes : RdevKey → Bool
  | .key _ | .leftBracket | .rightBracket | .semiColon | .quote | .comma | .dot => true
  | _ => false

/-- Caps Lock, Num Lock and Scroll Lock. -/
def isLockKey : RdevKey → Bool
  | .capsLock | .numLock | .scrollLock => true
  | _ => false

/-- `MODIFIERS_STATE`: the modifiers that are down. -/
abbrev ModifiersState := List RdevKey

structure Modifiers where
  alt : Bool
  ctrl : Bool
  shift : Bool
  command : Bool

def getModifiersState (state : ModifiersState) (m : Modifiers) : Modifiers where
  alt := .alt ∈ state || .altGr ∈ state || m.alt
  ctrl := .controlLeft ∈ state || .controlRight ∈ state || m.ctrl
  shift := .shiftLeft ∈ state || .shiftRight ∈ state || m.shift
  command := .metaLeft ∈ state || .metaRight ∈ state || m.command

def isControlKey (evt : KeyEvent) (key : ControlKey) : Bool :=
  match evt.union with
  | some (.controlKey number) => number = key.value
  | _ => false

def pushModifier (on : Bool) (key right : ControlKey) (evt : KeyEvent) : KeyEvent :=
  if on && !isControlKey evt key && !isControlKey evt right then
    { evt with modifiers := evt.modifiers ++ [key.value] }
  else evt

def legacyModifiers (m : Modifiers) (evt : KeyEvent) : KeyEvent :=
  let evt := pushModifier m.alt .alt .rAlt evt
  let evt := pushModifier m.shift .shift .rShift evt
  let evt := pushModifier m.ctrl .control .rControl evt
  pushModifier m.command .metaKey .rWin evt

def addLockModesModifiers (states : KeyStates) (key : RdevKey) (evt : KeyEvent) : KeyEvent :=
  let caps := if isLetterKey4LockModes key && states.capsLock then [ControlKey.capsLock] else []
  let num := if isNumpadKey key && states.numLock then [ControlKey.numLock] else []
  { evt with modifiers := evt.modifiers ++ (caps ++ num).map ControlKey.value }

/-- `Pause` goes to Windows peers as a control key. -/
def windowsPeerSpecialKey (state : ModifiersState) (peer : String) (event : KeyboardEvent) :
    Option KeyEvent :=
  if peer = "windows" && event.key = .pause then
    some (legacyModifiers (getModifiersState state ⟨false, false, false, false⟩)
      { down := event.press, union := some (.controlKey ControlKey.pause.value) })
  else none

def keycode (l : Layout) (peer : String) (event : KeyboardEvent) : Option Nat :=
  if peer = "windows" then l.linuxCodeToWinScancode event.positionCode
  else if peer = "macos" then
    if l.iso then l.linuxCodeToMacosIsoCode event.positionCode
    else l.linuxCodeToMacosCode event.positionCode
  else if peer = "android" then l.linuxCodeToAndroidKeyCode event.positionCode
  else some event.positionCode

def mapKeyboardMode (l : Layout) (state : ModifiersState) (peer : String)
    (event : KeyboardEvent) (evt : KeyEvent) : List KeyEvent :=
  match windowsPeerSpecialKey state peer event with
  | some evt => [evt]
  | none =>
    ((keycode l peer event).map fun code =>
      { evt with down := event.press, union := some (.chr code) }).toList

/-- The keysym of AltGr. -/
def isAltgr (event : KeyboardEvent) : Bool := event.platformCode = 0xFE03

/-- The text of a press. -/
def tryFillUnicode (event : KeyboardEvent) (evt : KeyEvent) : List KeyEvent :=
  match event.unicode.bind UnicodeInfo.name with
  | some name => if name ≠ "" then [{ evt with down := true, union := some (.seq name) }] else []
  | none => []

def translateKeyboardMode (l : Layout) (state : ModifiersState) (peer : String)
    (event : KeyboardEvent) (evt : KeyEvent) : List KeyEvent :=
  match windowsPeerSpecialKey state peer event with
  | some evt => [evt]
  | none =>
    if event.unicode.any UnicodeInfo.isDead then []
    else if isNumpadKey event.key then mapKeyboardMode l state peer event evt
    else if isAltgr event then []
    else
      let events := if event.press then tryFillUnicode event evt else []
      if events.isEmpty then mapKeyboardMode l state peer event evt else events

def convertNumpadKeys (states : KeyStates) (key : RdevKey) : RdevKey :=
  if states.numLock then key
  else
    match key with
    | .kp 0 => .insert
    | .kpDecimal => .delete
    | .kp 1 => .endKey
    | .kp 2 => .downArrow
    | .kp 3 => .pageDown
    | .kp 4 => .leftArrow
    | .kp 5 => .clear
    | .kp 6 => .rightArrow
    | .kp 7 => .home
    | .kp 8 => .upArrow
    | .kp 9 => .pageUp
    | _ => key

def functionKey (n : Fin 12) : ControlKey :=
  [.f1, .f2, .f3, .f4, .f5, .f6, .f7, .f8, .f9, .f10, .f11, .f12].get n

def numpadKey (n : Fin 10) : ControlKey :=
  [.numpad0, .numpad1, .numpad2, .numpad3, .numpad4, .numpad5, .numpad6, .numpad7, .numpad8,
    .numpad9].get n

/-- The control key of a key that has one; the lock keys are not sent. -/
def legacyControlKey : RdevKey → Option ControlKey
  | .alt => some .alt
  | .altGr => some .rAlt
  | .backspace => some .backspace
  | .controlLeft => some .control
  | .controlRight => some .rControl
  | .downArrow => some .downArrow
  | .escape => some .escape
  | .f n => some (functionKey n)
  | .leftArrow => some .leftArrow
  | .metaLeft => some .metaKey
  | .metaRight => some .rWin
  | .returnKey => some .returnKey
  | .rightArrow => some .rightArrow
  | .shiftLeft => some .shift
  | .shiftRight => some .rShift
  | .space => some .space
  | .tab => some .tab
  | .upArrow => some .upArrow
  | .delete => some .delete
  | .apps => some .apps
  | .cancel => some .cancel
  | .clear => some .clear
  | .kana => some .kana
  | .hangul => some .hangul
  | .junja => some .junja
  | .final => some .final
  | .hanja | .hanji => some .hanja
  | .lang2 => some .convert
  | .print => some .print
  | .select => some .select
  | .execute => some .execute
  | .printScreen => some .snapshot
  | .help => some .help
  | .sleep => some .sleep
  | .separator => some .separator
  | .kpReturn => some .numpadEnter
  | .kp n => some (numpadKey n)
  | .kpDivide => some .divide
  | .kpMultiply => some .multiply
  | .kpDecimal => some .decimal
  | .kpMinus => some .subtract
  | .kpPlus => some .add
  | .home => some .home
  | .endKey => some .endKey
  | .insert => some .insert
  | .pageUp => some .pageUp
  | .pageDown => some .pageDown
  | .pause => some .pause
  | _ => none

/-- The character of a key without a name; `none` stands for `'\0'`. -/
def legacyKeyChar : RdevKey → Option Char
  | .num n => some (Char.ofNat ('0'.toNat + n))
  | .key letter => some (Char.ofNat ('a'.toNat + letter))
  | .comma => some ','
  | .dot => some '.'
  | .semiColon => some ';'
  | .quote => some (Char.ofNat 39)
  | .leftBracket => some '['
  | .rightBracket => some ']'
  | .slash => some '/'
  | .backSlash => some '\\'
  | .minus => some '-'
  | .equal => some '='
  | .backQuote => some (Char.ofNat 96)
  | _ => none

/-- The first character of a name of at most two bytes. -/
def nameChar (event : KeyboardEvent) : Option Char :=
  match event.unicode.bind UnicodeInfo.name with
  | some name => if name.utf8ByteSize ≤ 2 then name.toList.head? else none
  | none => none

def legacyChar (event : KeyboardEvent) (key : RdevKey) : Option Char :=
  match (nameChar event).filter (· ≠ Char.ofNat 0) with
  | some '·' => some (Char.ofNat 96)
  | some chr => some chr
  | none => legacyKeyChar key

/-- `event_ctrl_alt_del` for a Windows peer. -/
def eventCtrlAltDel : KeyEvent :=
  { down := true, union := some (.controlKey ControlKey.ctrlAltDel.value) }

def eventLockScreen : KeyEvent :=
  { down := true, union := some (.controlKey ControlKey.lockScreen.value) }

/-- The key events that are sent at once, and those that are returned. -/
structure Translated where
  atOnce : List KeyEvent := []
  events : List KeyEvent := []

def legacyModifiersOf (states : KeyStates) : Modifiers where
  alt := states.alt
  ctrl := states.control || states.rightControl
  shift := states.shift || states.rightShift
  command := states.metaKey

def legacyKeyboardMode (state : ModifiersState) (states : KeyStates) (isWin : Bool)
    (event : KeyboardEvent) (evt : KeyEvent) : Translated :=
  let key := if isWin then convertNumpadKeys states event.key else event.key
  let m := legacyModifiersOf states
  let send := fun union =>
    { events := [{ legacyModifiers (getModifiersState state m) { evt with union := some union }
                   with down := event.press }] }
  if isLockKey key then {}
  else
    match legacyControlKey key with
    | some ck =>
      if ck = .delete && isWin && m.ctrl && m.alt then { atOnce := [eventCtrlAltDel] }
      else send (.controlKey ck.value)
    | none =>
      match legacyChar event key with
      | some chr =>
        if chr = 'l' && isWin && m.command then { atOnce := [eventLockScreen] }
        else send (.chr chr.toNat)
      | none => {}

/-- `char::is_whitespace`. -/
def isWhitespace (c : Char) : Bool :=
  let n := c.toNat
  (9 ≤ n && n ≤ 13) || n = 0x20 || n = 0x85 || n = 0xA0 || n = 0x1680 ||
    (0x2000 ≤ n && n ≤ 0x200A) || n = 0x2028 || n = 0x2029 || n = 0x202F || n = 0x205F || n = 0x3000

/-- The peer's platform in lower case and without blanks. No character beyond ASCII has
a lower case in the names that it is compared with. -/
def peerName (platform : String) : String :=
  String.ofList ((platform.toList.map Char.toLower).filter (!isWhitespace ·))

/-- `event_to_key_events` after it has updated the tables. -/
def keyEvents (l : Layout) (state : ModifiersState) (states : KeyStates) (platform : String)
    (mode : KeyboardMode) (event : KeyboardEvent) : Translated :=
  let peer := peerName platform
  let evt : KeyEvent := { mode := some mode }
  let t : Translated :=
    match mode with
    | .map => { events := mapKeyboardMode l state peer event evt }
    | .translate => { events := translateKeyboardMode l state peer event evt }
    | _ => legacyKeyboardMode state states (platform = "Windows") event evt
  if mode ≠ .translate || isNumpadKey event.key then
    { t with events := t.events.map (addLockModesModifiers states event.key) }
  else t

end CamelliaRemote.Client
