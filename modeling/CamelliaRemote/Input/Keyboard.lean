import Mathlib.Data.Finset.Basic
import CamelliaRemote.Input.Keys

namespace CamelliaRemote.Input

/-- What is fixed while the server runs. -/
structure Platform (D : Type) where
  enigo : Key → D
  rdev : RdevKey → D
  isX11 : Bool
  isServer : Bool
  linuxKeyFromCode : Nat → RdevKey

structure Keyboard (D : Type) where
  held : Finset D
  keysDown : List (KeysDown × Nat)
  exiting : Bool

/-- An event to handle, with the clock and whether the clipboard takes a text. -/
structure Event where
  key : KeyEvent
  now : Nat
  clipboardSet : Bool

variable {D : Type} [DecidableEq D] (p : Platform D)

def waylandUseUinput : Bool := !p.isX11 && p.isServer

def waylandUseRdpInput : Bool := !p.isX11 && !p.isServer

def keyDown (s : Keyboard D) (key : Key) : Keyboard D :=
  { s with held := insert (p.enigo key) s.held }

def keyUp (s : Keyboard D) (key : Key) : Keyboard D :=
  { s with held := s.held.erase (p.enigo key) }

def getKeyState (s : Keyboard D) (key : Key) : Bool := p.enigo key ∈ s.held

def keyClick (s : Keyboard D) (_ : Key) : Keyboard D := s

def keySequence (s : Keyboard D) (_ : String) : Keyboard D := s

def keyPress (s : Keyboard D) (key : RdevKey) : Keyboard D :=
  { s with held := insert (p.rdev key) s.held }

def keyRelease (s : Keyboard D) (key : RdevKey) : Keyboard D :=
  { s with held := s.held.erase (p.rdev key) }

/-- Left and right of a modifier answer for each other. -/
def getModifierState (s : Keyboard D) (key : Key) : Bool :=
  let x := getKeyState p s key
  match key with
  | .shift => x || getKeyState p s .rightShift
  | .control => x || getKeyState p s .rightControl
  | .alt => x || getKeyState p s .rightAlt
  | .metaKey => x || getKeyState p s .rWin
  | .rightShift => x || getKeyState p s .shift
  | .rightControl => x || getKeyState p s .control
  | .rightAlt => x || getKeyState p s .alt
  | .rWin => x || getKeyState p s .metaKey
  | _ => x

def recordPressedKey (s : Keyboard D) (recordKey : KeysDown) (down : Bool) (now : Nat) :
    Keyboard D :=
  let others := s.keysDown.filter (·.1 ≠ recordKey)
  { s with keysDown := if down then (recordKey, now) :: others else others }

def releaseRecordKey (s : Keyboard D) : KeysDown → Keyboard D
  | .rdevKey raw => keyRelease p s (.rawKey raw)
  | .enigoKey key =>
    match recordKeyToKey key with
    | some key => keyUp p s key
    | none => s

/-- `cloned` is the table in the order in which it is iterated. -/
def fixKeyDownTimeout (force : Bool) (now : Nat) (cloned : List (KeysDown × Nat)) (s : Keyboard D) :
    Keyboard D :=
  cloned.foldl (fun s (recordKey, time) =>
    if force || 360000 ≤ now - time then
      releaseRecordKey p (recordPressedKey s recordKey false now) recordKey
    else s) s

def fixModifier (modifiers : List Int) (key0 : ControlKey) (key1 : Key) (s : Keyboard D) :
    Keyboard D :=
  if getModifierState p s key1 && !modifiers.contains key0.value then keyUp p s key1 else s

/-- `fix_modifier`, unless the event is about the key `own` itself. -/
def fixOther (modifiers : List Int) (ck : Int) (own key0 : ControlKey) (key1 : Key)
    (s : Keyboard D) : Keyboard D :=
  if ck ≠ own.value then fixModifier p modifiers key0 key1 s else s

def fixModifiers (modifiers : List Int) (s : Keyboard D) (ck : Int) : Keyboard D :=
  let s := fixOther p modifiers ck .shift .shift .shift s
  let s := fixOther p modifiers ck .rShift .shift .rightShift s
  let s := fixOther p modifiers ck .alt .alt .alt s
  let s := fixOther p modifiers ck .rAlt .alt .rightAlt s
  let s := fixOther p modifiers ck .control .control .control s
  let s := fixOther p modifiers ck .rControl .control .rightControl s
  let s := fixOther p modifiers ck .metaKey .metaKey .metaKey s
  fixOther p modifiers ck .rWin .metaKey .rWin s

def getControlKeyValue (evt : KeyEvent) : Int :=
  match evt.union with
  | some (.controlKey ck) => ck
  | _ => -1

def releaseUnpressedModifiers (s : Keyboard D) (evt : KeyEvent) : Keyboard D :=
  fixModifiers p evt.modifiers s (getControlKeyValue evt)

def isAltgrPressed (s : Keyboard D) : Bool :=
  s.keysDown.any (·.1 = .rdevKey (.linuxXorgKeycode ControlKey.rAlt.value.toNat))

def pressModifiers : List Int → Keyboard D → List Key → Keyboard D × List Key
  | [], s, toRelease => (s, toRelease)
  | ck :: modifiers, s, toRelease =>
    match controlKeyValueToKey ck with
    | none => pressModifiers modifiers s toRelease
    | some key =>
      if getModifierState p s key then pressModifiers modifiers s toRelease
      else if key = .alt && isAltgrPressed s then pressModifiers modifiers s toRelease
      else pressModifiers modifiers (keyDown p s key) (toRelease ++ [key])

/-- The second component is what `press_modifiers` pressed for this event. -/
def syncModifiers (s : Keyboard D) (evt : KeyEvent) : Keyboard D × List Key :=
  if evt.down then pressModifiers p evt.modifiers (releaseUnpressedModifiers p s evt) []
  else (s, [])

def releaseKeys (s : Keyboard D) (toRelease : List Key) : Keyboard D := toRelease.foldl (keyUp p) s

def isHotkeyModifierPressed (s : Keyboard D) : Bool :=
  getModifierState p s .control || getModifierState p s .rightControl ||
    getModifierState p s .alt || getModifierState p s .rightAlt ||
    getModifierState p s .metaKey || getModifierState p s .rWin

def releaseShift (s : Keyboard D) (key : Key) (rdevKey : RdevKey) : Keyboard D :=
  if getModifierState p s key then
    if !p.isX11 then keyUp p s key else keyRelease p s rdevKey
  else s

def releaseShiftForCharInput (s : Keyboard D) : Keyboard D :=
  if isHotkeyModifierPressed p s then s
  else releaseShift p (releaseShift p s .shift .shiftLeft) .rightShift .shiftRight

def processControlKey (s : Keyboard D) (ck : Int) (down : Bool) : Keyboard D :=
  match controlKeyValueToKey ck with
  | some key => if down then keyDown p s key else keyUp p s key
  | none => s

/-- A text goes to the clipboard and is pasted with Shift+Insert. -/
def inputTextViaClipboardServer (clipboardSet : Bool) (s : Keyboard D) (text : String) :
    Keyboard D :=
  if text.isEmpty || !clipboardSet then s
  else
    let s := keyDown p s .shift
    let s := keyDown p s (.raw xkbKeyInsert)
    let s := keyUp p s (.raw xkbKeyInsert)
    keyUp p s .shift

def processChr (clipboardSet : Bool) (s : Keyboard D) (chr : Nat) (down : Bool) : Keyboard D :=
  if waylandUseUinput p && !isHotkeyModifierPressed p s then
    match charFromU32 chr with
    | some c =>
      if isAsciiPrintable c then
        if down then keyDown p s (.layout c) else keyUp p s (.layout c)
      else if down then inputTextViaClipboardServer p clipboardSet s (String.singleton c)
      else s
    | none => s
  else if down then keyDown p s (charValueToKey chr)
  else keyUp p s (charValueToKey chr)

def processUnicode (clipboardSet : Bool) (s : Keyboard D) (chr : Nat) : Keyboard D :=
  match charFromU32 chr with
  | none => s
  | some c =>
    if waylandUseUinput p && !isAsciiPrintable c then
      inputTextViaClipboardServer p clipboardSet s (String.singleton c)
    else keySequence s (String.singleton c)

def processSeq (clipboardSet : Bool) (s : Keyboard D) (sequence : String) : Keyboard D :=
  if waylandUseUinput p && !sequence.toList.all isAsciiPrintable then
    inputTextViaClipboardServer p clipboardSet s sequence
  else keySequence s sequence

/-- Ctrl+Alt+Del does nothing here; locking the screen starts events of its own. -/
def isFunctionKey (ck : Int) : Bool :=
  ck = ControlKey.ctrlAltDel.value || ck = ControlKey.lockScreen.value

def legacyKeyboardMode (s : Keyboard D) (e : Event) : Keyboard D :=
  let (s, toRelease) := syncModifiers p s e.key
  let down := e.key.down
  match e.key.union with
  | some (.controlKey ck) =>
    -- returns before the keys in `toRelease` are released
    if isFunctionKey ck then s
    else
      let s := recordPressedKey s (.enigoKey (recordOfControlKey ck)) down e.now
      releaseKeys p (processControlKey p s ck down) toRelease
  | some (.chr code) =>
    let chr := code % 2 ^ 32
    let s := releaseShiftForCharInput p s
    let s := recordPressedKey s (.enigoKey (recordOfChr chr)) down e.now
    releaseKeys p (processChr p e.clipboardSet s chr down) toRelease
  | some (.unicode code) =>
    let s := releaseShiftForCharInput p s
    releaseKeys p (processUnicode p e.clipboardSet s (code % 2 ^ 32)) toRelease
  | some (.seq text) => releaseKeys p (processSeq p e.clipboardSet s text) toRelease
  | some (.win2winHotkey _) | none => releaseKeys p s toRelease

/-- `KeyEvent::chr()`: 0 for every other payload. -/
def chr (evt : KeyEvent) : Nat :=
  match evt.union with
  | some (.chr code) => code % 2 ^ 32
  | _ => 0

def simRdevRawkeyPosition (s : Keyboard D) (code : Nat) (keydown : Bool) (now : Nat) : Keyboard D :=
  let rawkey := RawKey.linuxXorgKeycode code
  let s := recordPressedKey s (.rdevKey rawkey) keydown now
  if keydown then keyPress p s (.rawKey rawkey) else keyRelease p s (.rawKey rawkey)

def waylandSendRawKey (s : Keyboard D) (code : Nat) (down : Bool) : Keyboard D :=
  if down then keyDown p s (.raw code) else keyUp p s (.raw code)

/-- A raw keycode goes to the back end of the display server. -/
def sendRawKey (s : Keyboard D) (e : Event) : Keyboard D :=
  if !p.isX11 then waylandSendRawKey p s (chr e.key % 2 ^ 16) e.key.down
  else simRdevRawkeyPosition p s (chr e.key) e.key.down e.now

def mapKeyboardMode (s : Keyboard D) (e : Event) : Keyboard D := sendRawKey p s e

def clickChars (s : Keyboard D) (text : String) : Keyboard D :=
  text.toList.foldl (fun s c => keyClick s (.layout c)) s

def translateSeq (s : Keyboard D) (e : Event) (text : String) : Keyboard D :=
  if waylandUseRdpInput p then keySequence (releaseShiftForCharInput p s) text
  else if waylandUseUinput p then
    if isHotkeyModifierPressed p s then clickChars s text
    else
      let s := releaseShiftForCharInput p s
      if text.toList.all isAsciiPrintable then keySequence s text
      else inputTextViaClipboardServer p e.clipboardSet s text
  else clickChars (releaseShiftForCharInput p s) text

def translateKeyboardMode (s : Keyboard D) (e : Event) : Keyboard D :=
  match e.key.union with
  | some (.seq text) => translateSeq p s e text
  | some (.chr _) => sendRawKey p s e
  | some (.unicode _) | some (.controlKey _) | some (.win2winHotkey _) | none => s

/-- The lock keys that were clicked to match the peer's state. -/
structure LockModesHandler where
  capsLockChanged : Bool
  numLockChanged : Bool

def isModifierEnabled (evt : KeyEvent) (modifier : ControlKey) : Bool :=
  evt.modifiers.contains modifier.value

def clickIf (changed : Bool) (s : Keyboard D) (key : Key) : Keyboard D :=
  if changed then keyClick s key else s

def LockModesHandler.new (s : Keyboard D) (evt : KeyEvent) (isNumpadKey : Bool) :
    Keyboard D × LockModesHandler :=
  let capsLockChanged := isModifierEnabled evt .capsLock != getKeyState p s .capsLock
  let s := clickIf capsLockChanged s .capsLock
  let numLockChanged :=
    isNumpadKey && (getKeyState p s .numLock != isModifierEnabled evt .numLock)
  (clickIf numLockChanged s .numLock, ⟨capsLockChanged, numLockChanged⟩)

def LockModesHandler.drop (handler : LockModesHandler) (s : Keyboard D) : Keyboard D :=
  if waylandUseUinput p then s
  else clickIf handler.numLockChanged (clickIf handler.capsLockChanged s .capsLock) .numLock

def skipLedSyncControlKey (ck : Int) : Bool :=
  ([.control, .rControl, .metaKey, .shift, .rShift, .alt, .rAlt, .tab, .returnKey] :
    List ControlKey).any (·.value = ck)

def isNumpadControlKey (ck : Int) : Bool :=
  ([.numpad0, .numpad1, .numpad2, .numpad3, .numpad4, .numpad5, .numpad6, .numpad7, .numpad8,
    .numpad9, .numpadEnter] : List ControlKey).any (·.value = ck)

def skipLedSyncRdevKey (key : RdevKey) : Bool :=
  [.controlLeft, .controlRight, .metaLeft, .metaRight, .shiftLeft, .shiftRight, .alt, .altGr, .tab,
    .returnKey].contains key

def isNumpadRdevKey (key : RdevKey) : Bool :=
  [.kp0, .kp1, .kp2, .kp3, .kp4, .kp5, .kp6, .kp7, .kp8, .kp9, .kpMinus, .kpMultiply, .kpDivide,
    .kpPlus, .kpDecimal].contains key

def isLegacyMode (evt : KeyEvent) : Bool := evt.mode.getD .legacy = .legacy

/-- Whether a lock modes handler accompanies the event, and for a numpad key. -/
def lockModes (evt : KeyEvent) : Option Bool :=
  match evt.union with
  | some (.unicode _) | some (.seq _) => some false
  | some (.controlKey ck) =>
    if skipLedSyncControlKey ck then none else some (isNumpadControlKey ck)
  | some (.chr code) =>
    if isLegacyMode evt then some false
    else
      let key := p.linuxKeyFromCode (code % 2 ^ 32)
      if skipLedSyncRdevKey key then none else some (isNumpadRdevKey key)
  | some (.win2winHotkey _) | none => none

def keyboardMode (s : Keyboard D) (e : Event) : Keyboard D :=
  match e.key.mode with
  | some .map => mapKeyboardMode p s e
  | some .translate => translateKeyboardMode p s e
  | _ => legacyKeyboardMode p s e

def handleKey (s : Keyboard D) (e : Event) : Keyboard D :=
  if s.exiting then s
  else
    match lockModes p e.key with
    | none => keyboardMode p s e
    | some isNumpadKey =>
      let (s, handler) := LockModesHandler.new p s e.key isNumpadKey
      handler.drop p (keyboardMode p s e)

end CamelliaRemote.Input
