import Mathlib.Tactic.Common
import CamelliaRemote.Protocol

namespace CamelliaRemote.Input

inductive ControlKey where
  | unknown | alt | backspace | capsLock | control | delete | downArrow | endKey | escape | f1 | f10
  | f11 | f12 | f2 | f3 | f4 | f5 | f6 | f7 | f8 | f9 | home | leftArrow | metaKey | option
  | pageDown | pageUp | returnKey | rightArrow | shift | space | tab | upArrow | numpad0 | numpad1
  | numpad2 | numpad3 | numpad4 | numpad5 | numpad6 | numpad7 | numpad8 | numpad9 | cancel
  | clear | menu | pause | kana | hangul | junja | final | hanja | kanji | convert | select
  | print | execute | snapshot | insert | help | sleep | separator | scroll | numLock | rWin
  | apps | multiply | add | subtract | decimal | divide | equals | numpadEnter | rShift
  | rControl | rAlt | volumeMute | volumeUp | volumeDown | power | ctrlAltDel | lockScreen
  deriving DecidableEq

/-- The number of a control key on the wire. -/
def ControlKey.value : ControlKey → Int
  | .unknown => 0 | .alt => 1 | .backspace => 2 | .capsLock => 3 | .control => 4 | .delete => 5
  | .downArrow => 6 | .endKey => 7 | .escape => 8 | .f1 => 9 | .f10 => 10 | .f11 => 11 | .f12 => 12
  | .f2 => 13 | .f3 => 14 | .f4 => 15 | .f5 => 16 | .f6 => 17 | .f7 => 18 | .f8 => 19 | .f9 => 20
  | .home => 21 | .leftArrow => 22 | .metaKey => 23 | .option => 24 | .pageDown => 25
  | .pageUp => 26 | .returnKey => 27 | .rightArrow => 28 | .shift => 29 | .space => 30 | .tab => 31
  | .upArrow => 32 | .numpad0 => 33 | .numpad1 => 34 | .numpad2 => 35 | .numpad3 => 36
  | .numpad4 => 37 | .numpad5 => 38 | .numpad6 => 39 | .numpad7 => 40 | .numpad8 => 41
  | .numpad9 => 42 | .cancel => 43 | .clear => 44 | .menu => 45 | .pause => 46 | .kana => 47
  | .hangul => 48 | .junja => 49 | .final => 50 | .hanja => 51 | .kanji => 52 | .convert => 53
  | .select => 54 | .print => 55 | .execute => 56 | .snapshot => 57 | .insert => 58 | .help => 59
  | .sleep => 60 | .separator => 61 | .scroll => 62 | .numLock => 63 | .rWin => 64 | .apps => 65
  | .multiply => 66 | .add => 67 | .subtract => 68 | .decimal => 69 | .divide => 70
  | .equals => 71 | .numpadEnter => 72 | .rShift => 73 | .rControl => 74 | .rAlt => 75
  | .volumeMute => 76 | .volumeUp => 77 | .volumeDown => 78 | .power => 79 | .ctrlAltDel => 100
  | .lockScreen => 101

/-- `enigo::Key`. -/
inductive Key where
  | alt | backspace | capsLock | command | control | delete | downArrow | endKey | escape | f1 | f10
  | f11 | f12 | f2 | f3 | f4 | f5 | f6 | f7 | f8 | f9 | home | leftArrow | metaKey | option
  | pageDown | pageUp | returnKey | rightArrow | shift | space | super | tab | upArrow | windows
  | numpad0 | numpad1 | numpad2 | numpad3 | numpad4 | numpad5 | numpad6 | numpad7 | numpad8
  | numpad9 | cancel | clear | pause | kana | hangul | junja | final | hanja | kanji | convert
  | select | print | execute | snapshot | insert | help | sleep | separator | volumeUp
  | volumeDown | mute | scroll | numLock | rWin | apps | multiply | add | subtract | decimal
  | divide | equals | numpadEnter | rightShift | rightControl | rightAlt | layout (c : Char)
  | raw (code : Nat)
  deriving DecidableEq

/-- `KEY_MAP`, with the control key of each entry. -/
def keyMap : List (ControlKey × Key) := [
  (.alt, .alt), (.backspace, .backspace), (.capsLock, .capsLock), (.control, .control),
  (.delete, .delete), (.downArrow, .downArrow), (.endKey, .endKey), (.escape, .escape), (.f1, .f1),
  (.f10, .f10), (.f11, .f11), (.f12, .f12), (.f2, .f2), (.f3, .f3), (.f4, .f4), (.f5, .f5),
  (.f6, .f6), (.f7, .f7), (.f8, .f8), (.f9, .f9), (.home, .home), (.leftArrow, .leftArrow),
  (.metaKey, .metaKey), (.option, .option), (.pageDown, .pageDown), (.pageUp, .pageUp),
  (.returnKey, .returnKey), (.rightArrow, .rightArrow), (.shift, .shift), (.space, .space),
  (.tab, .tab), (.upArrow, .upArrow), (.numpad0, .numpad0), (.numpad1, .numpad1),
  (.numpad2, .numpad2), (.numpad3, .numpad3), (.numpad4, .numpad4), (.numpad5, .numpad5),
  (.numpad6, .numpad6), (.numpad7, .numpad7), (.numpad8, .numpad8), (.numpad9, .numpad9),
  (.cancel, .cancel), (.clear, .clear), (.menu, .alt), (.pause, .pause), (.kana, .kana),
  (.hangul, .hangul), (.junja, .junja), (.final, .final), (.hanja, .hanja), (.kanji, .kanji),
  (.convert, .convert), (.select, .select), (.print, .print), (.execute, .execute),
  (.snapshot, .snapshot), (.insert, .insert), (.help, .help), (.sleep, .sleep),
  (.separator, .separator), (.scroll, .scroll), (.numLock, .numLock), (.rWin, .rWin),
  (.apps, .apps), (.multiply, .multiply), (.add, .add), (.subtract, .subtract),
  (.decimal, .decimal), (.divide, .divide), (.equals, .equals), (.numpadEnter, .numpadEnter),
  (.rAlt, .rightAlt), (.rControl, .rightControl), (.rShift, .rightShift)]

def controlKeyValueToKey (value : Int) : Option Key :=
  (keyMap.find? fun entry => entry.1.value = value).map Prod.snd

/-- `char::from_u32`. -/
def charFromU32 (value : Nat) : Option Char :=
  if value.isValidChar then some (Char.ofNat value) else none

def charValueToKey (value : Nat) : Key := .layout ((charFromU32 value).getD (Char.ofNat 0))

/-- The 0x20-0x7E range. -/
def isAsciiPrintable (c : Char) : Bool := 0x20 ≤ c.toNat && c.toNat ≤ 0x7E

/-- The XKB keycode of the Insert key: evdev's 110 and the offset 8. -/
def xkbKeyInsert : Nat := 110 + 8

inductive RawKey where
  | linuxXorgKeycode (code : Nat)
  deriving DecidableEq

/-- The keys of rdev that the input service tells apart; `other` stands for the
rest of its table. -/
inductive RdevKey where
  | controlLeft | controlRight | metaLeft | metaRight | shiftLeft | shiftRight | alt | altGr | tab
  | returnKey | kp0 | kp1 | kp2 | kp3 | kp4 | kp5 | kp6 | kp7 | kp8 | kp9 | kpMinus | kpMultiply
  | kpDivide | kpPlus | kpDecimal | other (code : Nat) | rawKey (raw : RawKey)
  deriving DecidableEq

/-- The keys of the `KEYS_DOWN` table. -/
inductive KeysDown where
  | rdevKey (raw : RawKey)
  | enigoKey (key : Nat)
  deriving DecidableEq

def keyCharStart : Nat := 9999

/-- `value as u64` of a control key number. -/
def recordOfControlKey (value : Int) : Nat := (value % 2 ^ 64).toNat

def recordOfChr (chr : Nat) : Nat := chr + keyCharStart

def recordKeyIsControlKey (recordKey : Nat) : Bool := recordKey < keyCharStart

def recordKeyToKey (recordKey : Nat) : Option Key :=
  if recordKeyIsControlKey recordKey then controlKeyValueToKey recordKey
  else some (charValueToKey ((recordKey - keyCharStart) % 2 ^ 32))

theorem value_lt (key : ControlKey) : 0 ≤ key.value ∧ key.value < keyCharStart := by
  cases key <;> decide

/-- A control key that has an Enigo key is recorded under the number that leads
back to this key. -/
theorem recordKeyToKey_controlKey {value : Int} {key : Key}
    (mapped : controlKeyValueToKey value = some key) :
    recordKeyToKey (recordOfControlKey value) = some key := by
  have number : ∃ entry ∈ keyMap, entry.1.value = value := by
    rw [controlKeyValueToKey, Option.map_eq_some_iff] at mapped
    obtain ⟨entry, found, -⟩ := mapped
    exact ⟨entry, List.mem_of_find?_eq_some found, by simpa using List.find?_some found⟩
  obtain ⟨entry, -, rfl⟩ := number
  obtain ⟨nonneg, small⟩ := value_lt entry.1
  have small : entry.1.value < 9999 := small
  have same : (recordOfControlKey entry.1.value : Int) = entry.1.value := by
    simp only [recordOfControlKey]
    omega
  have control : recordKeyIsControlKey (recordOfControlKey entry.1.value) = true := by
    rw [recordKeyIsControlKey, decide_eq_true_iff, keyCharStart]
    omega
  rw [recordKeyToKey, if_pos control, same, mapped]

/-- A character is recorded under the number that leads back to its key. -/
theorem recordKeyToKey_chr {chr : Nat} (u32 : chr < 2 ^ 32) :
    recordKeyToKey (recordOfChr chr) = some (charValueToKey chr) := by
  have character : recordKeyIsControlKey (recordOfChr chr) = false := by
    rw [recordKeyIsControlKey, recordOfChr, decide_eq_false_iff_not]
    omega
  have same : recordOfChr chr - keyCharStart = chr := by
    simp [recordOfChr]
  rw [recordKeyToKey, if_neg (by simp [character]), same, Nat.mod_eq_of_lt u32]

end CamelliaRemote.Input
