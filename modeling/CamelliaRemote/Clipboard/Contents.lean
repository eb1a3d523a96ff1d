import CamelliaRemote.Protocol
import CamelliaRemote.Lib.Codec
import CamelliaRemote.Lib.MachineInt

/-!
Clipboard contents, the `proto` part of `src/clipboard.rs`. Each item of a clipboard becomes one
`Clipboard` message, compressed where that makes it shorter, and is read back on the other side.
The compression is that of the protocol library and a parameter here.
-/

namespace CamelliaRemote.Clipboard
open Codec MachineInt

inductive ImageData where
  | rgba (width height : Nat) (bytes : Bytes)
  | png (bytes : Bytes)
  | svg (text : String)
  deriving DecidableEq

def ImageData.bytes : ImageData → Bytes
  | .rgba _ _ bytes => bytes
  | .png bytes => bytes
  | .svg text => utf8 text

inductive ClipboardData where
  | text (s : String)
  | rtf (s : String)
  | html (s : String)
  | image (a : ImageData)
  | fileUrl (urls : List String)
  | special (name : String) (data : Bytes)
  | none
  deriving DecidableEq

inductive ClipboardFormat where
  | text
  | rtf
  | html
  | imageRgba
  | imagePng
  | imageSvg
  | special
  deriving DecidableEq

namespace ClipboardFormat

def value : ClipboardFormat → Int
  | text => 0
  | rtf => 1
  | html => 2
  | imageRgba => 21
  | imagePng => 22
  | imageSvg => 23
  | special => 31

def all : List ClipboardFormat := [text, rtf, html, imageRgba, imagePng, imageSvg, special]

/-- `enum_value` of a received number. -/
def ofValue (n : Int) : EnumOrUnknown ClipboardFormat := all.find? (·.value = n)

@[simp] theorem ofValue_value (f : ClipboardFormat) : ofValue f.value = some f := by
  cases f <;> rfl

end ClipboardFormat

structure Compression where
  compress : Bytes → Bytes
  decompress : Bytes → Bytes

/-- `decompress(compress(x)) = x`. -/
def Compression.Lossless (z : Compression) : Prop := ∀ x, z.decompress (z.compress x) = x

section Proto
variable (z : Compression)

/-- What all encoders do with the bytes `data`: `plain` is what they send uncompressed. -/
def packed (data plain : Bytes) (cb : CamelliaRemote.Clipboard) : CamelliaRemote.Clipboard :=
  let compressed := z.compress data
  let compress := decide (compressed.length < data.length)
  { cb with compress, content := if compress then compressed else plain }

def plainToProto (s : String) (format : ClipboardFormat) : CamelliaRemote.Clipboard :=
  packed z (utf8 s) (utf8 s) { format := format.value }

def imageToProto (a : ImageData) : CamelliaRemote.Clipboard :=
  match a with
  | .rgba width height _ =>
    packed z a.bytes a.bytes
      { width := asI32 width, height := asI32 height, format := ClipboardFormat.imageRgba.value }
  | .png png => { content := png, format := ClipboardFormat.imagePng.value }
  | .svg _ => packed z a.bytes a.bytes { format := ClipboardFormat.imageSvg.value }

/-- Uncompressed, the name is sent in place of the data. -/
def specialToProto (d : Bytes) (s : String) : CamelliaRemote.Clipboard :=
  packed z d (utf8 s) { format := ClipboardFormat.special.value, specialName := s }

def clipboardDataToProto : ClipboardData → Option CamelliaRemote.Clipboard
  | .text s => some (plainToProto z s .text)
  | .rtf s => some (plainToProto z s .rtf)
  | .html s => some (plainToProto z s .html)
  | .image a => some (imageToProto z a)
  | .special s d => some (specialToProto z d s)
  | .fileUrl _ | .none => Option.none

def createMultiClipboards (vecData : List ClipboardData) : List CamelliaRemote.Clipboard :=
  vecData.filterMap (clipboardDataToProto z)

/-- `usize::try_from` of an `i32`. -/
def usizeTryFrom (n : Int) : Option Nat := if 0 ≤ n then some n.toNat else Option.none

/-- `checked_mul` of two `usize`. -/
def checkedMul (a b : Nat) : Option Nat := if a * b < 2 ^ 64 then some (a * b) else Option.none

def validRgbaDimensions (width height : Int) (dataLen : Nat) : Option (Nat × Nat) := do
  let width ← usizeTryFrom width
  let height ← usizeTryFrom height
  if width = 0 ∨ height = 0 then Option.none
  else
    let expectedLen ← checkedMul (← checkedMul width height) 4
    if dataLen = expectedLen then some (width, height) else Option.none

/-- The item that a message with these `data` stands for. -/
def fromContent (cb : CamelliaRemote.Clipboard) (data : Bytes) : Option ClipboardData :=
  match ClipboardFormat.ofValue cb.format with
  | some .text => (strFromUtf8 data).map .text
  | some .rtf => (strFromUtf8 data).map .rtf
  | some .html => (strFromUtf8 data).map .html
  | some .imageRgba =>
    (validRgbaDimensions cb.width cb.height data.length).map fun (width, height) =>
      .image (.rgba width height data)
  | some .imagePng => some (.image (.png data))
  | some .imageSvg => some (.image (.svg ((strFromUtf8 data).getD "")))
  | some .special => some (.special cb.specialName data)
  | Option.none => Option.none

def fromClipboard (cb : CamelliaRemote.Clipboard) : Option ClipboardData :=
  fromContent cb (if cb.compress then z.decompress cb.content else cb.content)

def fromMultiClipboards (multiClipboards : List CamelliaRemote.Clipboard) : List ClipboardData :=
  multiClipboards.filterMap (fromClipboard z)

/-- An item of a format that is sent, an image with dimensions that fit its bytes. -/
def ClipboardData.Sendable : ClipboardData → Prop
  | .image (.rgba width height bytes) =>
    0 < width ∧ width < 2 ^ 31 ∧ 0 < height ∧ height < 2 ^ 31 ∧
      bytes.length = 4 * width * height
  | .fileUrl _ | .none => False
  | _ => True

/-- What an item is read back as. -/
def received : ClipboardData → ClipboardData
  | .special name data =>
    .special name (if (z.compress data).length < data.length then data else utf8 name)
  | item => item

variable {z}

theorem fromClipboard_packed (lossless : z.Lossless) (data plain : Bytes)
    (cb : CamelliaRemote.Clipboard) :
    fromClipboard z (packed z data plain cb) =
      fromContent cb (if (z.compress data).length < data.length then data else plain) := by
  unfold fromClipboard packed
  by_cases shorter : (z.compress data).length < data.length
  · simp only [shorter, decide_true, if_true, lossless data]
    rfl
  · simp only [shorter, decide_false, if_false, Bool.false_eq_true]
    rfl

theorem strFromUtf8_utf8 (s : String) : strFromUtf8 (utf8 s) = some s :=
  strFromUtf8_eq_some.mpr rfl

theorem asI32_of_lt {n : Nat} (h : n < 2 ^ 31) : asI32 n = n := by
  unfold asI32
  exact Int.bmod_eq_of_le (by omega) (by omega)

theorem validRgbaDimensions_of {width height : Nat} (w : 0 < width) (w' : width < 2 ^ 31)
    (h : 0 < height) (h' : height < 2 ^ 31) :
    validRgbaDimensions (asI32 width) (asI32 height) (4 * width * height) =
      some (width, height) := by
  have area : width * height < 2 ^ 62 := by
    calc width * height ≤ width * 2 ^ 31 := Nat.mul_le_mul_left _ h'.le
      _ < 2 ^ 31 * 2 ^ 31 := Nat.mul_lt_mul_of_pos_right w' (by norm_num)
      _ = 2 ^ 62 := by norm_num
  have len : 4 * width * height = width * height * 4 := by ring
  have one : checkedMul width height = some (width * height) := if_pos (by omega)
  have two : checkedMul (width * height) 4 = some (width * height * 4) := if_pos (by omega)
  simp [validRgbaDimensions, usizeTryFrom, asI32_of_lt w', asI32_of_lt h', one, two, len,
    w.ne', h.ne']

theorem fromClipboard_rgba (lossless : z.Lossless) {width height : Nat} {bytes : Bytes}
    (sendable : (ClipboardData.image (.rgba width height bytes)).Sendable) :
    fromClipboard z (imageToProto z (.rgba width height bytes)) =
      some (.image (.rgba width height bytes)) := by
  obtain ⟨w, w', h, h', len⟩ := sendable
  have dimensions := validRgbaDimensions_of w w' h h'
  rw [← len] at dimensions
  simp only [imageToProto, ImageData.bytes, fromClipboard_packed lossless, ite_self, fromContent,
    ClipboardFormat.ofValue_value, dimensions, Option.map_some]

theorem fromClipboard_clipboardDataToProto (lossless : z.Lossless) {item : ClipboardData}
    (sendable : item.Sendable) :
    (clipboardDataToProto z item).bind (fromClipboard z) = some (received z item) := by
  cases item with
  | text s => simp [clipboardDataToProto, plainToProto, fromClipboard_packed lossless,
      fromContent, strFromUtf8_utf8, received]
  | rtf s => simp [clipboardDataToProto, plainToProto, fromClipboard_packed lossless,
      fromContent, strFromUtf8_utf8, received]
  | html s => simp [clipboardDataToProto, plainToProto, fromClipboard_packed lossless,
      fromContent, strFromUtf8_utf8, received]
  | image a =>
    cases a with
    | rgba width height bytes =>
      rw [clipboardDataToProto, Option.bind_some, fromClipboard_rgba lossless sendable]
      simp only [received]
    | png bytes => simp [clipboardDataToProto, imageToProto, fromClipboard, fromContent, received]
    | svg text => simp [clipboardDataToProto, imageToProto, ImageData.bytes,
        fromClipboard_packed lossless, fromContent, strFromUtf8_utf8, received]
  | fileUrl urls => exact sendable.elim
  | special name data => simp [clipboardDataToProto, specialToProto,
      fromClipboard_packed lossless, fromContent, received]
  | none => exact sendable.elim

theorem fromMultiClipboards_createMultiClipboards (lossless : z.Lossless)
    {items : List ClipboardData} (sendable : ∀ item ∈ items, item.Sendable) :
    fromMultiClipboards z (createMultiClipboards z items) = items.map (received z) := by
  rw [fromMultiClipboards, createMultiClipboards, List.filterMap_filterMap]
  induction items with
  | nil => rfl
  | cons item items ih =>
    have head := fromClipboard_clipboardDataToProto lossless
      (sendable item List.mem_cons_self)
    have rest := ih fun other mem => sendable other (List.mem_cons_of_mem _ mem)
    simp only [List.filterMap_cons, head, rest, List.map_cons]

theorem received_eq_self {name : String} {data : Bytes} :
    received z (.special name data) = .special name data ↔
      (z.compress data).length < data.length ∨ data = utf8 name := by
  simp only [received, ClipboardData.special.injEq, true_and]
  split
  · simp [*]
  · simp [*, eq_comm]

/-- **Contents survive where no special item is sent uncompressed**, unless its data is
its name: `special_to_proto` then sends the name. -/
theorem contents_survive_iff (z : Compression) (lossless : z.Lossless)
    (items : List ClipboardData) (sendable : ∀ item ∈ items, item.Sendable) :
    fromMultiClipboards z (createMultiClipboards z items) = items ↔
      ∀ name data, ClipboardData.special name data ∈ items →
        (z.compress data).length < data.length ∨ data = utf8 name := by
  rw [fromMultiClipboards_createMultiClipboards lossless sendable]
  have each : items.map (received z) = items ↔ ∀ item ∈ items, received z item = item := by
    simpa using List.map_inj_left (l := items) (f := received z) (g := id)
  rw [each]
  constructor
  · intro same name data mem
    rw [← received_eq_self]
    exact same _ mem
  · intro specials item mem
    cases item with
    | special name data => exact received_eq_self.mpr (specials name data mem)
    | _ => rfl

end Proto

/-- Shortens a hundred equal bytes and frames everything else. -/
def framed : Compression where
  compress x := if x = List.replicate 100 7 then [1] else 0 :: x
  decompress
    | 0 :: x => x
    | _ => List.replicate 100 7

theorem framed_lossless : framed.Lossless := by
  intro x
  by_cases same : x = List.replicate 100 7
  · subst same
    decide
  · simp only [framed, same, if_false]

def sampleItems : List ClipboardData :=
  [.text "hi", .image (.rgba 1 1 [1, 2, 3, 4]), .special "owner" (List.replicate 100 7)]

theorem contents_survive_compressed :
    fromMultiClipboards framed (createMultiClipboards framed sampleItems) = sampleItems := by
  refine (contents_survive_iff framed framed_lossless sampleItems ?_).mpr ?_
  · simp [sampleItems, ClipboardData.Sendable]
  · intro name data mem
    simp only [sampleItems, List.mem_cons, ClipboardData.special.injEq, reduceCtorEq, false_or,
      List.not_mem_nil, or_false] at mem
    obtain ⟨rfl, rfl⟩ := mem
    exact .inl (by decide)

/-- A special item with one byte is read back with the bytes of its name. -/
theorem special_read_back_as_name :
    framed.Lossless ∧ (ClipboardData.special "a" [1]).Sendable ∧
      fromMultiClipboards framed (createMultiClipboards framed [.special "a" [1]]) =
        [.special "a" (utf8 "a")] ∧
      utf8 "a" ≠ [1] := by
  refine ⟨framed_lossless, trivial, rfl, ?_⟩
  decide

end CamelliaRemote.Clipboard
