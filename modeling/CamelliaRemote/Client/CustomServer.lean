import CamelliaRemote.Lib.Codec
import CamelliaRemote.Lib.Lowercase
import Mathlib.Data.List.DropRight

/-!
The server in the name of the program, `custom_server.rs`. A name carries its server behind
`host=`, or as a signed configuration. The formats of the configuration are parameters. `none` is
a panic.
-/

namespace CamelliaRemote.Custom
open Codec Lowercase

structure CustomServer where
  key : List Char := []
  host : List Char := []
  api : List Char := []
  relay : List Char := []
  deriving DecidableEq

/-- base64, MessagePack and the signature. -/
structure Formats where
  decode : List Char → Except String Bytes
  fromSlice : Bytes → Except String CustomServer
  verify : Bytes → List Nat → Option Bytes

def embeddedKey : List Nat :=
  [170, 40, 203, 97, 24, 15, 43, 127, 167, 203, 125, 205, 221, 85, 85, 122, 73, 205, 87, 49,
    186, 250, 180, 164, 69, 85, 231, 122, 23, 211, 246, 131]

def getCustomServerFromConfigString (f : Formats) (s : List Char) : Except String CustomServer :=
  match f.decode s.reverse with
  | .error e => .error e
  | .ok data =>
    match f.fromSlice data with
    | .ok lic => .ok lic
    | .error _ =>
      match f.verify data embeddedKey with
      | some data => f.fromSlice data
      | none => .error "sign:verify failed"

/-- `str::split` by a string that is not empty; the number is what to skip of a match. -/
def splitStrFrom (sep : List Char) : Nat → List Char → List (List Char)
  | _, [] => [[]]
  | skip + 1, _ :: s => splitStrFrom sep skip s
  | 0, c :: s =>
    if sep <+: c :: s then [] :: splitStrFrom sep (sep.length - 1) s
    else (splitStrFrom sep 0 s).modifyHead (c :: ·)

def splitStr (sep s : List Char) : List (List Char) := splitStrFrom sep 0 s

def replace (s old new : List Char) : List Char := new.intercalate (splitStr old s)

/-- `char::is_whitespace`: the Unicode property `White_Space`. -/
def isWhitespace (c : Char) : Bool :=
  let n := c.toNat
  (9 ≤ n && n ≤ 13) || n == 0x20 || n == 0x85 || n == 0xa0 || n == 0x1680 ||
    (0x2000 ≤ n && n ≤ 0x200a) || n == 0x2028 || n == 0x2029 || n == 0x202f || n == 0x205f ||
    n == 0x3000

def trim (s : List Char) : List Char := (s.dropWhile isWhitespace).rdropWhile isWhitespace

def hostLabel : List Char := "host=".toList
def keyLabel : List Char := "key=".toList
def apiLabel : List Char := "api=".toList
def relayLabel : List Char := "relay=".toList

/-- The name without its ending, if that was given once or twice. -/
def stem (t : Tables) (s : List Char) : Option (List Char) :=
  if ".exe.exe".toList <:+ toLowercase t s then takeBytes s (byteLen s - 8)
  else if ".exe".toList <:+ toLowercase t s then takeBytes s (byteLen s - 4)
  else some s

/-- One part of the text sets the field that it begins with. -/
def setField (t : Tables) (server : CustomServer) (el : List Char) : CustomServer :=
  let lower := toLowercase t el
  let server := if hostLabel <+: lower then { server with host := el.drop 5 } else server
  let server := if keyLabel <+: lower then { server with key := el.drop 4 } else server
  let server := if apiLabel <+: lower then { server with api := el.drop 4 } else server
  if relayLabel <+: lower then { server with relay := el.drop 6 } else server

def parseFields (t : Tables) (stripped : List Char) : CustomServer :=
  (stripped.splitOn ',').foldl (setField t) {}

/-- The configuration in one of the parts of the name. -/
def searchConfig (f : Formats) (s : List Char) : Except String CustomServer :=
  let s := replace s "-licensed---".toList "--".toList
  let s := replace s "-licensed--".toList "--".toList
  let s := replace s "-licensed-".toList "--".toList
  let found := (splitStr "--".toList s).findSome? fun s =>
    match getCustomServerFromConfigString f (trim s) with
    | .ok lic => some lic
    | .error _ =>
      if '(' ∈ s then
        (s.splitOn '(').findSome? fun s =>
          (getCustomServerFromConfigString f (trim s)).toOption
      else none
  match found with
  | some lic => .ok lic
  | none => .error "Failed to parse"

def getCustomServerFromString (t : Tables) (f : Formats) (s : List Char) :
    Option (Except String CustomServer) :=
  match stem t s with
  | none => none
  | some s =>
    match find hostLabel (toLowercase t s) with
    | some offset => (dropBytes s offset).map fun stripped => .ok (parseFields t stripped)
    | none => some (searchConfig f s)

end CamelliaRemote.Custom
