import CamelliaRemote.Clipboard.LocalFile

/-!
The receiver's descriptions, `libs/clipboard/src/platform/unix/filetype.rs`.
`parse_file_descriptors` reads the list that a peer sends. Its length is checked before anything
of it is read, so no read of a descriptor runs past the end.
-/

namespace CamelliaRemote.Clipboard
open Codec UnixPath

inductive FileType where
  | file
  | directory
  | symlink
  deriving DecidableEq, Repr

def permRead : Nat := 0o444

def permRw : Nat := 0o644

def permSelfRo : Nat := 0o400

def permRwx : Nat := 0o755

/-- The name is a `PathBuf` made from a string; times are nanoseconds after the epoch. -/
structure FileDescription where
  connId : Int
  name : List Char
  kind : FileType
  atime : Nat
  lastModified : Nat
  lastMetadataChanged : Nat
  creationTime : Nat
  size : Nat
  perm : Nat
  deriving DecidableEq, Repr

namespace FileDescription

/-- The number in the `len` bytes from `at`. -/
def getLe (bytes : Bytes) (start len : Nat) : Nat := ofLittleEndian ((bytes.drop start).take len)

/-- `str::trim_end_matches('\0')`. -/
def trimEndNul (s : List Char) : List Char := s.rdropWhile (· = '\x00')

def unixMode (flags attributes perm : Nat) : Nat :=
  if flags &&& flagsFdUnixMode ≠ 0 then perm
  else if attributes = 0x80 then permRwx
  else if attributes &&& 0x01 ≠ 0 then permRead
  else if attributes &&& 0x02 ≠ 0 then permSelfRo
  else if attributes &&& 0x10 ≠ 0 then permRwx
  else permRw

def writeTime (flags lastWriteTime : Nat) : Nat :=
  if flags &&& flagsFdLastWrite ≠ 0 ∧ ldapEpochDelta ≤ lastWriteTime then
    (lastWriteTime - ldapEpochDelta) * 100 % 2 ^ 64
  else 0

/-- One descriptor of 592 bytes. -/
def parseFileDescriptor (bytes : Bytes) (connId : Int) : Except CliprdrError FileDescription :=
  let flags := getLe bytes 0 4
  let attributes := getLe bytes 36 4
  let perm := getLe bytes 52 4 % 2 ^ 16
  let lastWriteTime := getLe bytes 56 8
  let fileSizeHigh := getLe bytes 64 4
  let fileSizeLow := getLe bytes 68 4
  match Utf16.decode ((bytes.drop 72).take 520) with
  | none => .error .conversionFailure
  | some wstr =>
    if flags &&& flagsFdAttributes = 0 then
      .error (.invalidRequest "file description must have valid attributes")
    else
      let lastModified := writeTime flags lastWriteTime
      .ok {
        connId
        name := trimEndNul (wstr.map fun c => if c = '\\' then '/' else c)
        kind := if attributes &&& 0x10 ≠ 0 then .directory else .file
        atime := lastModified
        lastModified
        lastMetadataChanged := lastModified
        creationTime := lastModified
        size := fileSizeHigh * 2 ^ 32 + fileSizeLow
        perm := unixMode flags attributes perm }

/-- `count` descriptors. -/
def parseMany (connId : Int) : Nat → Bytes → Except CliprdrError (List FileDescription)
  | 0, _ => .ok []
  | count + 1, data => do
    let desc ← parseFileDescriptor (data.take 592) connId
    let descs ← parseMany connId count (data.drop 592)
    return desc :: descs

def parseFileDescriptors (pdu : Bytes) (connId : Int) :
    Except CliprdrError (List FileDescription) :=
  if pdu.length < 4 then
    .error (.invalidRequest "file descriptor request with infficient length")
  else
    let count := getLe pdu 0 4
    let data := pdu.drop 4
    if data.length = 0 ∧ count = 0 then .ok []
    else if data.length ≠ 592 * count then
      .error (.invalidRequest "file descriptor request with invalid length")
    else parseMany connId count data

end FileDescription

end CamelliaRemote.Clipboard
