import CamelliaRemote.Lib.UnixPath
import CamelliaRemote.Lib.Utf16

/-!
The sender's files, `libs/clipboard/src/platform/unix/local_file.rs`. `construct_file_list` walks
over the selected paths and gives one `LocalFile` for each entry, a directory before what is in
it; `as_bin` writes one of them as a file descriptor of 592 bytes, and `read_exact_at` reads from
it. Paths are bytes. The file system is a parameter and does not change during one call; the walk
has fuel, since nothing bounds the depth of a file system. `LocalFile::name` is only logged and is
left out.
-/

namespace CamelliaRemote.Clipboard
open Codec UnixPath

/-- The `CliprdrError`s of the Unix side. -/
inductive CliprdrError where
  | conversionFailure
  | fileError (path err : String)
  | invalidRequest (description : String)
  | commonError (description : String)
  deriving DecidableEq, Repr

def flagsFdAttributes : Nat := 0x04

def flagsFdSize : Nat := 0x40

def flagsFdLastWrite : Nat := 0x20

def flagsFdProgressui : Nat := 0x4000

def flagsFdUnixMode : Nat := 0x08

/-- 1601-01-01 is this many 100 ns before the epoch of Unix, as the source has it. -/
def ldapEpochDelta : Nat := 116444772610000000

/-- `std::fs::Metadata`; times are nanoseconds after the epoch. -/
structure Metadata where
  len : UInt64
  isDir : Bool
  isFile : Bool := !isDir
  readonly : Bool := false
  modified : Option Int := none
  mode : UInt32 := 0
  deriving DecidableEq, Repr

structure Fs where
  metadata : Bytes → Except String Metadata
  /-- The names of a directory, or what reading one of its entries fails with. -/
  readDir : Bytes → Except String (List (Except String Bytes))
  openFile : Bytes → Except String Unit
  /-- What an open reader of the path finds in it. -/
  content : Bytes → Except String Bytes

namespace Fs

/-- `Path::is_dir`. -/
def isDir (fs : Fs) (path : Bytes) : Bool :=
  match fs.metadata path with
  | .ok mt => mt.isDir
  | .error _ => false

/-- `Path::is_file`. -/
def isFile (fs : Fs) (path : Bytes) : Bool :=
  match fs.metadata path with
  | .ok mt => mt.isFile
  | .error _ => false

end Fs

structure LocalFile where
  relativeRoot : Bytes
  path : Bytes
  /-- The position of the open reader. -/
  handle : Option Nat := none
  offset : Nat := 0
  size : UInt64
  lastWriteTime : Int
  isDir : Bool
  perm : UInt32
  readOnly : Bool
  hidden : Bool
  system : Bool
  archive : Bool
  normal : Bool
  deriving DecidableEq, Repr

namespace LocalFile

def tryOpen (fs : Fs) (relativeRoot path : Bytes) : Except CliprdrError LocalFile :=
  match fs.metadata path with
  | .error e => .error (.fileError (fromUtf8Lossy path) e)
  | .ok mt =>
    let isDir := mt.isDir
    let readOnly := mt.readonly
    let system := false
    let hidden := (fromUtf8Lossy path).toList.head? = some '.'
    let archive := false
    .ok {
      relativeRoot, path
      size := mt.len
      lastWriteTime := mt.modified.getD 0
      isDir
      perm := mt.mode
      readOnly, hidden, system, archive
      normal := !(isDir || readOnly || system || hidden || archive) }

/-- The path below the root of the selection, as a text. -/
def relativePath (f : LocalFile) : String :=
  fromUtf8Lossy ((stripPrefix f.relativeRoot f.path).getD f.path)

def fileAttributes (f : LocalFile) : Nat :=
  (if f.readOnly then 0x1 else 0) ||| (if f.hidden then 0x2 else 0) |||
    (if f.system then 0x4 else 0) ||| (if f.isDir then 0x10 else 0) |||
    (if f.archive then 0x20 else 0) ||| (if f.normal then 0x80 else 0)

/-- A time before the epoch counts as the epoch; `as u64` cuts the nanoseconds. -/
def win32Time (f : LocalFile) : Nat :=
  f.lastWriteTime.toNat % 2 ^ 64 / 100 + ldapEpochDelta

def flags : Nat :=
  flagsFdSize ||| flagsFdLastWrite ||| flagsFdAttributes ||| flagsFdProgressui ||| flagsFdUnixMode

/-- Everything before the name. -/
def header (f : LocalFile) : Bytes :=
  toLittleEndian 4 flags ++ List.replicate 32 0 ++ toLittleEndian 4 f.fileAttributes ++
    List.replicate 12 0 ++ toLittleEndian 4 f.perm.toNat ++ toLittleEndian 8 f.win32Time ++
    toLittleEndian 4 (f.size.toNat / 2 ^ 32) ++ toLittleEndian 4 (f.size.toNat % 2 ^ 32)

/-- `none` is a panic: `520 - name_len` has no value for a longer name. -/
def asBin (f : LocalFile) : Option Bytes :=
  let name := Utf16.encode f.relativePath.toList
  if 520 < name.length then none
  else some (f.header ++ name ++ List.replicate (520 - name.length) 0)

def loadHandle (fs : Fs) (f : LocalFile) : Except CliprdrError LocalFile :=
  if !f.isDir && f.handle.isNone then
    match fs.openFile f.path, fs.content f.path with
    | .error e, _ | _, .error e => .error (.fileError (fromUtf8Lossy f.path) e)
    | .ok (), .ok _ => .ok { f with handle := some 0 }
  else .ok f

/-- `read_exact` of `len` bytes at the position of an open reader. -/
def readExact (fs : Fs) (f : LocalFile) (position len : Nat) : Except String Bytes :=
  match fs.content f.path with
  | .error e => .error e
  | .ok bytes =>
    if (bytes.drop position).length < len then .error "failed to fill whole buffer"
    else .ok ((bytes.drop position).take len)

/-- A failed read drops the reader, and so does one that reaches the end. -/
def readExactAt (fs : Fs) (f : LocalFile) (len offset : Nat) :
    LocalFile × Except CliprdrError Bytes :=
  match f.loadHandle fs with
  | .error e => (f, .error e)
  | .ok f =>
    match f.handle with
    | none => (f, .error (.fileError (fromUtf8Lossy f.path) "file handle not found"))
    | some position =>
      match f.readExact fs (if offset ≠ f.offset then offset else position) len with
      | .error e =>
        ({ f with handle := none, offset := 0 }, .error (.fileError (fromUtf8Lossy f.path) e))
      | .ok bytes =>
        let newOffset := offset + len
        if f.size.toNat ≤ newOffset then ({ f with handle := none, offset := 0 }, .ok bytes)
        else ({ f with handle := some newOffset, offset := newOffset }, .ok bytes)

end LocalFile

/-- `file_list` and `visited`. -/
structure Walk where
  fileList : List LocalFile := []
  visited : List Bytes := []

abbrev Walked := Option (Except CliprdrError Walk)

/-- The loop over the entries of a directory. -/
def walkEntries (dir : Bytes) (next : Bytes → Walk → Walked) :
    List (Except String Bytes) → Walk → Walked
  | [], walk => some (.ok walk)
  | .error e :: _, _ => some (.error (.fileError (fromUtf8Lossy dir) e))
  | .ok name :: entries, walk =>
    match next (join dir name) walk with
    | some (.ok walk) => walkEntries dir next entries walk
    | stopped => stopped

/-- `constr_file_lst`; `none` is out of fuel. -/
def constrFileLst (fs : Fs) (relativeRoot : Bytes) : Nat → Bytes → Walk → Walked
  | 0, _, _ => none
  | fuel + 1, path, walk =>
    if walk.visited.any fun p => components p = components path then some (.ok walk)
    else
      match LocalFile.tryOpen fs relativeRoot path with
      | .error e => some (.error e)
      | .ok file =>
        let walk : Walk := ⟨walk.fileList ++ [file], path :: walk.visited⟩
        match fs.metadata path with
        | .error e => some (.error (.fileError (fromUtf8Lossy path) e))
        | .ok mt =>
          if mt.isDir then
            match fs.readDir path with
            | .error e => some (.error (.fileError (fromUtf8Lossy path) e))
            | .ok dir => walkEntries path (constrFileLst fs relativeRoot fuel) dir walk
          else some (.ok walk)

/-- The loop over the selected paths. -/
def walkPaths (fs : Fs) (relativeRoot : Bytes) (fuel : Nat) : List Bytes → Walk → Walked
  | [], walk => some (.ok walk)
  | path :: paths, walk =>
    match constrFileLst fs relativeRoot fuel path walk with
    | some (.ok walk) => walkPaths fs relativeRoot fuel paths walk
    | stopped => stopped

def constructFileList (fs : Fs) (fuel : Nat) (paths : List Bytes) :
    Option (Except CliprdrError (List LocalFile)) :=
  match paths with
  | [] => some (.error (.invalidRequest "empty file list"))
  | first :: _ =>
    match parent first with
    | none => some (.error (.invalidRequest "empty parent"))
    | some relativeRoot =>
      (walkPaths fs relativeRoot fuel paths {}).map (·.map Walk.fileList)

/-- The descriptors one after another. -/
def descriptors : List LocalFile → Option Bytes
  | [] => some []
  | file :: files => do
    let first ← file.asBin
    let rest ← descriptors files
    return first ++ rest

/-- `build_file_list_pdu` of `serv_files.rs`; the count is cut to 32 bits. -/
def buildFileListPdu (files : List LocalFile) : Option Bytes := do
  let data ← descriptors files
  return toLittleEndian 4 (files.length % 2 ^ 32) ++ data

end CamelliaRemote.Clipboard
