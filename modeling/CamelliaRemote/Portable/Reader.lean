import CamelliaRemote.Portable.Writer

/-!
The archive reader of `libs/portable/src/bin_reader.rs`. `BinaryReader::read` walks over the
embedded bytes with a cursor. A slice is never longer than `isize::MAX`, and `usize` has 64 bits.
`PathBuf` compares by components; no path that passes the first check has a Windows drive or
share, so the components are those of a path with `/` alone.
-/

namespace CamelliaRemote.Portable
open Codec

/-- A byte slice. -/
structure Slice where
  bytes : Bytes
  length_lt : bytes.length < 2 ^ 63

/-- `[u8; DIGEST_LENGTH]`. -/
abbrev Digest := { bytes : Bytes // bytes.length = digestLength }

structure PathBuf where
  value : String
  deriving DecidableEq, Repr

inductive Component where
  | rootDir
  | curDir
  | parentDir
  | normal (name : List Char)
  deriving DecidableEq, Repr

/-- A piece between separators after the first one. -/
def innerComponent : List Char → Option Component
  | [] => none
  | ['.'] => none
  | ['.', '.'] => some .parentDir
  | name => some (.normal name)

def PathBuf.components (path : PathBuf) : List Component :=
  match path.value.toList.splitOn '/' with
  | [] => []
  | first :: rest =>
    (match first with
      | [] => if rest = [] then [] else [.rootDir]
      | ['.'] => [.curDir]
      | ['.', '.'] => [.parentDir]
      | name => [Component.normal name]) ++ rest.filterMap innerComponent

def PathBuf.isRelative (path : PathBuf) : Bool := path.components.head? != some .rootDir

def Component.isNormal : Component → Bool
  | .normal _ => true
  | .rootDir | .curDir | .parentDir => false

structure BinaryData where
  compressed : Bytes
  sha256Digest : Digest
  uncompressedLength : Nat
  path : PathBuf
  deriving DecidableEq

structure BinaryReader where
  files : List BinaryData
  exe : PathBuf
  deriving DecidableEq

abbrev Archive := Reader String

def takeBytes (data : Bytes) (length : Nat) : Archive Bytes := fun cursor =>
  if 2 ^ 64 ≤ cursor + length then .error "portable archive offset overflow"
  else if cursor + length ≤ data.length then
    .ok ((data.drop cursor).take length, cursor + length)
  else .error "portable archive is truncated"

def readU32 (data : Bytes) : Archive Nat := do return ofBigEndian (← takeBytes data 4)

def readU64 (data : Bytes) : Archive Nat := do return ofBigEndian (← takeBytes data 8)

def parseArchivePath (raw : Bytes) (label : String) : Except String PathBuf :=
  if raw = [] ∨ maxPathBytes < raw.length then .error s!"{label} has an invalid length"
  else
    match strFromUtf8 raw with
    | none => .error s!"{label} is not valid UTF-8"
    | some value =>
      if '\\' ∈ value.toList ∨ ':' ∈ value.toList ∨ '\x00' ∈ value.toList ∨
          ∃ component ∈ value.toList.splitOn '/',
            component = [] ∨ component = ['.'] ∨ component = ['.', '.'] then
        .error s!"{label} is not a normalized path"
      else
        let path : PathBuf := ⟨value⟩
        if !path.isRelative || !path.components.all Component.isNormal then
          .error s!"{label} must be a relative path"
        else .ok path

/-- `HashSet::contains` on paths. -/
def containsPath (paths : List PathBuf) (path : PathBuf) : Bool :=
  paths.any fun p => p.components = path.components

def readDigest (data : Bytes) : Archive Digest := do
  let bytes ← takeBytes data digestLength
  if h : bytes.length = digestLength then return ⟨bytes, h⟩
  else throw "portable archive checksum is invalid"

def readPath (data : Bytes) (length : Nat) (label : String) : Archive PathBuf := do
  match parseArchivePath (← takeBytes data length) label with
  | .ok path => return path
  | .error e => throw e

/-- One turn of the loop over the files, with the paths read so far. -/
def readFile (data : Bytes) (paths : List PathBuf) : Archive BinaryData := do
  let pathLength ← readU32 data
  let compressedLength ← readU64 data
  let uncompressedLength ← readU64 data
  failIf (maxFileBytes < compressedLength ∨ maxFileBytes < uncompressedLength)
    "portable archive file exceeds the size limit"
  let sha256Digest ← readDigest data
  let path ← readPath data pathLength "archive path"
  failIf (containsPath paths path) s!"portable archive contains a duplicate path: {path.value}"
  let compressed ← takeBytes data compressedLength
  return { compressed, sha256Digest, uncompressedLength, path }

def readFiles (data : Bytes) : Nat → List PathBuf → Archive (List BinaryData)
  | 0, _ => return []
  | n + 1, paths => do
    let file ← readFile data paths
    let files ← readFiles data n (file.path :: paths)
    return file :: files

/-- Everything up to the last path. -/
def readParts (data : Bytes) : Archive BinaryReader := do
  let magic ← takeBytes data archiveMagic.length
  failIf (magic ≠ archiveMagic) "portable archive has an invalid format marker"
  let fileCount ← readU32 data
  failIf (fileCount = 0 ∨ maxFileCount < fileCount) "portable archive has an invalid file count"
  let files ← readFiles data fileCount []
  let executableLength ← readU32 data
  let exe ← readPath data executableLength "executable path"
  return { files, exe }

def readArchive (data : Bytes) : Archive BinaryReader := do
  let reader ← readParts data
  let cursor ← get
  failIf (cursor ≠ data.length) "portable archive contains trailing data"
  failIf (!containsPath (reader.files.map (·.path)) reader.exe)
    "portable executable is not present in the archive"
  return reader

/-- `BinaryReader::read`. -/
def read (data : Slice) : Except String BinaryReader :=
  (readArchive data.bytes 0).map Prod.fst

end CamelliaRemote.Portable
