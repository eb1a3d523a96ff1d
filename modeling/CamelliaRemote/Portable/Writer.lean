import CamelliaRemote.Lib.Codec

/-!
The archive writer of `libs/portable/generate.py`. `write_package` checks its entries and writes
them one after another. A path is a Python string that has a UTF-8 encoding: `encode("utf-8")`
raises for every other one. What the operating system does with the file is left out, and the
result is the bytes that are written.
-/

namespace CamelliaRemote.Portable
open Codec

def archiveMagic : Bytes := [67, 65, 77, 69, 76, 80, 48, 49]

def maxFileCount : Nat := 100000

def maxPathBytes : Nat := 32 * 1024

def maxFileBytes : Nat := 1024 * 1024 * 1024

def digestLength : Nat := 32

structure PackageEntry where
  path : String
  compressedData : Bytes
  uncompressedSize : Int
  sha256Digest : Bytes
  deriving DecidableEq, Repr

/-- The `ValueError`s of the writer, with what their messages name. -/
inductive PackageError where
  /-- "{label} is not a normalized portable path: {path!r}" -/
  | notNormalized (label path : String)
  /-- "portable archive has an invalid file count" -/
  | invalidFileCount
  /-- "portable archive path is duplicated: {path}" -/
  | duplicated (path : String)
  /-- "portable archive entry is invalid: {path}" -/
  | invalidEntry (path : String)
  /-- "portable executable is not included in the archive" -/
  | executableMissing
  /-- "{label} is too large for the portable archive" -/
  | tooLarge (label : String)
  deriving DecidableEq, Repr

abbrev Checked := Except PackageError

def asUint (value : Int) (length : Nat) (label : String) : Checked Bytes :=
  if 0 ≤ value ∧ value < 256 ^ length then .ok (toBigEndian length value.toNat)
  else .error (.tooLarge label)

def encodeArchivePath (path label : String) : Checked Bytes :=
  if utf8 path = [] ∨ maxPathBytes < (utf8 path).length ∨ '\\' ∈ path.toList ∨
      ':' ∈ path.toList ∨ '\x00' ∈ path.toList ∨
      ∃ component ∈ path.toList.splitOn '/', component ∈ [[], ['.'], ['.', '.']] then
    .error (.notNormalized label path)
  else .ok (utf8 path)

/-- The loop over the entries, with the set of paths seen. -/
def checkEntries : List PackageEntry → List String → Checked (List String)
  | [], paths => .ok paths
  | entry :: entries, paths => do
    let _ ← encodeArchivePath entry.path "portable archive path"
    if entry.path ∈ paths then .error (.duplicated entry.path)
    else if entry.uncompressedSize < 0 ∨ maxFileBytes < entry.uncompressedSize ∨
        maxFileBytes < entry.compressedData.length ∨
        entry.sha256Digest.length ≠ digestLength then .error (.invalidEntry entry.path)
    else checkEntries entries (entry.path :: paths)

def writeEntry (entry : PackageEntry) : Checked Bytes := do
  let pathBytes := utf8 entry.path
  let pathLength ← asUint pathBytes.length 4 "file path length"
  let compressedLength ← asUint entry.compressedData.length 8 "compressed file length"
  let uncompressedLength ← asUint entry.uncompressedSize 8 "uncompressed file length"
  return pathLength ++ compressedLength ++ uncompressedLength ++ entry.sha256Digest ++
    pathBytes ++ entry.compressedData

def writeEntries : List PackageEntry → Checked Bytes
  | [] => .ok []
  | entry :: entries => do
    let first ← writeEntry entry
    let rest ← writeEntries entries
    return first ++ rest

def writePackage (entries : List PackageEntry) (executable : String) : Checked Bytes := do
  let executableBytes ← encodeArchivePath executable "portable executable path"
  if entries = [] ∨ maxFileCount < entries.length then .error .invalidFileCount
  else do
    let paths ← checkEntries entries []
    if executable ∉ paths then .error .executableMissing
    else do
      let count ← asUint entries.length 4 "file count"
      let files ← writeEntries entries
      let executableLength ← asUint executableBytes.length 4 "executable path length"
      return archiveMagic ++ count ++ files ++ executableLength ++ executableBytes

end CamelliaRemote.Portable
