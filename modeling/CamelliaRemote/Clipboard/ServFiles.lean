import CamelliaRemote.Clipboard.LocalFile
import CamelliaRemote.Lib.MachineInt

/-!
Serving the copied files, `libs/clipboard/src/platform/unix/serv_files.rs`. `CLIP_FILES` is the
one list of copied files of the process. `sync_files` replaces it, and every peer's requests read
from it. A request answers with a list of results: the record for the audit, if there is one, and
the contents.
-/

namespace CamelliaRemote.Clipboard
open Codec MachineInt

/-- `ClipboardFile` of `libs/clipboard/src/lib.rs`. -/
inductive ClipboardFile where
  | notifyCallback (type title text : String)
  | monitorReady
  | formatList (formatList : List (Int × String))
  | formatListResponse (msgFlags : Int)
  | formatDataRequest (requestedFormatId : Int)
  | formatDataResponse (msgFlags : Int) (formatData : Bytes)
  | fileContentsRequest (streamId listIndex dwFlags nPositionLow nPositionHigh cbRequested : Int)
      (haveClipDataId : Bool) (clipDataId : Int)
  | fileContentsResponse (msgFlags streamId : Int) (requestedData : Bytes)
  | tryEmpty
  | files (files : List (String × UInt64))
  deriving DecidableEq, Repr

inductive FileContentsRequest where
  | size (streamId : Int) (fileIdx : Nat)
  | range (streamId : Int) (fileIdx offset length : Nat)
  deriving DecidableEq, Repr

/-- The request in a message, as `read_file_contents` decodes it. -/
def FileContentsRequest.decode (streamId listIndex dwFlags nPositionLow nPositionHigh
    cbRequested : Int) : Except CliprdrError FileContentsRequest :=
  if dwFlags = 0x1 then .ok (.size streamId (asU64 listIndex))
  else if dwFlags = 0x2 then
    let offset := (asU64 nPositionHigh <<< 32) % 2 ^ 64 ||| asU64 nPositionLow
    let length := asU64 cbRequested
    .ok (.range streamId (asU64 listIndex) offset length)
  else .error (.invalidRequest s!"got invalid FileContentsRequest, dw_flats: {dwFlags}")

structure FileSig where
  size : UInt64 := 0
  mtime : Option Int := none
  isDir : Bool := false
  deriving DecidableEq, Repr

def fingerprint (fs : Fs) (files : List String) : List FileSig :=
  files.map fun s =>
    match fs.metadata (utf8 s) with
    | .ok mt => { size := mt.len, mtime := mt.modified, isDir := mt.isDir }
    | .error _ => {}

def usizeMax : Nat := 2 ^ 64 - 1

structure ClipFiles where
  files : List String := []
  sigs : List FileSig := []
  fileList : List LocalFile := []
  firstFileIndex : Nat := 0
  filesPdu : Bytes := []

namespace ClipFiles

def clear (_ : ClipFiles) : ClipFiles :=
  { files := [], sigs := [], fileList := [], firstFileIndex := usizeMax, filesPdu := [] }

/-- The first entry of the list that is no directory now. -/
def firstFile (fs : Fs) (fileList : List LocalFile) : Nat :=
  (fileList.findIdx? fun f => !fs.isDir f.path).getD usizeMax

def withFiles (s : ClipFiles) (fs : Fs) (files : List String) (sigs : List FileSig)
    (fileList : List LocalFile) : ClipFiles :=
  { s with fileList, firstFileIndex := firstFile fs fileList, files, sigs }

inductive SyncEnd where
  | ok
  | error (e : CliprdrError)
  | panicked
  deriving DecidableEq, Repr

/-- `sync_files`: nothing is done for the same files without a directory. A panic of
`build_file_list_pdu` leaves the new list with the old bytes. `none` is out of fuel. -/
def sync (fs : Fs) (fuel : Nat) (files : List String) (s : ClipFiles) :
    Option (ClipFiles × SyncEnd) :=
  let current := fingerprint fs files
  if s.files = files && s.sigs = current && !current.any FileSig.isDir then some (s, .ok)
  else
    match constructFileList fs fuel (files.map utf8) with
    | none => none
    | some (.error e) => some (s, .error e)
    | some (.ok fileList) =>
      let s := s.withFiles fs files current fileList
      match buildFileListPdu fileList with
      | none => some (s, .panicked)
      | some pdu => some ({ s with filesPdu := pdu }, .ok)

def filesForAudit (fs : Fs) (s : ClipFiles) : List (String × UInt64) :=
  (s.fileList.filter fun f => fs.isFile f.path).map fun f => (fromUtf8Lossy f.path, f.size)

def getFilesForAudit (fs : Fs) (s : ClipFiles) : FileContentsRequest → Option ClipboardFile
  | .size _ _ => none
  | .range _ fileIdx offset _ =>
    if fileIdx = s.firstFileIndex ∧ offset = 0 then
      if (s.filesForAudit fs).isEmpty then none else some (.files (s.filesForAudit fs))
    else none

def invalidIndex (fileIdx : Nat) (connId : Int) : CliprdrError :=
  .invalidRequest s!"invalid file index {fileIdx} requested from conn: {connId}"

/-- The next entries up to the first file, which is opened ahead of its request. -/
def reloadNext (fs : Fs) : List LocalFile → Except CliprdrError (List LocalFile)
  | [] => .ok []
  | f :: files =>
    if f.isDir then (reloadNext fs files).map (f :: ·)
    else (f.loadHandle fs).map (· :: files)

/-- A response, with the next file opened; an error there replaces the response. -/
def respond (fs : Fs) (s : ClipFiles) (fileIdx : Nat) (response : ClipboardFile) :
    ClipFiles × Except CliprdrError ClipboardFile :=
  match reloadNext fs (s.fileList.drop (fileIdx + 1)) with
  | .error e => (s, .error e)
  | .ok next => ({ s with fileList := s.fileList.take (fileIdx + 1) ++ next }, .ok response)

/-- `serve_file_contents`; `none` is the panic of a buffer without a size. -/
def serveFileContents (fs : Fs) (connId : Int) (s : ClipFiles) :
    FileContentsRequest → Option (ClipFiles × Except CliprdrError ClipboardFile)
  | .size streamId fileIdx =>
    match s.fileList[fileIdx]? with
    | none => some (s, .error (invalidIndex fileIdx connId))
    | some file =>
      some (s.respond fs fileIdx
        (.fileContentsResponse 0x1 streamId (toLittleEndian 8 file.size.toNat)))
  | .range streamId fileIdx offset length =>
    match s.fileList[fileIdx]? with
    | none => some (s, .error (invalidIndex fileIdx connId))
    | some file =>
      if file.size.toNat < offset then
        some (s, .error
          (.invalidRequest s!"invalid reading offset requested from conn: {connId}"))
      else
        let readSize :=
          if file.size.toNat < (offset + length) % 2 ^ 64 then file.size.toNat - offset else length
        if 2 ^ 63 ≤ readSize then none
        else
          let (file, result) := file.readExactAt fs readSize offset
          let s := { s with fileList := s.fileList.set fileIdx file }
          match result with
          | .error e => some (s, .error e)
          | .ok buf => some (s.respond fs fileIdx (.fileContentsResponse 0x1 streamId buf))

/-- `read_file_contents`. -/
def readFileContents (fs : Fs) (connId : Int) (s : ClipFiles)
    (streamId listIndex dwFlags nPositionLow nPositionHigh cbRequested : Int) :
    Option (ClipFiles × List (Except CliprdrError ClipboardFile)) :=
  match FileContentsRequest.decode streamId listIndex dwFlags nPositionLow nPositionHigh
      cbRequested with
  | .error e => some (s, [.error e])
  | .ok request =>
    let audit := s.getFilesForAudit fs request
    match s.serveFileContents fs connId request with
    | none => none
    | some (s, result) => some (s, (audit.map Except.ok).toList ++ [result])

end ClipFiles

end CamelliaRemote.Clipboard
