import CamelliaRemote.Clipboard.FileDescription
import CamelliaRemote.Clipboard.ServFiles
import CamelliaRemote.Lib.Keeps
import CamelliaRemote.Lib.LexicalPath

/-!
Pasting on macOS, `libs/clipboard/src/platform/unix/macos/paste_task.rs`. `PasteTask::start` gets
the directory of the paste and the descriptions that `parse_file_descriptors` made from a peer's
PDU. It makes directories and empty files at once; a file with contents is received block by block
under a download name and renamed when it is complete. `cancel` and the worker's error paths
remove the file that is being received.

The file system is whatever answers at each of the task's operations: `disk k` is what the `k`-th
one finds, so other programs may change anything in between. What the operations themselves decide
from the text of a path is modelled: no path with a NUL reaches the file system, a file is only
made, renamed to or removed at a path that ends with a name, and a directory is only made at such
a path, slashes after it aside, where nothing is yet.

Progress attributes and file times are left out; lengths of lists are below `2^31`.
-/

namespace CamelliaRemote.Clipboard.Paste
open Codec MachineInt UnixPath

abbrev Path := List Char

structure IoError where
  notFound : Bool
  text : String
  deriving DecidableEq, Repr

structure Disk where
  present : Path → Bool
  isDir : Path → Bool
  /-- Nothing but the text of the path stands against an operation on it. -/
  permits : Path → Bool
  error : Path → IoError
  /-- Why a write to the open file fails. -/
  writeError : Option IoError

inductive Effect where
  | createdDir (path : Path)
  | createdFile (path : Path)
  | renamedTo (path : Path)
  | removed (path : Path)
  deriving DecidableEq, Repr

def Effect.path : Effect → Path
  | .createdDir path | .createdFile path | .renamedTo path | .removed path => path

/-- A path that `open`, `rename` and `unlink` take for a file. -/
def FileEntry (path : Path) : Prop := '\x00' ∉ path ∧ Name (lastPiece path)

/-- A path that `mkdir` takes. -/
def DirEntry (path : Path) : Prop :=
  '\x00' ∉ path ∧ Name (lastPiece (path.rdropWhile (· = '/')))

instance {α : Type} [DecidableEq α] [PathChar α] (name : List α) : Decidable (Name name) :=
  decidable_of_iff (PathChar.sep ∉ name ∧ redundant name = false ∧
      name ≠ [PathChar.dot, PathChar.dot])
    ⟨fun h => ⟨h.1, h.2.1, h.2.2⟩, fun h => ⟨h.noSep, h.notRedundant, h.notParent⟩⟩

instance (path : Path) : Decidable (FileEntry path) := inferInstanceAs (Decidable (_ ∧ _))

instance (path : Path) : Decidable (DirEntry path) := inferInstanceAs (Decidable (_ ∧ _))

/-- `PasteTaskHandle` with its `PasteTaskProgress`. -/
structure PasteTaskHandle where
  listIndex : Int := -1
  offset : Nat := 0
  totalSize : Nat
  currentSize : Nat := 0
  downloadFileIndex : Int := -1
  downloadFileSize : Nat := 0
  downloadFilePath : Path := []
  /-- The `BufWriter` of the file that is received. -/
  fileHandle : Bool := false
  error : Option CliprdrError := none
  isCanceled : Bool := false
  targetDir : Path
  files : List FileDescription

/-- The handle at work: the operations so far, and the effects with the `target_dir` of the
task that had them. -/
structure Work where
  handle : PasteTaskHandle
  clock : Nat
  done : List (Path × Effect)
  sent : List (Int × ClipboardFile)

abbrev TaskM := StateM Work

variable (disk : Nat → Disk)

def look : TaskM Disk := modifyGet fun w => (disk w.clock, { w with clock := w.clock + 1 })

def record (effect : Effect) : TaskM Unit :=
  modifyGet fun w => ((), { w with done := w.done ++ [(w.handle.targetDir, effect)] })

def updateHandle (f : PasteTaskHandle → PasteTaskHandle) : TaskM Unit :=
  modifyGet fun w => ((), { w with handle := f w.handle })

def nulError : IoError := ⟨false, "file name contained an unexpected NUL byte"⟩

/-- `Path::exists`. -/
def pathExists (path : Path) : TaskM Bool := do
  let d ← look disk
  return '\x00' ∉ path && d.present path

/-- `Path::is_dir`. -/
def pathIsDir (path : Path) : TaskM Bool := do
  let d ← look disk
  return '\x00' ∉ path && d.isDir path

def mkdir (path : Path) : TaskM (Except IoError Unit) := do
  let d ← look disk
  if '\x00' ∈ path then return .error nulError
  else if DirEntry path ∧ d.present path = false ∧ d.permits path = true then
    record (.createdDir path)
    return .ok ()
  else return .error (d.error path)

/-- `DirBuilder::create_dir_all` on a path, given with its ancestors. -/
def createDirs : List Path → TaskM (Except IoError Unit)
  | [] => return .error ⟨false, "failed to create whole tree"⟩
  | path :: ancestors => do
    if path = [] then return .ok ()
    else
      match ← mkdir disk path with
      | .ok () => return .ok ()
      | .error e =>
        if e.notFound then
          match ← createDirs ancestors with
          | .error e => return .error e
          | .ok () =>
            match ← mkdir disk path with
            | .ok () => return .ok ()
            | .error e => if ← pathIsDir disk path then return .ok () else return .error e
        else if ← pathIsDir disk path then return .ok ()
        else return .error e

/-- `std::fs::create_dir_all`. -/
def createDirAll (path : Path) : TaskM (Except IoError Unit) := createDirs disk (ancestors path)

/-- `File::create`. -/
def createFile (path : Path) : TaskM (Except IoError Unit) := do
  let d ← look disk
  if FileEntry path ∧ d.permits path = true then
    record (.createdFile path)
    return .ok ()
  else return .error (d.error path)

/-- `std::fs::rename`. -/
def rename (_source path : Path) : TaskM Unit := do
  let d ← look disk
  if FileEntry path ∧ d.permits path = true then record (.renamedTo path) else return ()

/-- `std::fs::remove_file`. -/
def removeFile (path : Path) : TaskM Unit := do
  let d ← look disk
  if FileEntry path ∧ d.permits path = true then record (.removed path) else return ()

def digits (n : Nat) : List Char := Nat.toDigits 10 n

/-- `"{path} ({i})"`. -/
def numbered (path : Path) (i : Nat) : Path := path ++ (' ' :: '(' :: digits i ++ [')'])

/-- The `i`-th other name of a file. -/
def otherName (path : Path) (i : Nat) : Path :=
  match extension path with
  | some ext =>
    withFileName path ((fileStem path).getD [] ++ '-' :: digits i ++ '.' :: ext)
  | none => numbered path i

/-- The loop of `get_first_filename`: `n` names from the `i`-th on. -/
def firstFree (name : Nat → Path) : Nat → Nat → TaskM (Option Path)
  | 0, _ => return none
  | n + 1, i => do
    if ← pathExists disk (name i) then firstFree name n (i + 1) else return some (name i)

def getFirstFilename (path : Path) (kind : FileType) : TaskM (Option Path) := do
  if ← pathExists disk path then
    match kind with
    | .file => firstFree disk (otherName path) 9999998 1
    | .directory => firstFree disk (numbered path) 9999998 1
    | .symlink => return none
  else return some path

def getNewFilename (targetDir : Path) (fileDesc : FileDescription) : TaskM (Option Path) := do
  let renameToPath := push targetDir fileDesc.name
  if ← pathExists disk renameToPath then getFirstFilename disk renameToPath fileDesc.kind
  else return some renameToPath

def downloadExtension : List Char :=
  ['r', 'd', 'd', 'o', 'w', 'n', 'l', 'o', 'a', 'd']

def PasteTaskHandle.isFinished (h : PasteTaskHandle) : Bool :=
  h.isCanceled || h.error.isSome || (h.files.length : Int) ≤ h.listIndex

/-- `self.files.get(index as usize)`. -/
def PasteTaskHandle.file (h : PasteTaskHandle) (index : Int) : Option FileDescription :=
  if index < 0 then none else h.files[index.toNat]?

def onCancelled : TaskM Unit := do
  updateHandle fun h => { h with fileHandle := false }
  let w ← get
  removeFile disk w.handle.downloadFilePath

def onError (error : CliprdrError) : TaskM Unit := do
  updateHandle fun h => { h with error := some error }
  onCancelled disk

def onDone : TaskM Unit := do
  let w ← get
  if w.handle.fileHandle = false ∨ w.handle.downloadFileIndex = -1 then return ()
  else
    updateHandle fun h => { h with fileHandle := false }
    match w.handle.file w.handle.downloadFileIndex with
    | none => return ()
    | some fileDesc =>
      match ← getNewFilename disk w.handle.targetDir fileDesc with
      | none => return ()
      | some renameToPath =>
        rename disk w.handle.downloadFilePath renameToPath
        updateHandle fun h => { h with downloadFilePath := [], downloadFileIndex := -1 }

def cancelledOrDone : TaskM Unit := do
  let w ← get
  if w.handle.error.isSome then onCancelled disk else onDone disk

def onFinished : TaskM Unit := do
  cancelledOrDone disk
  updateHandle fun h =>
    if h.currentSize ≠ h.totalSize then
      { h with error := some (.invalidRequest "Failed to download all files") }
    else h

/-- A directory is made unless it exists. -/
def ensureDir (path : Path) : TaskM (Except IoError Unit) := do
  if ← pathExists disk path then return .ok () else createDirAll disk path

/-- `format!("{}.{}", path, DOWNLOAD_EXTENSION)`. -/
def downloadPath (path : Path) : Path := path ++ '.' :: downloadExtension

/-- `File::create` at the download path, and the writer for it. -/
def openDownload (file : FileDescription) (downloadFilePath : Path) :
    TaskM (Except CliprdrError Unit) := do
  match ← createFile disk downloadFilePath with
  | .ok () =>
    updateHandle fun h => { h with
      downloadFileIndex := h.listIndex
      downloadFileSize := file.size
      downloadFilePath
      fileHandle := true }
    return .ok ()
  | .error e =>
    updateHandle fun h => { h with
      error := some (.fileError (String.ofList downloadFilePath) e.text) }
    return .ok ()

def openNewWriter : TaskM (Except CliprdrError Unit) := do
  let w ← get
  match w.handle.file w.handle.listIndex with
  | none =>
    let index := w.handle.listIndex
    let count := w.handle.files.length
    return .error (.invalidRequest s!"Invalid file index: {index}, file count: {count}")
  | some file =>
    let originalFilePath := push w.handle.targetDir file.name
    match ← getFirstFilename disk (downloadPath originalFilePath) file.kind with
    | none =>
      return .error (.commonError
        ("Failed to get download file path: " ++ String.ofList originalFilePath))
    | some downloadFilePath =>
      match parent downloadFilePath with
      | none =>
        return .error (.commonError
          ("Failed to get parent of the download file path: " ++ String.ofList originalFilePath))
      | some downloadPathParent =>
        match ← ensureDir disk downloadPathParent with
        | .error e => return .error (.fileError (String.ofList downloadPathParent) e.text)
        | .ok () => openDownload disk file downloadFilePath

/-- The loop of `update_next` over the entries from the `i`-th on, up to the next file with
contents. -/
def nextFile : List FileDescription → Int → TaskM (Except CliprdrError Unit)
  | [], _ => return .ok ()
  | fileDesc :: rest, i => do
    match fileDesc.kind with
    | .file =>
      if fileDesc.size = 0 then
        let w ← get
        match ← getNewFilename disk w.handle.targetDir fileDesc with
        | some newFilePath => do
          let _ ← createFile disk newFilePath
          nextFile rest (i + 1)
        | none => nextFile rest (i + 1)
      else
        updateHandle fun h => { h with listIndex := i, offset := 0 }
        openNewWriter disk
    | .directory =>
      let w ← get
      let _ ← ensureDir disk (push w.handle.targetDir fileDesc.name)
      nextFile rest (i + 1)
    | .symlink => nextFile rest (i + 1)

/-- `on_done`, but not before the first file. -/
def doneUnlessStart : TaskM Unit := do
  let w ← get
  if w.handle.listIndex = -1 then return () else onDone disk

/-- The block with `size` bytes ends the file, or the file goes on. -/
def advance (size : Nat) : TaskM (Except CliprdrError Unit) := do
  let w ← get
  if w.handle.listIndex = -1 ∨
      w.handle.downloadFileSize ≤ (w.handle.offset + size) % 2 ^ 64 then
    doneUnlessStart disk
    nextFile disk (w.handle.files.drop (w.handle.listIndex + 1).toNat) (w.handle.listIndex + 1)
  else
    updateHandle fun h => { h with offset := (h.offset + size) % 2 ^ 64 }
    return .ok ()

def updateNext (size : Nat) : TaskM (Except CliprdrError Unit) := do
  let w ← get
  if w.handle.isFinished then return .ok ()
  else
    updateHandle fun h => { h with currentSize := (h.currentSize + size) % 2 ^ 64 }
    match ← advance disk size with
    | .error e => return .error e
    | .ok () =>
      updateHandle fun h =>
        if h.fileHandle then h
        else { h with listIndex := h.files.length, offset := 0, downloadFileSize := 0 }
      return .ok ()

def blockSize : Nat := 4 * 1024 * 1024

/-- The request for the next block of the file. -/
def contentsRequest (h : PasteTaskHandle) (file : FileDescription) : ClipboardFile :=
  let cbRequested := min blockSize ((file.size + 2 ^ 64 - h.offset) % 2 ^ 64)
  .fileContentsRequest h.listIndex h.listIndex 2 (asI32 h.offset) (asI32 (h.offset / 2 ^ 32))
    cbRequested false 0

def send (connId : Int) (request : ClipboardFile) : TaskM Unit :=
  modifyGet fun w => ((), { w with sent := w.sent ++ [(connId, request)] })

def sendFileContentsRequest : TaskM (Except CliprdrError Unit) := do
  let w ← get
  if w.handle.isFinished then return .ok ()
  else
    match w.handle.file w.handle.listIndex with
    | none =>
      let index := w.handle.listIndex
      return .error (.invalidRequest s!"Invalid file index: {index}")
    | some file =>
      send file.connId (contentsRequest w.handle file)
      return .ok ()

def handleFileContentsResponse (requestedData : Bytes) : TaskM (Except CliprdrError Unit) := do
  let w ← get
  let path := String.ofList w.handle.downloadFilePath
  if w.handle.fileHandle then
    let d ← look disk
    match d.writeError with
    | some e => return .error (.fileError path e.text)
    | none => updateNext disk requestedData.length
  else return .error (.fileError path "file handle is not opened")

structure PasteTask where
  handle : Option PasteTaskHandle := none
  retryCount : Nat := 0
  clock : Nat := 0
  done : List (Path × Effect) := []
  sent : List (Int × ClipboardFile) := []

structure FileContentsResponse where
  connId : Int
  msgFlags : Int
  streamId : Int
  requestedData : Bytes

namespace PasteTask

/-- The handle works on behalf of the task. -/
def work (t : PasteTask) (h : PasteTaskHandle) (c : TaskM Unit) : PasteTask :=
  let w := (c ⟨h, t.clock, t.done, t.sent⟩).2
  { t with handle := some w.handle, clock := w.clock, done := w.done, sent := w.sent }

def requestOrFail : TaskM Unit := do
  match ← sendFileContentsRequest with
  | .ok () => return ()
  | .error e => onError disk e

def begin : TaskM Unit := do
  let _ ← updateNext disk 0
  let w ← get
  if w.handle.isFinished then onFinished disk else requestOrFail disk

def start (t : PasteTask) (targetDir : Path) (files : List FileDescription) : PasteTask :=
  if (t.handle.map fun h => !h.isFinished).getD false then t
  else
    t.work { totalSize := (files.map (·.size)).sum % 2 ^ 64, targetDir, files } (begin disk)

def cancel (t : PasteTask) : PasteTask :=
  match t.handle with
  | none => t
  | some h => t.work { h with isCanceled := true } (onCancelled disk)

def recvRetryTimes : Nat := 3

/-- What the worker does once a response is handled. -/
def proceed (t : PasteTask) : PasteTask :=
  match t.handle with
  | none => t
  | some h =>
    if h.isFinished then { t with retryCount := 0 }.work h (onFinished disk)
    else t.work h (requestOrFail disk)

def handleOrFail (requestedData : Bytes) : TaskM Unit := do
  match ← handleFileContentsResponse disk requestedData with
  | .ok () => return ()
  | .error e => onError disk e

/-- The worker on a response. -/
def receive (t : PasteTask) (response : FileContentsResponse) : PasteTask :=
  match t.handle with
  | none => t
  | some h =>
    if h.isFinished ∨ response.streamId ≠ h.listIndex then t
    else if response.msgFlags ≠ 0x01 then
      let t := { t with retryCount := t.retryCount + 1 }
      let error := CliprdrError.invalidRequest <|
        s!"Failed to read file contents, stream id: {response.streamId}, " ++
          s!"msg_flags: {response.msgFlags}"
      let h := if recvRetryTimes < t.retryCount then { h with error := some error } else h
      { t with handle := some h }.proceed disk
    else
      match h.file response.streamId with
      | none => t
      | some file =>
        if file.connId ≠ response.connId then t
        else (t.work h (handleOrFail disk response.requestedData)).proceed disk

/-- The worker after a wait without a response; `overdue` is `RECEIVE_WAIT_TIMEOUT` passed. -/
def timeout (t : PasteTask) (overdue : Bool) : PasteTask :=
  match t.handle with
  | none => t
  | some h =>
    if h.isFinished = false ∧ overdue then
      let error := CliprdrError.invalidRequest "Failed to read file contents"
      { t with retryCount := 0 }.work { h with error := some error } (onFinished disk)
    else t

/-- `handle_format_data_response`; the path is the one the observer found. -/
def handleFormatDataResponse (t : PasteTask) (targetPath : Option Path) (connId : Int)
    (formatData : Bytes) : PasteTask :=
  match targetPath.bind parent with
  | none => t
  | some targetDir =>
    let found := '\x00' ∉ targetDir && (disk t.clock).present targetDir
    let t := { t with clock := t.clock + 1 }
    if found then
      match FileDescription.parseFileDescriptors formatData connId with
      | .error _ => t
      | .ok files => t.start disk targetDir files
    else t

end PasteTask

inductive Event where
  | formatData (targetPath : Option Path) (connId : Int) (formatData : Bytes)
  | fileContents (response : FileContentsResponse)
  | timeout (overdue : Bool)
  | cancel

def step (t : PasteTask) : Event → PasteTask
  | .formatData targetPath connId formatData =>
    t.handleFormatDataResponse disk targetPath connId formatData
  | .fileContents response => t.receive disk response
  | .timeout overdue => t.timeout disk overdue
  | .cancel => t.cancel disk

end CamelliaRemote.Clipboard.Paste
