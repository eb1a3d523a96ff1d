import CamelliaRemote.Clipboard.FileDescription
import CamelliaRemote.Lib.MachineInt
import CamelliaRemote.Lib.Runs

/-!
The progress of a paste, `libs/clipboard/src/platform/unix/macos/paste_task.rs`. The task of
`PasteTask` by what it counts, asks for and writes. Paths are left out: a step comes with what its
file operations come to, by the index of the entry. Sums and differences of `u64` wrap; where one
does, and where a branch is reached that the source marks unreachable, the task has a fault.
-/

namespace CamelliaRemote.Clipboard.Progress
open MachineInt

inductive Fault where
  | totalSize
  | currentSize
  | offset
  | downloadFileCurrentSize
  | cbRequested
  /-- No free name among the first 9999999. -/
  | getFirstFilename
  | onDone
  | sendFileContentsRequest
  | responseIndex
  | responseConnId
  deriving DecidableEq

/-- Which of its errors the task ends with. -/
inductive Failure where
  | invalidIndex
  | fileError
  | notOpened
  | msgFlags
  | timedOut
  | incomplete
  deriving DecidableEq

inductive Opening where
  | opened
  /-- There is no directory for the file. -/
  | refused
  /-- `File::create` fails. -/
  | failed
  deriving DecidableEq

inductive Found where
  | absent
  | directory
  | other
  deriving DecidableEq

/-- What the file operations of a step come to. -/
structure Disk where
  /-- `get_first_filename` finds a name. -/
  named : Nat → Bool
  /-- An empty file is made. -/
  created : Nat → Bool
  /-- What is at the path of a directory. -/
  found : Nat → Found
  /-- `create_dir_all` makes a directory. -/
  madeDir : Nat → Bool
  opening : Nat → Opening
  writes : Bool
  /-- A file is flushed and renamed. -/
  renamed : Nat → Bool

structure Request where
  connId : Int
  listIndex : Int
  offset : Nat
  cbRequested : Nat
  deriving DecidableEq

/-- A response, and the request it answers: by the number of its task, and its place there. -/
structure Response where
  connId : Int
  msgFlags : Int
  streamId : Int
  requestedData : Codec.Bytes
  answers : Option (Nat × Nat)
  deriving DecidableEq

/-- `PasteTaskHandle` with its `PasteTaskProgress`, and what it did. -/
structure Handle where
  number : Nat
  listIndex : Int := -1
  offset : Nat := 0
  totalSize : Nat
  currentSize : Nat := 0
  downloadFileIndex : Int := -1
  downloadFileSize : Nat := 0
  downloadFileCurrentSize : Nat := 0
  /-- What was written to the file. -/
  fileHandle : Option Codec.Bytes := none
  error : Option Failure := none
  isCanceled : Bool := false
  files : List FileDescription
  /-- The files that have their name. -/
  saved : List (Nat × Codec.Bytes) := []
  /-- The empty files and the directories that were made. -/
  created : List Nat := []
  /-- The directories that were there. -/
  existing : List Nat := []
  /-- The responses whose data was written, with the index of the file. -/
  taken : List (Nat × Response) := []
  sent : List Request := []
  faults : List Fault := []

structure PasteTask where
  handle : Option Handle := none
  retryCount : Nat := 0
  /-- The tasks that were started. -/
  started : Nat := 0

inductive Event where
  | start (files : List FileDescription) (disk : Disk)
  | cancel
  | receive (response : Response) (disk : Disk)
  /-- `overdue` is `RECEIVE_WAIT_TIMEOUT` passed. -/
  | timeout (overdue : Bool) (disk : Disk)

namespace Handle
variable (disk : Disk) (h : Handle)

def fault (fault : Fault) : Handle := { h with faults := h.faults ++ [fault] }

/-- The result of a sum, before it wraps. -/
def fits (what : Fault) (sum : Nat) : Handle := if sum < 2 ^ 64 then h else h.fault what

/-- `files.len() as i32`. -/
def count : Int := asI32 h.files.length

def isFinished : Bool := h.isCanceled || h.error.isSome || h.count ≤ h.listIndex

/-- `self.files.get(index as usize)`. -/
def file (index : Int) : Option FileDescription :=
  if index < 0 then none else h.files[index.toNat]?

def onCancelled : Handle := { h with fileHandle := none }

def onError (error : Failure) : Handle := { h with error := some error }.onCancelled

/-- `get_new_filename` and `rename` of a file that is complete. -/
def rename (i : Nat) (data : Codec.Bytes) : Handle :=
  if disk.named i then
    { h with
      downloadFileIndex := -1
      saved := if disk.renamed i then h.saved ++ [(i, data)] else h.saved }
  else h.fault .getFirstFilename

def onDone : Handle :=
  match h.fileHandle with
  | none => h
  | some data =>
    if h.downloadFileIndex = -1 then h
    else
      let closed := { h with fileHandle := none }
      match h.file h.downloadFileIndex with
      | none => closed.fault .onDone
      | some _ => closed.rename disk h.downloadFileIndex.toNat data

def cancelledOrDone : Handle := if h.error.isSome then h.onCancelled else h.onDone disk

/-- Fails a task that did not get all its bytes. -/
def checkTotal : Handle :=
  if h.currentSize ≠ h.totalSize then { h with error := some .incomplete } else h

def onFinished : Handle := (h.cancelledOrDone disk).checkTotal

/-- `get_new_filename` and `File::create` of an empty file. -/
def createEmpty (i : Nat) : Handle :=
  if disk.named i then
    if disk.created i then { h with created := h.created ++ [i] } else h
  else h.fault .getFirstFilename

/-- `create_dir_all`, unless the path exists. -/
def createDir (i : Nat) : Handle :=
  match disk.found i with
  | .absent => if disk.madeDir i then { h with created := h.created ++ [i] } else h
  | .directory => { h with existing := h.existing ++ [i] }
  | .other => h

def openNewWriter : Except Failure Unit × Handle :=
  match h.file h.listIndex with
  | none => (.error .invalidIndex, h)
  | some file =>
    let i := h.listIndex.toNat
    if disk.named i then
      match disk.opening i with
      | .opened =>
        (.ok (), { h with
          downloadFileIndex := h.listIndex
          downloadFileSize := file.size
          downloadFileCurrentSize := 0
          fileHandle := some [] })
      | .refused => (.error .fileError, h)
      | .failed => (.ok (), { h with error := some .fileError })
    else (.error .fileError, h.fault .getFirstFilename)

/-- The loop of `update_next` over the entries from the `i`-th on, up to the next file with
contents. -/
def nextFile : List FileDescription → Nat → Handle → Except Failure Unit × Handle
  | [], _, h => (.ok (), h)
  | fileDesc :: rest, i, h =>
    match fileDesc.kind with
    | .file =>
      if fileDesc.size = 0 then nextFile rest (i + 1) (h.createEmpty disk i)
      else { h with listIndex := i, offset := 0 }.openNewWriter disk
    | .directory => nextFile rest (i + 1) (h.createDir disk i)
    | .symlink => nextFile rest (i + 1) h

/-- The entries of the loop, from the `i`-th to the one before `files.len() as i32`. -/
def entriesFrom (i : Nat) : List FileDescription := (h.files.take h.count.toNat).drop i

/-- The file ends with the block, or it goes on. -/
def advance (size : Nat) : Except Failure Unit × Handle :=
  if h.listIndex = -1 then nextFile disk (h.entriesFrom 0) 0 h
  else
    let sum := h.offset + size
    let h := h.fits .offset sum
    if h.downloadFileSize ≤ sum % 2 ^ 64 then
      let i := (h.listIndex + 1).toNat
      nextFile disk (h.entriesFrom i) i (h.onDone disk)
    else
      let current := h.downloadFileCurrentSize + size
      (.ok (), { h.fits .downloadFileCurrentSize current with
        offset := sum % 2 ^ 64
        downloadFileCurrentSize := current % 2 ^ 64 })

/-- The task is at its end when no file was opened. -/
def endUnlessOpen : Handle :=
  match h.fileHandle with
  | some _ => h
  | none =>
    { h with
      listIndex := h.count
      offset := 0
      downloadFileSize := 0
      downloadFileCurrentSize := 0 }

def endAfter : Except Failure Unit × Handle → Except Failure Unit × Handle
  | (.error e, h) => (.error e, h)
  | (.ok (), h) => (.ok (), h.endUnlessOpen)

def updateNext (size : Nat) : Except Failure Unit × Handle :=
  if h.isFinished then (.ok (), h)
  else
    let sum := h.currentSize + size
    endAfter
      ({ h.fits .currentSize sum with currentSize := sum % 2 ^ 64 }.advance disk size)

def blockSize : Nat := 4 * 1024 * 1024

/-- The request for what is left of the file. -/
def request (file : FileDescription) : Request :=
  ⟨file.connId, h.listIndex, h.offset, min blockSize ((file.size + 2 ^ 64 - h.offset) % 2 ^ 64)⟩

def sendFileContentsRequest : Except Failure Unit × Handle :=
  if h.isFinished then (.ok (), h)
  else
    match h.file h.listIndex with
    | none => (.error .invalidIndex, h.fault .sendFileContentsRequest)
    | some file =>
      let sent := { h with sent := h.sent ++ [h.request file] }
      (.ok (), if file.size < h.offset then sent.fault .cbRequested else sent)

def requestOrFail : Handle :=
  match h.sendFileContentsRequest with
  | (.ok (), h) => h
  | (.error e, h) => h.onError e

/-- The response is written to the file. -/
def write (response : Response) (data : Codec.Bytes) : Handle :=
  { h with
    fileHandle := some (data ++ response.requestedData)
    taken := h.taken ++ [(h.listIndex.toNat, response)] }

def handleFileContentsResponse (response : Response) : Except Failure Unit × Handle :=
  match h.fileHandle with
  | none => (.error .notOpened, h)
  | some data =>
    if disk.writes then (h.write response data).updateNext disk response.requestedData.length
    else (.error .fileError, h)

def handleOrFail (response : Response) : Handle :=
  match h.handleFileContentsResponse disk response with
  | (.ok (), h) => h
  | (.error e, h) => h.onError e

/-- `on_finished`, or the next request. -/
def proceed : Handle := if h.isFinished then h.onFinished disk else h.requestOrFail

end Handle

namespace PasteTask
variable (t : PasteTask)

def isFinished : Bool := (t.handle.map Handle.isFinished).getD true

/-- What the worker does once a response is handled. -/
def proceed (disk : Disk) (h : Handle) : PasteTask :=
  { t with
    handle := some (h.proceed disk)
    retryCount := if h.isFinished then 0 else t.retryCount }

def newHandle (files : List FileDescription) : Handle :=
  let sum := (files.map (·.size)).sum
  Handle.fits { number := t.started, totalSize := sum % 2 ^ 64, files } .totalSize sum

def start (files : List FileDescription) (disk : Disk) : PasteTask :=
  if t.isFinished then
    let h := ((t.newHandle files).updateNext disk 0).2
    { t with handle := some (h.proceed disk), started := t.started + 1 }
  else t

def cancel : PasteTask :=
  { t with handle := t.handle.map fun h => { h with isCanceled := true }.onCancelled }

def recvRetryTimes : Nat := 3

/-- The worker on a response with an error. -/
def retry (h : Handle) (disk : Disk) : PasteTask :=
  let t := { t with retryCount := t.retryCount + 1 }
  t.proceed disk (if recvRetryTimes < t.retryCount then { h with error := some .msgFlags } else h)

/-- The worker on a response with data. -/
def handleData (h : Handle) (response : Response) (disk : Disk) : PasteTask :=
  match h.file response.streamId with
  | none => { t with handle := some (h.fault .responseIndex) }
  | some file =>
    if file.connId ≠ response.connId then { t with handle := some (h.fault .responseConnId) }
    else t.proceed disk (h.handleOrFail disk response)

/-- The worker on a response. -/
def receive (response : Response) (disk : Disk) : PasteTask :=
  match t.handle with
  | none => t
  | some h =>
    if h.isFinished ∨ response.streamId ≠ h.listIndex then t
    else if response.msgFlags ≠ 0x01 then t.retry h disk
    else t.handleData h response disk

/-- The worker after a wait without a response. -/
def timeout (overdue : Bool) (disk : Disk) : PasteTask :=
  match t.handle with
  | none => t
  | some h =>
    if h.isFinished = false ∧ overdue then
      { t with
        handle := some ({ h with error := some .timedOut }.onFinished disk)
        retryCount := 0 }
    else t

def step : Event → PasteTask
  | .start files disk => t.start files disk
  | .cancel => t.cancel
  | .receive response disk => t.receive response disk
  | .timeout overdue disk => t.timeout overdue disk

end PasteTask
end CamelliaRemote.Clipboard.Progress
