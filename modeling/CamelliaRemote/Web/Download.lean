import CamelliaRemote.Lib.Runs
import CamelliaRemote.Lib.TreeMaps
import CamelliaRemote.Web.Session

/-!
Downloads of a web session, `flutter/web/js/src/runtime/session.ts`. A download is a job of
several files. Their blocks arrive one after another, and a file is saved when a block of another
file arrives or the peer is done. The jobs are numbered in the order of their making, for timers
and `completeDownloadJob` hold on to a job when the map has lost it. What `fzstd.decompress` makes
of the data is a parameter, and whether the browser saves a file is part of the event. Uploads are
left out.
-/

namespace CamelliaRemote.Web
open Codec
open Std (ExtTreeMap)

inductive DownloadMessage where
  | send (id : Int) (path : String) (includeHidden : Bool) (fileNum : Int)
  | sendConfirm (id fileNum : Int) (offsetBlk : Nat)
  | cancel (id : Int)
  deriving DecidableEq

/-- An entry of a directory, as `normalizeRemoteFileEntry` leaves it. -/
structure FileEntryInfo where
  entryType : Int := 4
  name : String
  size : Nat
  modifiedTime : Nat := 0
  isHidden : Bool := false
  deriving DecidableEq, Repr

structure DownloadJob where
  id : Int
  remotePath : String
  files : List FileEntryInfo := []
  currentFileNum : Int := -1
  chunks : List Bytes := []
  receivedBytes : Nat := 0
  totalSize : Nat := 0
  cancelled : Bool := false
  /-- The file that the timer asks for again. -/
  confirmRetryTimer : Option Int := none
  deriving DecidableEq

/-- What the session tells the application. -/
inductive DownloadReport where
  | updateFolderFiles (id : Int) (numEntries totalSize : Nat)
  | fileDir (id : Int) (path : String) (entries : List FileEntryInfo)
  | jobProgress (id fileNum : Int) (finishedSize : Nat)
  | jobDone (job : Option Nat) (id fileNum : Int)
  | jobError (id : Option Int) (fileNum : Option Int) (err : String)
  deriving DecidableEq

/-- A file that the browser was given to save. -/
structure SavedFile where
  job : Nat
  fileNum : Int
  name : String
  content : Bytes
  deriving DecidableEq

/-- A call of `completeDownloadJob` at its `await`; `saved` unless the file could not be. -/
structure Completing where
  id : Int
  reportedFileNum : Int
  job : Nat
  saved : Bool
  deriving DecidableEq

structure Downloads where
  session : WebSession := {}
  jobs : List DownloadJob := []
  downloadJobs : ExtTreeMap Int Nat := ∅
  completing : List Completing := []
  saved : List SavedFile := []
  reports : List DownloadReport := []

inductive DownloadEvent where
  | session (e : SessionEvent)
  | requestDownload (id : Int) (path : String) (includeHidden : Bool) (fileNum : Int)
  | dir (id : Int) (path : String) (entries : List FileEntryInfo)
  /-- A digest of a file to be sent. -/
  | fileDigest (id fileNum : Int)
  /-- A block; the browser saves what it completes, or fails to. -/
  | fileBlock (id fileNum : Int) (data : Bytes) (compressed saves : Bool)
  | fileDone (id fileNum : Int) (saves : Bool)
  /-- `completeDownloadJob` goes on. -/
  | complete
  | fileError (id : Option Int) (err : String)
  | cancelJob (id : Int)
  /-- The timer of `scheduleDownloadConfirmRetry`. -/
  | retry (job : Nat)

/-- What `trim` of JavaScript takes off. -/
def jsSpace (c : Char) : Bool :=
  let n := c.toNat
  (9 ≤ n && n ≤ 13) || n = 0x20 || n = 0xa0 || n = 0x1680 || (0x2000 ≤ n && n ≤ 0x200a) ||
    n = 0x2028 || n = 0x2029 || n = 0x202f || n = 0x205f || n = 0x3000 || n = 0xfeff

def jsTrim (s : String) : String :=
  String.ofList (((s.toList.dropWhile jsSpace).reverse.dropWhile jsSpace).reverse)

def isSlash (c : Char) : Bool := c = '/' || c = '\\'

/-- A character that no saved name may have. -/
def unsafeInName (c : Char) : Bool :=
  c ∈ ['<', '>', ':', '"', '/', '\\', '|', '?', '*'] || c.toNat ≤ 0x1f

def sanitizeFileName (value : String) : String :=
  let trimmed := jsTrim value
  if trimmed.isEmpty then "download.bin"
  else
    let normalized := trimmed.toList.dropWhile isSlash
    let safe := normalized.map fun c => if isSlash c then '_' else c
    let cleaned := String.ofList (safe.map fun c => if unsafeInName c then '_' else c)
    if cleaned.isEmpty then "download.bin" else cleaned

/-- The part of a path after its last slash, or the path. -/
def remoteBaseName (remotePath : String) : String :=
  let normalized := remotePath.toList.map fun c => if c = '\\' then '/' else c
  let base := String.ofList (normalized.reverse.takeWhile (· ≠ '/')).reverse
  if base.isEmpty then remotePath else base

def DownloadJob.entry (job : DownloadJob) (fileNum : Int) : Option FileEntryInfo :=
  if 0 ≤ fileNum then job.files[fileNum.toNat]? else none

def DownloadJob.nameOf (job : DownloadJob) (fileNum : Int) : String :=
  let baseName :=
    match job.entry fileNum with
    | some entry =>
      if (jsTrim entry.name).isEmpty then remoteBaseName job.remotePath else entry.name
    | none => remoteBaseName job.remotePath
  sanitizeFileName (if baseName.isEmpty then job.remotePath else baseName)

namespace Downloads

variable (setup : Setup) (encode : DownloadMessage → Bytes) (decompress : Bytes → Option Bytes)
  (d : Downloads)

def sendMessage (message : DownloadMessage) : Downloads :=
  { d with session := d.session.sendMessage .application (encode message) }

def emit (report : DownloadReport) : Downloads := { d with reports := d.reports ++ [report] }

def modify (j : Nat) (f : DownloadJob → DownloadJob) : Downloads :=
  { d with jobs := d.jobs.modify j f }

def delete (id : Int) : Downloads := { d with downloadJobs := d.downloadJobs.erase id }

def clearDownloadConfirmRetry (j : Nat) : Downloads :=
  d.modify j fun job => { job with confirmRetryTimer := none }

def scheduleDownloadConfirmRetry (j : Nat) (fileNum : Int) : Downloads :=
  d.modify j fun job =>
    if job.cancelled || job.currentFileNum = fileNum then job
    else { job with confirmRetryTimer := some fileNum }

def retry (j : Nat) : Downloads :=
  match d.jobs[j]? with
  | none => d
  | some job =>
    match job.confirmRetryTimer with
    | none => d
    | some fileNum =>
      if job.cancelled || job.currentFileNum = fileNum || !d.downloadJobs.contains job.id then
        d.clearDownloadConfirmRetry j
      else d.sendMessage encode (.sendConfirm job.id fileNum 0)

def requestDownload (id : Int) (path : String) (includeHidden : Bool) (fileNum : Int) :
    Downloads :=
  if !d.session.proto || path.isEmpty then d
  else
    let requested : Downloads := { d with
      jobs := d.jobs ++ [{ id, remotePath := path }]
      downloadJobs := d.downloadJobs.insert id d.jobs.length }
    requested.sendMessage encode (.send id path includeHidden fileNum)

/-- `handleFileResponse` with a directory. -/
def dir (id : Int) (path : String) (entries : List FileEntryInfo) : Downloads :=
  let listed : Downloads :=
    match d.downloadJobs[id]? with
    | none => d
    | some j =>
      if id ≤ 0 then d
      else
        let totalSize := (entries.map (·.size)).sum
        let d : Downloads := d.modify j fun job => { job with files := entries, totalSize }
        let d : Downloads := d.emit (.updateFolderFiles id entries.length totalSize)
        if !entries.isEmpty && d.jobs[j]?.any (·.currentFileNum < 0) then
          (d.sendMessage encode (.sendConfirm id 0 0)).scheduleDownloadConfirmRetry j 0
        else d
  listed.emit (.fileDir id path entries)

def handleFileDigest (id fileNum : Int) : Downloads :=
  match d.downloadJobs[id]? with
  | none => d
  | some j =>
    (d.sendMessage encode (.sendConfirm id fileNum 0)).scheduleDownloadConfirmRetry j fileNum

/-- Runs without a pause; the chunks are given up when the file is saved. -/
def finalizeDownloadFile (j : Nat) (job : DownloadJob) (fileNum : Int) (saves : Bool) :
    Downloads :=
  if job.chunks.isEmpty && (job.entry fileNum).map (·.size) ≠ some 0 then d
  else if !saves then d
  else
    { d.modify j fun job => { job with chunks := [] } with
      saved := d.saved ++ [⟨j, fileNum, job.nameOf fileNum, job.chunks.flatten⟩] }

/-- `handleFileBlock` up to the data: the file before is saved when the block is of another. -/
def turnTo (j : Nat) (job : DownloadJob) (fileNum : Int) (saves : Bool) : Downloads :=
  if job.currentFileNum ≠ fileNum then
    let d :=
      if 0 ≤ job.currentFileNum then d.finalizeDownloadFile j job job.currentFileNum saves else d
    d.modify j fun job => { job with chunks := [], currentFileNum := fileNum }
  else d

def handleFileBlock (id fileNum : Int) (data : Bytes) (compressed saves : Bool) : Downloads :=
  match d.downloadJobs[id]? with
  | none => d
  | some j =>
    match d.jobs[j]? with
    | none => d
    | some job =>
      if job.cancelled then d
      else
        let d := (d.turnTo j job fileNum saves).clearDownloadConfirmRetry j
        if data.isEmpty then d
        else
          match if compressed then decompress data else some data with
          | none =>
            (d.emit (.jobError (some id) (some fileNum) "decompress_failed")).delete id
          | some data =>
            if data.isEmpty then
              (d.emit (.jobError (some id) (some fileNum) "invalid_file_block")).delete id
            else
              let d := d.modify j fun job =>
                { job with
                  chunks := job.chunks ++ [data]
                  receivedBytes := job.receivedBytes + data.length }
              d.emit (.jobProgress id fileNum (job.receivedBytes + data.length))

/-- `handleFileDone`, and `completeDownloadJob` up to its `await`. -/
def handleFileDone (id fileNum : Int) (saves : Bool) : Downloads :=
  match d.downloadJobs[id]? with
  | none => d.emit (.jobDone none id fileNum)
  | some j =>
    match d.jobs[j]? with
    | none => d
    | some job =>
      if job.cancelled then d.emit (.jobDone none id fileNum)
      else
        let completedFileNum :=
          if 0 ≤ job.currentFileNum then job.currentFileNum else max 0 (fileNum - 1)
        let needless := job.chunks.isEmpty && (job.entry completedFileNum).map (·.size) ≠ some 0
        let d := (d.clearDownloadConfirmRetry j).finalizeDownloadFile j job completedFileNum saves
        { d with completing := d.completing ++ [⟨id, fileNum, j, needless || saves⟩] }

/-- `completeDownloadJob` from its `await` on. -/
def complete : Downloads :=
  match d.completing with
  | [] => d
  | c :: completing =>
    let d := { d with completing }
    let d :=
      if !c.saved then
        d.emit (.jobError (some c.id) (some c.reportedFileNum) "download_save_failed")
      else
        match d.jobs[c.job]? with
        | none => d
        | some job =>
          let finished := if 0 < job.totalSize then job.totalSize else job.receivedBytes
          let d :=
            if 0 < finished then
              (d.modify c.job fun job =>
                { job with
                  totalSize := max job.totalSize finished
                  receivedBytes := max job.receivedBytes finished }).emit
                (.jobProgress c.id c.reportedFileNum finished)
            else d
          d.emit (.jobDone (some c.job) c.id c.reportedFileNum)
    (d.clearDownloadConfirmRetry c.job).delete c.id

/-- The job of an id is cancelled and forgotten. -/
def cancelDownload (id : Int) : Downloads :=
  match d.downloadJobs[id]? with
  | none => d
  | some j =>
    (d.modify j fun job => { job with cancelled := true, confirmRetryTimer := none }).delete id

def fileError (id : Option Int) (err : String) : Downloads :=
  let d := d.emit (.jobError id none err)
  match id with
  | none => d
  | some id => d.cancelDownload id

def cancelJob (id : Int) : Downloads :=
  if !d.session.proto then d else (d.cancelDownload id).sendMessage encode (.cancel id)

/-- What `finalizeClosedState` does to the jobs. -/
def cancelAll : Downloads :=
  { d with
    jobs := d.jobs.mapIdx fun j job =>
      { job with cancelled := job.cancelled || (TreeMaps.values d.downloadJobs).contains j }
    downloadJobs := ∅ }

/-- `finalizeClosedState` has run when the event set `closeNotified`. -/
def onSession (e : SessionEvent) : Downloads :=
  let session := d.session.step setup e
  let finalized := !d.session.closeNotified && session.closeNotified
  let d := { d with session }
  if finalized then d.cancelAll else d

def step : DownloadEvent → Downloads
  | .session e => d.onSession setup e
  | .requestDownload id path includeHidden fileNum =>
    d.requestDownload encode id path includeHidden fileNum
  | .dir id path entries => d.dir encode id path entries
  | .fileDigest id fileNum => d.handleFileDigest encode id fileNum
  | .fileBlock id fileNum data compressed saves =>
    d.handleFileBlock decompress id fileNum data compressed saves
  | .fileDone id fileNum saves => d.handleFileDone id fileNum saves
  | .complete => d.complete
  | .fileError id err => d.fileError id err
  | .cancelJob id => d.cancelJob encode id
  | .retry j => d.retry encode j

end Downloads

end CamelliaRemote.Web
