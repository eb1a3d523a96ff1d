import CamelliaRemote.Lib.TreeMaps
import CamelliaRemote.Web.Session

/-!
Uploads of a web session, `flutter/web/js/src/runtime/session.ts`. `sendUploadBlocks` reads a file
slice by slice and waits for each slice; whatever else the session does comes in between, closes
and reconnects among it. The jobs are numbered in the order of their making, for a job goes on
when the map has lost it. `encode` is the encoding of protobuf. Downloads are left out.
-/

namespace CamelliaRemote.Web
open Codec
open Std (ExtTreeMap)

def chunkSize : Nat := 128 * 1024

inductive UploadMessage where
  | receive (id : Int) (path : String) (totalSize : Nat)
  | sendConfirm (id fileNum : Int) (offsetBlk : Option Nat) (skip : Bool)
  | cancel (id : Int)
  | block (id fileNum : Int) (data : Bytes) (blkId : Nat)
  | done (id fileNum : Int)
  deriving DecidableEq

structure UploadJob where
  id : Int
  file : Bytes
  remotePath : String
  fileNum : Int := 0
  sentBytes : Nat := 0
  started : Bool := false
  cancelled : Bool := false
  nextBlockId : Nat := 0
  pendingStartTimer : Bool := false
  resumeOffset : Nat := 0
  /-- The offset of the slice that `sendUploadBlocks` waits for. -/
  awaiting : Option Nat := none
  deriving DecidableEq

/-- What the session tells the application. -/
inductive Report where
  | jobDone (job : Nat) (id fileNum : Int)
  | jobProgress (id fileNum : Int) (finishedSize : Nat)
  | jobError (id : Option Int) (fileNum : Option Int) (err : String)
  deriving DecidableEq

/-- A message of a job, and the socket that took it. -/
structure Send where
  job : Nat
  message : UploadMessage
  socket : Option Nat
  deriving DecidableEq

/-- The socket that takes a message, if one does. -/
def WebSession.accepting (s : WebSession) : Option Nat :=
  if s.proto && s.transport.isOpen then s.transport.socket else none

structure Uploads where
  session : WebSession := {}
  jobs : List UploadJob := []
  uploadJobs : ExtTreeMap Int Nat := ∅
  sends : List Send := []
  reports : List Report := []

inductive UploadEvent where
  | session (e : SessionEvent)
  | startUpload (id : Int) (file : Bytes) (remotePath : String)
  /-- The timer of `startUpload`. -/
  | startTimeout (job : Nat)
  | fileDigest (id fileNum : Int) (isUpload : Bool)
  | confirmOverrideFile (id fileNum : Int) (needOverride : Bool)
  /-- `response.error`. -/
  | fileError (id : Option Int) (err : String)
  | cancelJob (id : Int)
  /-- The slice is read, or cannot be. -/
  | slice (job : Nat) (ok : Bool)

namespace Uploads

variable (setup : Setup) (encode : UploadMessage → Bytes) (u : Uploads)

def sendMessage (message : UploadMessage) : Uploads :=
  { u with session := u.session.sendMessage .application (encode message) }

/-- A message of the job. -/
def sendFor (j : Nat) (message : UploadMessage) : Uploads :=
  { u.sendMessage encode message with
    sends := u.sends ++ [⟨j, message, u.session.accepting⟩] }

def emit (report : Report) : Uploads := { u with reports := u.reports ++ [report] }

def setJob (j : Nat) (job : UploadJob) : Uploads := { u with jobs := u.jobs.set j job }

/-- The loop of `sendUploadBlocks` from an offset to its next `await` or its end. -/
def uploadFrom (j : Nat) (job : UploadJob) (offset : Nat) : Uploads :=
  if job.file.length ≤ offset then
    let u := (u.setJob j { job with awaiting := none }).sendFor encode j (.done job.id job.fileNum)
    let u := u.emit (.jobDone j job.id job.fileNum)
    { u with uploadJobs := u.uploadJobs.erase job.id }
  else u.setJob j { job with awaiting := if job.cancelled then none else some offset }

def startUploadJob (j offset : Nat) : Uploads :=
  match u.jobs[j]? with
  | none => u
  | some job =>
    if job.started || job.cancelled then u
    else
      u.uploadFrom encode j
        { job with
          pendingStartTimer := false
          started := true
          resumeOffset := offset
          sentBytes := offset } offset

/-- `sendUploadBlocks` goes on. -/
def slice (j : Nat) (ok : Bool) : Uploads :=
  match u.jobs[j]? with
  | none => u
  | some job =>
    match job.awaiting with
    | none => u
    | some offset =>
      if !ok || job.cancelled then u.setJob j { job with awaiting := none }
      else
        let data := (job.file.drop offset).take chunkSize
        let u := u.sendFor encode j (.block job.id job.fileNum data job.nextBlockId)
        let offset := offset + data.length
        let u := u.emit (.jobProgress job.id job.fileNum offset)
        u.uploadFrom encode j
          { job with nextBlockId := job.nextBlockId + 1, sentBytes := offset } offset

def startUpload (id : Int) (file : Bytes) (remotePath : String) : Uploads :=
  if !u.session.proto || remotePath.isEmpty then u
  else
    let job : UploadJob := { id, file, remotePath, pendingStartTimer := true }
    let u := u.sendMessage encode (.receive id remotePath file.length)
    { u with
      jobs := u.jobs ++ [job]
      uploadJobs := u.uploadJobs.insert id u.jobs.length }

def startTimeout (j : Nat) : Uploads :=
  match u.jobs[j]? with
  | none => u
  | some job =>
    if job.pendingStartTimer then
      (u.setJob j { job with pendingStartTimer := false }).startUploadJob encode j 0
    else u

def fileDigest (id fileNum : Int) (isUpload : Bool) : Uploads :=
  if isUpload then
    match u.uploadJobs[id]? with
    | none => u
    | some j =>
      (u.sendMessage encode (.sendConfirm id fileNum (some 0) false)).startUploadJob encode j 0
  else u

def confirmOverrideFile (id fileNum : Int) (needOverride : Bool) : Uploads :=
  if !u.session.proto then u
  else
    let skip := !needOverride
    let u := u.sendMessage encode
      (.sendConfirm id fileNum (if skip then none else some 0) skip)
    match u.uploadJobs[id]? with
    | none => u
    | some j =>
      if skip then
        let u := u.emit (.jobError (some id) (some fileNum) "skipped")
        { u with uploadJobs := u.uploadJobs.erase id }
      else u.startUploadJob encode j 0

/-- The job of an id is cancelled and forgotten. -/
def cancelUpload (id : Int) : Uploads :=
  match u.uploadJobs[id]? with
  | none => u
  | some j =>
    { u with
      jobs := u.jobs.modify j fun job => { job with cancelled := true }
      uploadJobs := u.uploadJobs.erase id }

def fileError (id : Option Int) (err : String) : Uploads :=
  let u := u.emit (.jobError id none err)
  match id with
  | none => u
  | some id => u.cancelUpload id

def cancelJob (id : Int) : Uploads :=
  if !u.session.proto then u else (u.cancelUpload id).sendMessage encode (.cancel id)

/-- What `finalizeClosedState` does to the jobs. -/
def cancelAll : Uploads :=
  { u with
    jobs := u.jobs.mapIdx fun j job =>
      { job with cancelled := job.cancelled || (TreeMaps.values u.uploadJobs).contains j }
    uploadJobs := ∅ }

/-- `finalizeClosedState` has run when the event set `closeNotified`. -/
def onSession (e : SessionEvent) : Uploads :=
  let session := u.session.step setup e
  let finalized := !u.session.closeNotified && session.closeNotified
  let u := { u with session }
  if finalized then u.cancelAll else u

def step : UploadEvent → Uploads
  | .session e => u.onSession setup e
  | .startUpload id file remotePath => u.startUpload encode id file remotePath
  | .startTimeout j => u.startTimeout encode j
  | .fileDigest id fileNum isUpload => u.fileDigest encode id fileNum isUpload
  | .confirmOverrideFile id fileNum needOverride =>
    u.confirmOverrideFile encode id fileNum needOverride
  | .fileError id err => u.fileError id err
  | .cancelJob id => u.cancelJob encode id
  | .slice j ok => u.slice encode j ok

def sendsOf (j : Nat) : List Send := u.sends.filter (·.job = j)

/-- What the transport took of the job. -/
def accepted (j : Nat) : List Send := (u.sendsOf j).filter (·.socket.isSome)

/-- The job has been reported as done. -/
def ReportedDone (j : Nat) : Prop := ∃ id fileNum, .jobDone j id fileNum ∈ u.reports

end Uploads

/-- Consecutive pieces that make up the bytes. -/
structure Cut (blocks : List Bytes) (file : Bytes) : Prop where
  whole : blocks.flatten = file
  sized : ∀ b ∈ blocks, 0 < b.length ∧ b.length ≤ chunkSize

def UploadJob.blockMessages (job : UploadJob) (blocks : List Bytes) : List UploadMessage :=
  blocks.mapIdx fun i data => .block job.id job.fileNum data i

def UploadJob.messages (job : UploadJob) (blocks : List Bytes) : List UploadMessage :=
  job.blockMessages blocks ++ [UploadMessage.done job.id job.fileNum]

/-- **The upload is complete**: the transport took the blocks of the file, each once and in
their order, and then that they are all, on one socket. -/
def Uploads.Complete (u : Uploads) (j : Nat) (job : UploadJob) : Prop :=
  ∃ blocks socket, Cut blocks job.file ∧
    u.accepted j = (job.messages blocks).map fun message => ⟨j, message, some socket⟩

/-- The job starts, and its file is empty. -/
def Uploads.startsEmpty (u : Uploads) (j : Nat) : Bool :=
  u.jobs[j]?.any fun job => !job.started && !job.cancelled && job.file.isEmpty

/-- The event makes the job send. -/
def Uploads.transmits (u : Uploads) (j : Nat) : UploadEvent → Bool
  | .slice j' ok =>
    j' = j && ok && u.jobs[j]?.any fun job => job.awaiting.isSome && !job.cancelled
  | .startTimeout j' => j' = j && u.jobs[j]?.any (·.pendingStartTimer) && u.startsEmpty j
  | .fileDigest id _ isUpload => isUpload && u.uploadJobs[id]? = some j && u.startsEmpty j
  | .confirmOverrideFile id _ needOverride =>
    u.session.proto && needOverride && u.uploadJobs[id]? = some j && u.startsEmpty j
  | _ => false

end CamelliaRemote.Web
