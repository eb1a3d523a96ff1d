import CamelliaRemote.Lib.Runs
import CamelliaRemote.Server.Handlers

/-!
Reading files for the peer, `src/ui_cm_interface.rs` and `src/server/connection.rs`. On Windows
the connection hands the files that its peer asks for over to the connection manager, which reads
them in jobs and reports what it reads. The two talk over one pipe in each direction, and the peer
may cancel at any time, so the connection keeps the ids of the jobs it still expects something of
(`cm_read_job_ids`) and drops every other report. What a `TransferJob` comes to is part of the
event that uses it. Each connection has a task of its own in the connection manager, so the ids of
the connections agree and are left out.
-/

namespace CamelliaRemote.Server.ReadJobs

structure FileDirectory where
  id : Int
  path : String
  entries : List (String × Nat)
  deriving DecidableEq, Repr

/-- The bytes of a `FileDirectory`, and `get_max_validated_files`. -/
structure Format where
  write : FileDirectory → Except String Bytes
  parse : Bytes → Except String FileDirectory
  maxValidatedFiles : Nat

/-- What the connection manager tells a connection of a read job. -/
inductive Report where
  | readJobInitResult (id fileNum : Int) (includeHidden : Bool) (result : Except String Bytes)
  | fileBlockFromCm (id fileNum : Int) (data : Bytes) (compressed : Bool)
  | fileReadDone (id fileNum : Int)
  | fileReadError (id fileNum : Int) (err : String)
  | fileDigestFromCm (id fileNum : Int) (lastModified fileSize : Nat) (isResume : Bool)

def Report.id : Report → Int
  | .readJobInitResult id _ _ _ | .fileBlockFromCm id _ _ _ | .fileReadDone id _
  | .fileReadError id _ _ | .fileDigestFromCm id _ _ _ _ => id

/-- A file response to the peer. -/
inductive PeerMessage where
  | dir (id : Int) (path : String) (entries : List (String × Nat))
  | error (id : Int) (err : String) (fileNum : Int)
  | block (id fileNum : Int) (data : Bytes) (compressed : Bool)
  | done (id fileNum : Int)
  | digest (id fileNum : Int) (lastModified fileSize : Nat) (isUpload isResume : Bool)
  deriving DecidableEq, Repr

def PeerMessage.id : PeerMessage → Int
  | .dir id _ _ | .error id _ _ | .block id _ _ _ | .done id _ | .digest id _ _ _ _ _ => id

structure Block where
  id : Int
  fileNum : Int
  data : Bytes
  compressed : Bool

/-- What the calls of a job come to in one tick. -/
structure JobAnswer where
  isLastJob : Bool := false
  fileNum : Int := 0
  isResume : Bool := false
  /-- `init_data_stream_for_cm`: a digest, if the peer has to be asked. -/
  initDataStream : Except String (Option (Nat × Nat)) := .ok none
  read : Except String (Option Block) := .ok none
  completed : Bool := false
  error : Option String := none

/-- `TransferJob::new_read`, in a task of its own. -/
inductive NewRead where
  | job (files : List (String × Nat))
  | failed (err : String)
  | taskFailed (err : String)

def checkFileCountLimit (f : Format) (fileCount : Nat) : Except String Unit :=
  if f.maxValidatedFiles < fileCount then
    .error (s!"file transfer rejected: too many files ({fileCount} files exceeds limit of " ++
      s!"{f.maxValidatedFiles}). Adjust 'file-transfer-max-files' option to increase limit.")
  else .ok ()

/-- `start_read_job`: whether a job is added, and what is reported. -/
def startReadJob (f : Format) (path : String) (fileNum : Int) (includeHidden : Bool) (id : Int)
    (result : NewRead) : Bool × Report :=
  let answer (r : Except String Bytes) : Report := .readJobInitResult id fileNum includeHidden r
  match result with
  | .job files =>
    match checkFileCountLimit f files.length with
    | .error msg => (false, answer (.error msg))
    | .ok () =>
      match f.write ⟨id, path, files⟩ with
      | .error e => (false, answer (.error s!"serialize failed: {e}"))
      | .ok bytes => (true, answer (.ok bytes))
  | .failed e => (false, answer (.error s!"validation failed: {e}"))
  | .taskFailed e => (false, answer (.error s!"validation task failed: {e}"))

/-- What a job reports of a read, and whether it is finished. -/
def readReports (id : Int) (a : JobAnswer) : List Report × Bool :=
  match a.read with
  | .error err => ([.fileReadError id a.fileNum err], true)
  | .ok (some block) =>
    ([.fileBlockFromCm block.id block.fileNum block.data block.compressed], false)
  | .ok none =>
    if a.completed then
      match a.error with
      | some err => ([.fileReadError id a.fileNum err], true)
      | none => ([.fileReadDone id a.fileNum], true)
    else ([], false)

/-- The loop of `handle_read_jobs_tick`: a job that cannot be opened is passed over, and the
first that can ends the round. -/
def tickReports (answer : Int → JobAnswer) : List Int → List Report × List Int
  | [] => ([], [])
  | id :: jobs =>
    let a := answer id
    let later := tickReports answer jobs
    if a.isLastJob then later
    else
      match a.initDataStream with
      | .error err => (.fileReadError id a.fileNum err :: later.1, id :: later.2)
      | .ok digest =>
        let asked := digest.toList.map fun d =>
          Report.fileDigestFromCm id a.fileNum d.1 d.2 a.isResume
        let read := readReports id a
        (asked ++ read.1, if read.2 then [id] else [])

structure State where
  /-- `cm_read_job_ids`. -/
  ids : List Int := []
  toCm : List FS := []
  /-- The ids of the `read_jobs` of the connection manager. -/
  jobs : List Int := []
  fromCm : List Report := []

inductive Event where
  /-- The peer asks for a file, cancels a job, or confirms a file of it. -/
  | send (r : SendRequest) (overwriteDetection : Bool)
  | cancel (id : Int)
  | sendConfirm (r : SendConfirm)
  /-- The connection manager handles the first request. -/
  | handleFs (result : NewRead)
  /-- The timer of the connection manager, while it has jobs. -/
  | tick (answer : Int → JobAnswer)
  /-- The connection handles the first report. -/
  | report

namespace State

def handleReadJobInitResult (f : Format) (s : State) (id : Int) (result : Except String Bytes) :
    State × List PeerMessage :=
  if id ∉ s.ids then (s, [])
  else
    let removed := { s with ids := s.ids.filter (· ≠ id) }
    match result with
    | .error error => (removed, [.error id error 0])
    | .ok dirBytes =>
      match f.parse dirBytes with
      | .error _ => (removed, [.error id "internal error" 0])
      | .ok dir => (s, [.dir id dir.path dir.entries])

def handleFileBlockFromCm (s : State) (id fileNum : Int) (data : Bytes) (compressed : Bool) :
    State × List PeerMessage :=
  if id ∉ s.ids then (s, []) else (s, [.block id fileNum data compressed])

def handleFileReadDone (s : State) (id fileNum : Int) : State × List PeerMessage :=
  if id ∉ s.ids then (s, [])
  else ({ s with ids := s.ids.filter (· ≠ id) }, [.done id fileNum])

def handleFileReadError (s : State) (id fileNum : Int) (err : String) :
    State × List PeerMessage :=
  if id ∉ s.ids then (s, [])
  else ({ s with ids := s.ids.filter (· ≠ id) }, [.error id err fileNum])

def handleFileDigestFromCm (s : State) (id fileNum : Int) (lastModified fileSize : Nat)
    (isResume : Bool) : State × List PeerMessage :=
  if id ∉ s.ids then (s, [])
  else (s, [.digest id fileNum lastModified fileSize false isResume])

def handleReport (f : Format) (s : State) : Report → State × List PeerMessage
  | .readJobInitResult id _ _ result => s.handleReadJobInitResult f id result
  | .fileBlockFromCm id fileNum data compressed =>
    s.handleFileBlockFromCm id fileNum data compressed
  | .fileReadDone id fileNum => s.handleFileReadDone id fileNum
  | .fileReadError id fileNum err => s.handleFileReadError id fileNum err
  | .fileDigestFromCm id fileNum lastModified fileSize isResume =>
    s.handleFileDigestFromCm id fileNum lastModified fileSize isResume

def onSend (s : State) (r : SendRequest) (overwriteDetection : Bool) : State :=
  { s with
    ids := r.id :: s.ids
    toCm := s.toCm ++ [FS.readFile r.path r.id r.fileNum r.includeHidden overwriteDetection] }

def onCancel (s : State) (id : Int) : State :=
  { s with
    ids := s.ids.filter (· ≠ id)
    toCm := s.toCm ++ [FS.cancelWrite id, .cancelRead id] }

def onSendConfirm (s : State) (r : SendConfirm) : State :=
  { s with
    toCm := s.toCm ++ [if r.id ∈ s.ids then .sendConfirmForRead r else .sendConfirm r] }

/-- `handle_fs`, as far as it is about read jobs. -/
def handleFs (f : Format) (s : State) (result : NewRead) : State × List Report :=
  match s.toCm with
  | [] => (s, [])
  | fs :: toCm =>
    let s := { s with toCm }
    match fs with
    | .readFile path id fileNum includeHidden _ =>
      let started := startReadJob f path fileNum includeHidden id result
      ({ s with
        jobs := if started.1 then s.jobs ++ [id] else s.jobs
        fromCm := s.fromCm ++ [started.2] }, [started.2])
    | .cancelRead id => ({ s with jobs := s.jobs.erase id }, [])
    | _ => (s, [])

/-- `handle_read_jobs_tick`. -/
def tick (s : State) (answer : Int → JobAnswer) : State × List Report :=
  let ticked := tickReports answer s.jobs
  ({ s with
    jobs := ticked.2.foldl List.erase s.jobs
    fromCm := s.fromCm ++ ticked.1 }, ticked.1)

/-- A step, what the connection manager reports in it and what the peer is sent. -/
def handle (f : Format) (s : State) : Event → State × List Report × List PeerMessage
  | .send r overwriteDetection => (s.onSend r overwriteDetection, [], [])
  | .cancel id => (s.onCancel id, [], [])
  | .sendConfirm r => (s.onSendConfirm r, [], [])
  | .handleFs result => ((s.handleFs f result).1, (s.handleFs f result).2, [])
  | .tick answer => ((s.tick answer).1, (s.tick answer).2, [])
  | .report =>
    match s.fromCm with
    | [] => (s, [], [])
    | r :: fromCm =>
      let handled := State.handleReport f { s with fromCm } r
      (handled.1, [], handled.2)

def step (f : Format) (s : State) (e : Event) : State := (s.handle f e).1

def reported (f : Format) (s : State) (e : Event) : List Report := (s.handle f e).2.1

def sent (f : Format) (s : State) (e : Event) : List PeerMessage := (s.handle f e).2.2

end State

/-- A `Send` that is handed over, as the whole connection handles it. -/
theorem onSend_handedOver (p : Host) (env : Env) (h : Handling) (r : SendRequest) (s : State)
    (windows : needFsCmSendFiles p env = true) (generic : r.fileType = .generic)
    (ids : h.conn.cmReadJobIds = s.ids) :
    (Server.onSend p env h r).conn.cmReadJobIds = (s.onSend r (overwriteDetection p h.conn)).ids ∧
      ∃ fs, (s.onSend r (overwriteDetection p h.conn)).toCm = s.toCm ++ [fs] ∧
        (Server.onSend p env h r).effects = h.effects ++ [Effect.cm (.fs fs)] := by
  simp [Server.onSend, generic, windows, State.onSend, ids, Handling.sendFs, Handling.sendToCm]

theorem onCancel_handedOver (h : Handling) (id : Int) (s : State)
    (ids : h.conn.cmReadJobIds = s.ids) (own : id ∉ h.conn.readJobs) :
    (Server.onCancel h id).conn.cmReadJobIds = (s.onCancel id).ids ∧
      (Server.onCancel h id).effects =
        h.effects ++ [Effect.cm (.fs (.cancelWrite id)), .cm (.fs (.cancelRead id))] := by
  simp [Server.onCancel, own, State.onCancel, ids, Handling.sendFs, Handling.sendToCm]

theorem onSendConfirm_handedOver (h : Handling) (r : SendConfirm) (s : State)
    (ids : h.conn.cmReadJobIds = s.ids) (own : r.id ∉ h.conn.readJobs) :
    ∃ fs, (s.onSendConfirm r).toCm = s.toCm ++ [fs] ∧
      (Server.onSendConfirm h r).effects = h.effects ++ [Effect.cm (.fs fs)] := by
  by_cases expected : r.id ∈ s.ids <;>
    simp [Server.onSendConfirm, own, State.onSendConfirm, ids, expected, Handling.sendFs,
      Handling.sendToCm]

end CamelliaRemote.Server.ReadJobs
