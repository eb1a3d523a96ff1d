import CamelliaRemote.Protocol
import CamelliaRemote.Lib.Runs
import CamelliaRemote.Lib.MachineInt

/-!
Remove jobs of a client, `src/client/io_loop.rs`. A directory is removed file by file: the job
keeps the list of its files, and each report on one of them sends the next `RemoveFile` through
the channel of the user interface. Local and remote jobs share one map, and the reports and lists
of the peer reach it by number alone. What the file system answers is part of the event.
-/

namespace CamelliaRemote.Client
open Runs MachineInt

structure FileEntry where
  name : String
  deriving DecidableEq

structure RemoveJob where
  files : List FileEntry
  path : String
  sep : String
  isRemote : Bool
  noConfirm : Bool := false
  lastUpdateJobStatus : Nat
  deriving DecidableEq

structure TransferJob where
  id : Int
  type : JobType

/-- A `Data::RemoveFile` that the client sent to itself. -/
structure QueuedRemoval where
  id : Int
  path : String
  fileNum : Int
  isRemote : Bool
  deriving DecidableEq

inductive JobEffect where
  | sendAllFiles (id : Int) (path : String) (includeHidden : Bool)
  | sendRemoveDir (id : Int) (path : String)
  | sendRemoveFile (id : Int) (path : String) (fileNum : Int)
  | sendCreate (id : Int) (path : String)
  | sendRename (id : Int) (path newName : String)
  | sendCancel (id : Int)
  | jobError (id : Int) (err : String) (fileNum : Int)
  | jobDone (id : Int) (fileNum : Int)
  /-- The local `fs::remove_file`. -/
  | removeFile (path : String)
  deriving DecidableEq

/-- What a session fixes: the separators of both sides, how names of the peer's files are
rewritten when they arrive, and how transfer jobs are found by their number. -/
structure Sides where
  /-- `get_path_sep(is_remote)`. -/
  sep : Bool → String
  /-- `fs::transform_windows_path`, where the peer runs Windows and this side does not. -/
  transform : List FileEntry → List FileEntry
  /-- `fs::get_job`. -/
  getJob : Int → List TransferJob → Option TransferJob
  /-- `fs::remove_job`: the job, and those that are left. -/
  removeJob : Int → List TransferJob → Option TransferJob × List TransferJob

structure FileJobs where
  removeJobs : Int → Option RemoveJob := fun _ => none
  readJobs : List TransferJob := []
  writeJobs : List TransferJob := []
  queued : List QueuedRemoval := []
  effects : List JobEffect := []

inductive FileEvent where
  /-- `SendFiles` and `AddJob`; `err` is that of `TransferJob::new_read`. -/
  | sendFiles (id : Int) (type : JobType) (isRemote : Bool) (err : Option String)
  | setNoConfirm (id : Int)
  | removeDirAll (id : Int) (path : String) (isRemote includeHidden : Bool)
      (recursiveFiles : Except String (List FileEntry))
  | cancelJob (id : Int)
  | removeDir (id : Int) (path : String)
  | removeFile (id : Int) (path : String) (fileNum : Int) (isRemote : Bool) (err : Option String)
  | createDir (id : Int) (path : String) (isRemote : Bool) (err : Option String)
  | renameFile (id : Int) (path newName : String) (isRemote : Bool) (err : Option String)
  /-- The oldest `RemoveFile` that the client sent to itself. -/
  | queuedRemoveFile (err : Option String)
  /-- `FileResponse::Dir` of the peer; `err` is that of `set_files`. -/
  | dir (id : Int) (entries : List FileEntry) (err : Option String)
  /-- `FileResponse::Done` of the peer; `err` is that of the write job. -/
  | done (id fileNum : Int) (err : Option String)
  /-- `FileResponse::Error` of the peer. -/
  | error (id fileNum : Int) (err : String)

structure TimedEvent where
  now : Nat
  event : FileEvent

namespace FileJobs
variable (sides : Sides) (s : FileJobs)

def emit (effect : JobEffect) : FileJobs := { s with effects := s.effects ++ [effect] }

def setRemoveJob (id : Int) (job : Option RemoveJob) : FileJobs :=
  { s with removeJobs := fun i => if i = id then job else s.removeJobs i }

def send (data : QueuedRemoval) : FileJobs := { s with queued := s.queued ++ [data] }

def report (id fileNum : Int) (err : Option String) : FileJobs :=
  match err with
  | some err => s.emit (.jobError id err fileNum)
  | none => s.emit (.jobDone id fileNum)

def handleJobStatus (now : Nat) (id fileNum : Int) (err : Option String) : FileJobs :=
  match s.removeJobs id with
  | none => s.report id fileNum err
  | some job =>
    if job.noConfirm then
      let next := asU64 (asI32 (fileNum + 1))
      match job.files[next]? with
      | some file =>
        let path := job.path ++ job.sep ++ file.name
        let s := s.send ⟨id, path, asI32 next, job.isRemote⟩
        let elapsed := asI32 ((now : Int) - job.lastUpdateJobStatus)
        if elapsed ≥ 1000 then
          (s.setRemoveJob id (some { job with lastUpdateJobStatus := now })).report id fileNum err
        else s
      | none => (s.setRemoveJob id none).report id fileNum err
    else s.report id fileNum err

def cancelTransferJob (id : Int) : FileJobs :=
  let s := s.emit (.sendCancel id)
  { s with
    writeJobs := (sides.removeJob id s.writeJobs).2
    readJobs := (sides.removeJob id s.readJobs).2
    removeJobs := fun i => if i = id then none else s.removeJobs i }

def removeFile (now : Nat) (id : Int) (path : String) (fileNum : Int) (isRemote : Bool)
    (err : Option String) : FileJobs :=
  if isRemote then s.emit (.sendRemoveFile id path fileNum)
  else (s.emit (.removeFile path)).handleJobStatus now id fileNum err

def removeDirAll (now : Nat) (id : Int) (path : String)
    (isRemote includeHidden : Bool) (recursiveFiles : Except String (List FileEntry)) : FileJobs :=
  let sep := sides.sep isRemote
  if isRemote then
    (s.emit (.sendAllFiles id path includeHidden)).setRemoveJob id
      (some ⟨[], path, sep, isRemote, false, now⟩)
  else
    match recursiveFiles with
    | .ok entries => s.setRemoveJob id (some ⟨entries, path, sep, isRemote, false, now⟩)
    | .error err => s.handleJobStatus now id (-1) (some err)

def onDir (now : Nat) (id : Int) (entries : List FileEntry)
    (err : Option String) : FileJobs :=
  match sides.getJob id s.writeJobs with
  | some _ =>
    match err with
    | some err => (s.cancelTransferJob sides id).handleJobStatus now id (-1) (some err)
    | none => s
  | none =>
    match s.removeJobs id with
    | some job => s.setRemoveJob id (some { job with files := sides.transform entries })
    | none => s

def onDone (now : Nat) (id fileNum : Int) (err : Option String) : FileJobs :=
  let (job, writeJobs) := sides.removeJob id s.writeJobs
  let s := { s with writeJobs }
  match job with
  | none => s.handleJobStatus now id fileNum none
  | some job =>
    match job.type with
    | .generic => s.handleJobStatus now id fileNum err
    | .printer => s

def onError (now : Nat) (id fileNum : Int) (err : String) : FileJobs :=
  let (written, writeJobs) := sides.removeJob id s.writeJobs
  let (job, readJobs) :=
    if written.isSome then (written, s.readJobs) else sides.removeJob id s.readJobs
  let s := { s with writeJobs, readJobs }
  match (job.map (·.type)).getD .generic with
  | .generic => s.handleJobStatus now id fileNum (some err)
  | .printer => s

def step (e : TimedEvent) : FileJobs :=
  match e.event with
  | .sendFiles id type isRemote err =>
    if isRemote then { s with writeJobs := s.writeJobs ++ [⟨id, type⟩] }
    else match err with
      | some err => s.handleJobStatus e.now id (-1) (some err)
      | none => { s with readJobs := s.readJobs ++ [⟨id, type⟩] }
  | .setNoConfirm id =>
    match s.removeJobs id with
    | some job => s.setRemoveJob id (some { job with noConfirm := true })
    | none => s
  | .removeDirAll id path isRemote includeHidden recursiveFiles =>
    s.removeDirAll sides e.now id path isRemote includeHidden recursiveFiles
  | .cancelJob id => s.cancelTransferJob sides id
  | .removeDir id path => s.emit (.sendRemoveDir id path)
  | .removeFile id path fileNum isRemote err => s.removeFile e.now id path fileNum isRemote err
  | .createDir id path isRemote err =>
    if isRemote then s.emit (.sendCreate id path) else s.handleJobStatus e.now id (-1) err
  | .renameFile id path newName isRemote err =>
    if isRemote then s.emit (.sendRename id path newName)
    else s.handleJobStatus e.now id (-1) err
  | .queuedRemoveFile err =>
    match s.queued with
    | [] => s
    | data :: queued =>
      { s with queued }.removeFile e.now data.id data.path data.fileNum data.isRemote err
  | .dir id entries err => s.onDir sides e.now id entries err
  | .done id fileNum err => s.onDone sides e.now id fileNum err
  | .error id fileNum err => s.onError sides e.now id fileNum err

end FileJobs

/-- The job stands for a directory that the user removes locally, with the files found there. -/
def Listed (sides : Sides) (es : List TimedEvent) (id : Int) (job : RemoveJob) : Prop :=
  job.sep = sides.sep false ∧
    ∃ e ∈ es, ∃ includeHidden,
      e.event = .removeDirAll id job.path false includeHidden (.ok job.files)

/-- The user removes this file locally, or it was found in such a directory. -/
def Permitted (sides : Sides) (es : List TimedEvent) (path : String) : Prop :=
  (∃ e ∈ es, ∃ id fileNum err, e.event = .removeFile id path fileNum false err) ∨
    ∃ id job, Listed sides es id job ∧
      ∃ entry ∈ job.files, path = job.path ++ job.sep ++ entry.name

/-- No list of the peer goes into a local remove job. -/
def SparesLocalJobs (sides : Sides) (s : FileJobs) (e : TimedEvent) : Prop :=
  ∀ id entries err, e.event = .dir id entries err → sides.getJob id s.writeJobs = none →
    ∀ job, s.removeJobs id = some job → job.isRemote = true

structure Sound (sides : Sides) (es : List TimedEvent) (s : FileJobs) : Prop where
  jobs : ∀ id job, s.removeJobs id = some job → job.isRemote = false → Listed sides es id job
  queued : ∀ data ∈ s.queued, data.isRemote = false → Permitted sides es data.path
  removed : ∀ path, .removeFile path ∈ s.effects → Permitted sides es path

section Run
variable {sides : Sides} {es : List TimedEvent} {s : FileJobs} {id fileNum : Int} {now : Nat}
  {err : Option String}

theorem Listed.mono {job : RemoveJob} (listed : Listed sides es id job) (e : TimedEvent) :
    Listed sides (es ++ [e]) id job := by
  obtain ⟨sep, f, mem, includeHidden, eq⟩ := listed
  exact ⟨sep, f, List.mem_append_left _ mem, includeHidden, eq⟩

theorem Permitted.mono {path : String} (permitted : Permitted sides es path) (e : TimedEvent) :
    Permitted sides (es ++ [e]) path := by
  rcases permitted with ⟨f, mem, asked⟩ | ⟨id, job, listed, found⟩
  · exact .inl ⟨f, List.mem_append_left _ mem, asked⟩
  · exact .inr ⟨id, job, listed.mono e, found⟩

namespace Sound

theorem mono (sound : Sound sides es s) (e : TimedEvent) : Sound sides (es ++ [e]) s where
  jobs id job found isLocal := (sound.jobs id job found isLocal).mono e
  queued data mem isLocal := (sound.queued data mem isLocal).mono e
  removed path mem := (sound.removed path mem).mono e

theorem emit (sound : Sound sides es s) {effect : JobEffect}
    (permitted : ∀ path, effect = .removeFile path → Permitted sides es path) :
    Sound sides es (s.emit effect) := by
  refine ⟨sound.jobs, sound.queued, ?_⟩
  intro path mem
  rcases List.mem_append.mp mem with mem | mem
  · exact sound.removed path mem
  · exact permitted path (List.mem_singleton.mp mem).symm

theorem setRemoveJob (sound : Sound sides es s) {job : Option RemoveJob}
    (listed : ∀ j, job = some j → j.isRemote = false → Listed sides es id j) :
    Sound sides es (s.setRemoveJob id job) := by
  refine ⟨?_, sound.queued, sound.removed⟩
  intro i j found isLocal
  simp only [FileJobs.setRemoveJob] at found
  split at found
  · rename_i same
    subst same
    exact listed j found isLocal
  · exact sound.jobs i j found isLocal

theorem report (sound : Sound sides es s) : Sound sides es (s.report id fileNum err) := by
  unfold FileJobs.report
  split
  · exact sound.emit (by simp)
  · exact sound.emit (by simp)

theorem send (sound : Sound sides es s) {data : QueuedRemoval}
    (permitted : data.isRemote = false → Permitted sides es data.path) :
    Sound sides es (s.send data) := by
  refine ⟨sound.jobs, ?_, sound.removed⟩
  intro d mem isLocal
  rcases List.mem_append.mp mem with mem | mem
  · exact sound.queued d mem isLocal
  · obtain rfl := List.mem_singleton.mp mem
    exact permitted isLocal

theorem handleJobStatus (sound : Sound sides es s) :
    Sound sides es (s.handleJobStatus now id fileNum err) := by
  unfold FileJobs.handleJobStatus
  cases found : s.removeJobs id with
  | none => exact sound.report
  | some job =>
    have listed := sound.jobs id job found
    dsimp only
    split
    · split
      · rename_i file at'
        have sent : Sound sides es (s.send ⟨id, job.path ++ job.sep ++ file.name,
            asI32 (asU64 (asI32 (fileNum + 1))), job.isRemote⟩) := by
          refine sound.send fun isLocal => ?_
          exact .inr ⟨id, job, listed isLocal, file, List.mem_of_getElem? at', rfl⟩
        split
        · refine (sent.setRemoveJob ?_).report
          rintro j ⟨⟩ isLocal
          exact listed isLocal
        · exact sent
      · exact (sound.setRemoveJob (by simp)).report
    · exact sound.report

theorem transfers (sound : Sound sides es s) (readJobs writeJobs : List TransferJob) :
    Sound sides es { s with readJobs, writeJobs } :=
  ⟨sound.jobs, sound.queued, sound.removed⟩

theorem cancelTransferJob (sound : Sound sides es s) :
    Sound sides es (s.cancelTransferJob sides id) := by
  have cancelled : Sound sides es ((s.emit (.sendCancel id)).setRemoveJob id none) :=
    (sound.emit (by simp)).setRemoveJob (by simp)
  exact cancelled.transfers _ _

theorem removeFile (sound : Sound sides es s) {path : String} {isRemote : Bool}
    (permitted : isRemote = false → Permitted sides es path) :
    Sound sides es (s.removeFile now id path fileNum isRemote err) := by
  unfold FileJobs.removeFile
  split
  · exact sound.emit (by simp)
  · rename_i isLocal
    refine Sound.handleJobStatus (sound.emit ?_)
    rintro _ ⟨⟩
    exact permitted (by simpa using isLocal)

theorem onDir (sound : Sound sides es s) {entries : List FileEntry}
    (spares : sides.getJob id s.writeJobs = none → ∀ job, s.removeJobs id = some job →
      job.isRemote = true) : Sound sides es (s.onDir sides now id entries err) := by
  unfold FileJobs.onDir
  split
  · split
    · exact sound.cancelTransferJob.handleJobStatus
    · exact sound
  · rename_i none
    split
    · rename_i job found
      refine sound.setRemoveJob ?_
      rintro j ⟨⟩ isLocal
      exact absurd (spares none job found) (by simpa using isLocal)
    · exact sound

theorem onDone (sound : Sound sides es s) :
    Sound sides es (s.onDone sides now id fileNum err) := by
  have rest := sound.transfers s.readJobs (sides.removeJob id s.writeJobs).2
  unfold FileJobs.onDone
  dsimp only
  split
  · exact rest.handleJobStatus
  · split
    · exact rest.handleJobStatus
    · exact rest

theorem onError (sound : Sound sides es s) {text : String} :
    Sound sides es (s.onError sides now id fileNum text) := by
  unfold FileJobs.onError
  dsimp only
  split
  · exact (sound.transfers _ _).handleJobStatus
  · exact sound.transfers _ _

theorem removeDirAll (sound : Sound sides es s) {path : String} {isRemote includeHidden : Bool}
    {recursiveFiles : Except String (List FileEntry)}
    (asked : ∃ e ∈ es,
      e.event = .removeDirAll id path isRemote includeHidden recursiveFiles) :
    Sound sides es
      (s.removeDirAll sides now id path isRemote includeHidden recursiveFiles) := by
  unfold FileJobs.removeDirAll
  cases isRemote with
  | true =>
    refine (sound.emit (by simp)).setRemoveJob ?_
    rintro j ⟨⟩ isLocal
    cases isLocal
  | false =>
    cases recursiveFiles with
    | ok entries =>
      refine sound.setRemoveJob ?_
      rintro j ⟨⟩ -
      obtain ⟨e, mem, eq⟩ := asked
      exact ⟨rfl, e, mem, includeHidden, eq⟩
    | error text => exact sound.handleJobStatus

theorem step {e : TimedEvent} (before : Sound sides es s) (spares : SparesLocalJobs sides s e) :
    Sound sides (es ++ [e]) (s.step sides e) := by
  have sound := before.mono e
  have last : e ∈ es ++ [e] := by simp
  unfold FileJobs.step
  split
  · split
    · exact sound.transfers _ _
    · split
      · exact sound.handleJobStatus
      · exact sound.transfers _ _
  · rename_i id _
    split
    · rename_i job found
      refine sound.setRemoveJob ?_
      rintro j ⟨⟩ isLocal
      exact sound.jobs id job found isLocal
    · exact sound
  · rename_i eq
    exact sound.removeDirAll ⟨e, last, eq⟩
  · exact sound.cancelTransferJob
  · exact sound.emit (by simp)
  · rename_i id path fileNum isRemote err eq
    refine sound.removeFile ?_
    rintro rfl
    exact .inl ⟨e, last, id, fileNum, err, eq⟩
  · split
    · exact sound.emit (by simp)
    · exact sound.handleJobStatus
  · split
    · exact sound.emit (by simp)
    · exact sound.handleJobStatus
  · split
    · exact sound
    · rename_i data queued front
      have rest : Sound sides (es ++ [e]) { s with queued } := by
        refine ⟨sound.jobs, ?_, sound.removed⟩
        exact fun d mem => sound.queued d (front ▸ List.mem_cons_of_mem _ mem)
      exact rest.removeFile (sound.queued data (front ▸ List.mem_cons_self))
  · rename_i id entries err eq
    exact sound.onDir (spares id entries err eq)
  · exact sound.onDone
  · exact sound.onError

end Sound

/-- **A peer deletes no local file** where no list of the peer goes into a local remove
job: every file removed is one that the user removes, or one found in a directory that
the user removes. -/
theorem peer_deletes_no_local_file (sides : Sides) (es : List TimedEvent)
    (spares : Along (FileJobs.step sides) (SparesLocalJobs sides) {} es) (path : String)
    (removed : .removeFile path ∈ (run (FileJobs.step sides) {} es).effects) :
    Permitted sides es path := by
  suffices sound : Sound sides es (run (FileJobs.step sides) {} es) from
    sound.removed path removed
  clear removed
  induction es using List.reverseRecOn with
  | nil => exact ⟨by simp, by simp, by simp⟩
  | append_singleton es e ih =>
    rw [along_snoc] at spares
    rw [run_append]
    exact (ih spares.1).step spares.2

end Run

def unixSides : Sides where
  sep _ := "/"
  transform := id
  getJob id jobs := jobs.find? (·.id = id)
  removeJob id jobs := (jobs.find? (·.id = id), jobs.eraseP (·.id = id))

/-- The user removes a local directory with one file, without further questions. -/
def removal (files : List FileEntry) : List TimedEvent :=
  [⟨0, .removeDirAll 1 "/home/a" false true (.ok files)⟩, ⟨0, .setNoConfirm 1⟩]

theorem peer_deletes_no_local_file_listed :
    .removeFile "/home/a/x" ∈ (run (FileJobs.step unixSides) {}
        (removal [⟨"x"⟩] ++ [⟨0, .done 1 (-1) none⟩, ⟨0, .queuedRemoveFile none⟩])).effects ∧
      Permitted unixSides
        (removal [⟨"x"⟩] ++ [⟨0, .done 1 (-1) none⟩, ⟨0, .queuedRemoveFile none⟩])
        "/home/a/x" := by
  have removed : .removeFile "/home/a/x" ∈ (run (FileJobs.step unixSides) {}
      (removal [⟨"x"⟩] ++ [⟨0, .done 1 (-1) none⟩, ⟨0, .queuedRemoveFile none⟩])).effects := by
    decide
  refine ⟨removed, peer_deletes_no_local_file unixSides _ ?_ _ removed⟩
  simp [removal, Along, SparesLocalJobs]

/-- The peer sends its own list for the local job and reports on it. -/
def intrusion : List TimedEvent :=
  removal [⟨"x"⟩] ++
    [⟨0, .dir 1 [⟨"../b/secret"⟩] none⟩, ⟨0, .done 1 (-1) none⟩, ⟨0, .queuedRemoveFile none⟩]

theorem peer_deletes_local_file :
    .removeFile "/home/a/../b/secret" ∈ (run (FileJobs.step unixSides) {} intrusion).effects ∧
      ¬ Permitted unixSides intrusion "/home/a/../b/secret" := by
  refine ⟨by decide, ?_⟩
  rintro (⟨e, mem, id, fileNum, err, eq⟩ | ⟨id, job, ⟨sep, e, mem, hidden, eq⟩, entry, at', path⟩)
  · simp only [intrusion, removal, List.mem_append, List.mem_cons, List.not_mem_nil,
      or_false] at mem
    rcases mem with (rfl | rfl) | rfl | rfl | rfl <;> cases eq
  · obtain ⟨files, dir, jobSep, isRemote, noConfirm, last⟩ := job
    simp only [intrusion, removal, List.mem_append, List.mem_cons, List.not_mem_nil,
      or_false] at mem
    rcases mem with (rfl | rfl) | rfl | rfl | rfl <;> cases eq
    obtain rfl := List.mem_singleton.mp at'
    dsimp only at sep path
    subst sep
    exact absurd path (by decide)

end CamelliaRemote.Client
