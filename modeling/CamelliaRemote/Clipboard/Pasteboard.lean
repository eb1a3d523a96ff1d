import CamelliaRemote.Clipboard.Messages
import CamelliaRemote.Clipboard.PasteInside

/-!
The pasteboard, `libs/clipboard/src/platform/unix/macos/pasteboard_context.rs`.
`PASTE_OBSERVER_INFO` is the last paste of the user that the observer has found. It asks the
connection of the paste for the descriptors, and the response starts a task beside the target of
the paste. The response does not use the paste up, and it may come from any connection: a task
belongs to a paste of its connection as long as responses are awaited.

`FormatList` offers the files of a peer; which paste follows from it is up to the user.
-/

namespace CamelliaRemote.Clipboard.Paste
open Codec UnixPath Runs

structure PasteObserverInfo where
  fileDescriptorId : Int := 0
  connId : Int := 0
  sourcePath : Path := []
  targetPath : Path := []
  deriving DecidableEq, Repr

inductive PasteOut where
  | removeFile (path : Path)
  | sendData (connId : Int) (data : ClipboardFile)
  deriving DecidableEq, Repr

structure Pasteboard where
  /-- `PASTE_OBSERVER_INFO`. -/
  info : Option PasteObserverInfo := none
  task : PasteTask := {}
  /-- The channel to the worker of the task. -/
  fileContents : List FileContentsResponse := []
  outs : List PasteOut := []

/-- What a `FormatList` meets; `inited` is that there is a `tx_handle`. -/
structure PasteboardEnv where
  tempFilesCount : Nat := 0
  inited : Bool := true
  writesObjects : Bool := true
  deriving DecidableEq, Repr

def PasteTask.isFinished (t : PasteTask) : Bool := (t.handle.map (·.isFinished)).getD true

/-- What the pasteboard offers then. -/
def handleFormatList (env : PasteboardEnv) (connId : Int) (formatList : List (Int × String)) :
    Except CliprdrError PasteObserverInfo :=
  if env.inited then
    match formatList.find? (·.2 = filecontentsFormatName) with
    | none => .error (.commonError "no file contents format found")
    | some _ =>
      match formatList.find? (·.2 = filedescriptorwFormatName) with
      | none => .error (.commonError "no file descriptor format found")
      | some (fileDescriptorId, _) =>
        if env.writesObjects then .ok { fileDescriptorId, connId }
        else .error (.commonError "failed to write objects")
  else .error (.commonError "pasteboard context is not inited")

variable (disk : Nat → Disk)

namespace Pasteboard

def handlePasteResult (s : Pasteboard) (taskInfo : PasteObserverInfo) : Pasteboard :=
  if (parent taskInfo.targetPath).isNone then s
  else { s with
    info := some taskInfo
    outs := s.outs ++ [PasteOut.removeFile taskInfo.sourcePath, .removeFile taskInfo.targetPath,
      .sendData taskInfo.connId (.formatDataRequest taskInfo.fileDescriptorId)] }

/-- The directory that the next task is started in. -/
def targetDir (s : Pasteboard) : Option Path := (s.info.map (·.targetPath)).bind parent

def handleFormatDataResponse (s : Pasteboard) (connId : Int) (formatData : Bytes) :
    Pasteboard × Except CliprdrError Unit :=
  match s.targetDir with
  | none => (s, .error (.commonError "failed to get parent path"))
  | some targetDir =>
    let found := '\x00' ∉ targetDir && (disk s.task.clock).present targetDir
    let task := { s.task with clock := s.task.clock + 1 }
    if found then
      match FileDescription.parseFileDescriptors formatData connId with
      | .ok files => ({ s with task := task.start disk targetDir files }, .ok ())
      | .error e => ({ s with task, info := some {} }, .error e)
    else ({ s with task }, .error (.commonError "target path does not exist"))

/-- `server_clip_file_`. -/
def serverClipFile (env : PasteboardEnv) (s : Pasteboard) (connId : Int) :
    ClipboardFile → Pasteboard × Except CliprdrError Unit
  | .formatList formatList =>
    if 3 ≤ env.tempFilesCount then
      let tempFiles := env.tempFilesCount
      (s, .error (.commonError s!"too many temp files, current: {tempFiles}, limit: 3"))
    else if !s.task.isFinished then
      (s, .error (.commonError "previous file paste task is not finished"))
    else (s, (handleFormatList env connId formatList).map fun _ => ())
  | .formatDataResponse _ formatData => s.handleFormatDataResponse disk connId formatData
  | .fileContentsResponse msgFlags streamId requestedData =>
    ({ s with fileContents := s.fileContents ++ [⟨connId, msgFlags, streamId, requestedData⟩] },
      .ok ())
  | _ => (s, .ok ())

end Pasteboard

inductive PasteboardEvent where
  | pasted (taskInfo : PasteObserverInfo)
  | message (env : PasteboardEnv) (connId : Int) (msg : ClipboardFile)
  /-- The worker takes the next response. -/
  | received
  | timeout (overdue : Bool)
  | cancel

def Pasteboard.step (s : Pasteboard) : PasteboardEvent → Pasteboard
  | .pasted taskInfo => s.handlePasteResult taskInfo
  | .message env connId msg => (s.serverClipFile disk env connId msg).1
  | .received =>
    match s.fileContents with
    | [] => s
    | response :: rest => { s with task := s.task.receive disk response, fileContents := rest }
  | .timeout overdue => { s with task := s.task.timeout disk overdue }
  | .cancel => { s with task := s.task.cancel disk }

theorem task_handleFormatDataResponse (s : Pasteboard) (connId : Int) (formatData : Bytes) :
    (s.handleFormatDataResponse disk connId formatData).1.task =
      s.task.handleFormatDataResponse disk (s.info.map (·.targetPath)) connId formatData := by
  unfold Pasteboard.handleFormatDataResponse PasteTask.handleFormatDataResponse
  rw [← Pasteboard.targetDir]
  cases s.targetDir with
  | none => rfl
  | some dir =>
    dsimp only
    split
    · cases FileDescription.parseFileDescriptors formatData connId with
      | error e => rfl
      | ok files => rfl
    · rfl

theorem task_step (s : Pasteboard) (e : PasteboardEvent) :
    ∃ events, (s.step disk e).task = Runs.run (Paste.step disk) s.task events := by
  cases e with
  | pasted taskInfo =>
    refine ⟨[], ?_⟩
    simp only [Pasteboard.step, Pasteboard.handlePasteResult]
    split
    · rfl
    · rfl
  | message env connId msg =>
    cases msg with
    | formatDataResponse msgFlags formatData =>
      exact ⟨[.formatData (s.info.map PasteObserverInfo.targetPath) connId formatData],
        task_handleFormatDataResponse disk s connId formatData⟩
    | formatList formatList =>
      refine ⟨[], ?_⟩
      simp only [Pasteboard.step, Pasteboard.serverClipFile]
      split
      · rfl
      · split
        · rfl
        · rfl
    | _ => exact ⟨[], rfl⟩
  | received =>
    simp only [Pasteboard.step]
    split
    · exact ⟨[], rfl⟩
    · rename_i response _ _
      exact ⟨[.fileContents response], rfl⟩
  | timeout overdue => exact ⟨[.timeout overdue], rfl⟩
  | cancel => exact ⟨[.cancel], rfl⟩

/-- What the pasteboard does with its task is a run of the task. -/
theorem task_run (events : List PasteboardEvent) :
    ∃ taskEvents, (Runs.run (Pasteboard.step disk) {} events).task =
      Runs.run (Paste.step disk) {} taskEvents := by
  induction events using List.reverseRecOn with
  | nil => exact ⟨[], rfl⟩
  | append_singleton events e ih =>
    obtain ⟨before, isRun⟩ := ih
    obtain ⟨now, isStep⟩ := task_step disk (Runs.run (Pasteboard.step disk) {} events) e
    refine ⟨before ++ now, ?_⟩
    rw [run_append, run_append, ← isRun]
    exact isStep

/-- A response of the connection begins a task with the files in the directory. -/
structure Begins (s : Pasteboard) (e : PasteboardEvent) (connId : Int) (dir : Path)
    (files : List FileDescription) : Prop where
  response : ∃ env msgFlags formatData,
    e = .message env connId (.formatDataResponse msgFlags formatData) ∧
      FileDescription.parseFileDescriptors formatData connId = .ok files
  targetDir : s.targetDir = some dir
  found : '\x00' ∉ dir ∧ (disk s.task.clock).present dir = true
  finished : s.task.isFinished = true

def BeginsAny (s : Pasteboard) (e : PasteboardEvent) : Prop :=
  ∃ connId dir files, Begins disk s e connId dir files

variable {disk} {s : Pasteboard}

/-- The task that a response begins. -/
def Pasteboard.begun (disk : Nat → Disk) (s : Pasteboard) (dir : Path)
    (files : List FileDescription) : PasteTask :=
  { s.task with clock := s.task.clock + 1 }.start disk dir files

theorem begins_task {e : PasteboardEvent} {connId : Int} {dir : Path} {files : List FileDescription}
    (begins : Begins disk s e connId dir files) :
    (s.step disk e).task = s.begun disk dir files := by
  obtain ⟨⟨env, msgFlags, formatData, rfl, parsed⟩, targetDir, ⟨noNul, present⟩, -⟩ := begins
  simp only [Pasteboard.step, Pasteboard.serverClipFile, Pasteboard.handleFormatDataResponse,
    targetDir, parsed]
  rw [if_pos (by simp [noNul, present])]
  rfl

/-- The observer finds a paste of the connection into the directory. -/
def PastedInto (connId : Int) (dir : Path) (_ : Pasteboard) (e : PasteboardEvent) : Prop :=
  ∃ taskInfo, e = .pasted taskInfo ∧ taskInfo.connId = connId ∧
    parent taskInfo.targetPath = some dir

/-- A paste of the connection, which is asked for the descriptors. -/
def PastedFrom (connId : Int) (s : Pasteboard) (e : PasteboardEvent) : Prop :=
  ∃ dir, PastedInto connId dir s e

def Pasted (s : Pasteboard) (e : PasteboardEvent) : Prop := ∃ connId, PastedFrom connId s e

/-- The last paste is one of the connection, and has begun no task. -/
def Awaited (disk : Nat → Disk) (earlier : List PasteboardEvent) (connId : Int) : Prop :=
  Since (Pasteboard.step disk) (PastedFrom connId) (fun s e => Pasted s e ∨ BeginsAny disk s e) {}
    earlier

theorem targetDir_message {env : PasteboardEnv} {connId : Int} {msg : ClipboardFile} {dir : Path}
    (targetDir : (s.step disk (.message env connId msg)).targetDir = some dir) :
    s.targetDir = some dir := by
  cases msg with
  | formatDataResponse msgFlags formatData =>
    simp only [Pasteboard.step, Pasteboard.serverClipFile, Pasteboard.handleFormatDataResponse]
      at targetDir
    split at targetDir
    · exact targetDir
    · split at targetDir
      · split at targetDir
        · exact targetDir
        · have none : parent ([] : Path) = none := by decide
          simp [Pasteboard.targetDir, none] at targetDir
      · exact targetDir
  | formatList formatList =>
    simp only [Pasteboard.step, Pasteboard.serverClipFile] at targetDir
    split at targetDir
    · exact targetDir
    · split at targetDir
      · exact targetDir
      · exact targetDir
  | _ => exact targetDir

theorem targetDir_step {e : PasteboardEvent} {dir : Path}
    (targetDir : (s.step disk e).targetDir = some dir) :
    (∃ connId, PastedInto connId dir s e) ∨ s.targetDir = some dir ∧ ¬ Pasted s e := by
  cases e with
  | pasted taskInfo =>
    simp only [Pasteboard.step, Pasteboard.handlePasteResult] at targetDir
    split at targetDir
    · rename_i none
      refine .inr ⟨targetDir, ?_⟩
      rintro ⟨connId, dir', taskInfo', eq, -, isDir⟩
      obtain rfl := PasteboardEvent.pasted.inj eq
      simp [isDir] at none
    · exact .inl ⟨taskInfo.connId, taskInfo, rfl, rfl, targetDir⟩
  | message env connId msg =>
    refine .inr ⟨targetDir_message targetDir, ?_⟩
    rintro ⟨_, _, _, eq, -⟩
    cases eq
  | received =>
    refine .inr ⟨?_, ?_⟩
    · simp only [Pasteboard.step] at targetDir
      split at targetDir
      · exact targetDir
      · exact targetDir
    · rintro ⟨_, _, _, eq, -⟩
      cases eq
  | timeout overdue =>
    refine .inr ⟨targetDir, ?_⟩
    rintro ⟨_, _, _, eq, -⟩
    cases eq
  | cancel =>
    refine .inr ⟨targetDir, ?_⟩
    rintro ⟨_, _, _, eq, -⟩
    cases eq

/-- The directory of the next task is that of the last paste. -/
theorem targetDir_pasted {earlier : List PasteboardEvent} {dir : Path}
    (targetDir : (Runs.run (Pasteboard.step disk) {} earlier).targetDir = some dir) :
    Since (Pasteboard.step disk) (fun s e => ∃ connId, PastedInto connId dir s e) Pasted {}
      earlier := by
  induction earlier using List.reverseRecOn with
  | nil => simp [Pasteboard.targetDir] at targetDir
  | append_singleton earlier e ih =>
    rw [run_append, run_cons, run_nil] at targetDir
    rcases targetDir_step targetDir with here | ⟨before, other⟩
    · exact since_snoc.mpr (.inl here)
    · exact since_snoc.mpr (.inr ⟨ih before, other⟩)

/-- The connection that the event asks for descriptors. -/
def PasteboardEvent.requested : PasteboardEvent → Option Int
  | .pasted taskInfo =>
    if (parent taskInfo.targetPath).isNone then none else some taskInfo.connId
  | _ => none

/-- The connection that sends descriptors. -/
def PasteboardEvent.answered : PasteboardEvent → Option Int
  | .message _ connId (.formatDataResponse _ _) => some connId
  | _ => none

/-- The connections that owe an answer to a `FormatDataRequest`. -/
def asks (asked : List Int) (e : PasteboardEvent) : List Int :=
  match e.requested, e.answered with
  | some connId, _ => asked ++ [connId]
  | none, some connId => asked.erase connId
  | none, none => asked

/-- A connection answers each request at most once and none unasked, and the user does not
paste again before the answer. -/
def Solicited (asked : List Int) (e : PasteboardEvent) : Prop :=
  (e.requested.isSome → asked = []) ∧ ∀ connId ∈ e.answered, connId ∈ asked

instance (asked : List Int) (e : PasteboardEvent) : Decidable (Solicited asked e) :=
  inferInstanceAs (Decidable (_ ∧ _))

theorem requested_eq_some {connId : Int} {e : PasteboardEvent} :
    e.requested = some connId ↔ PastedFrom connId s e := by
  cases e with
  | pasted taskInfo =>
    simp only [PasteboardEvent.requested, PastedFrom, PastedInto, PasteboardEvent.pasted.injEq,
      exists_eq_left', ← Option.isSome_iff_exists, exists_and_left]
    cases parent taskInfo.targetPath <;> simp
  | _ => simp [PasteboardEvent.requested, PastedFrom, PastedInto]

theorem answered_of_begins {e : PasteboardEvent} {connId : Int} {dir : Path}
    {files : List FileDescription} (begins : Begins disk s e connId dir files) :
    e.answered = some connId := by
  obtain ⟨_, _, _, rfl, -⟩ := begins.response
  rfl

/-- At most one connection owes an answer, and that is the one whose paste is the last. -/
theorem awaited_asks {earlier : List PasteboardEvent}
    (solicited : Along asks Solicited [] earlier) :
    Runs.run asks [] earlier = [] ∨
      ∃ connId, Runs.run asks [] earlier = [connId] ∧ Awaited disk earlier connId := by
  induction earlier using List.reverseRecOn with
  | nil => exact .inl rfl
  | append_singleton earlier e ih =>
    obtain ⟨before, now, answers⟩ := along_snoc.mp solicited
    rw [run_append, run_cons, run_nil]
    cases requested : e.requested with
    | some connId =>
      have none := now (by simp [requested])
      refine .inr ⟨connId, by simp [asks, requested, none], ?_⟩
      exact since_snoc.mpr (.inl (requested_eq_some.mp requested))
    | none =>
      cases answered : e.answered with
      | some connId =>
        have mem := answers connId answered
        rcases ih before with none | ⟨connId', one, -⟩
        · simp [none] at mem
        · rw [one, List.mem_singleton] at mem
          exact .inl (by simp [asks, requested, answered, one, mem])
      | none =>
        have same : asks (Runs.run asks [] earlier) e = Runs.run asks [] earlier := by
          simp [asks, requested, answered]
        rw [same]
        refine (ih before).imp id ?_
        rintro ⟨connId, one, awaited⟩
        refine ⟨connId, one, since_snoc.mpr (.inr ⟨awaited, ?_⟩)⟩
        rintro (⟨connId', pasted⟩ | ⟨connId', dir, files, begins⟩)
        · simp [requested_eq_some.mpr pasted] at requested
        · simp [answered_of_begins begins] at answered

theorem awaited_of_answer {earlier : List PasteboardEvent} {connId : Int}
    (solicited : Along asks Solicited [] earlier) (answer : connId ∈ Runs.run asks [] earlier) :
    Awaited disk earlier connId := by
  rcases awaited_asks solicited with none | ⟨connId', one, awaited⟩
  · simp [none] at answer
  · rw [one, List.mem_singleton] at answer
    exact answer ▸ awaited

/-- **No paste without a user paste**, as far as the peers answer what they are asked: a task
that begins is one of the connection of the last paste, which has begun no task, and it is
started in the directory of that paste. -/
theorem pastes_by_user (events : List PasteboardEvent)
    (solicited : Along asks Solicited [] events) :
    ∀ earlier e later, events = earlier ++ e :: later → ∀ connId dir files,
      Begins disk (Runs.run (Pasteboard.step disk) {} earlier) e connId dir files →
        Since (Pasteboard.step disk) (PastedInto connId dir) (BeginsAny disk) {} earlier ∧
          ((Runs.run (Pasteboard.step disk) {} earlier).step disk e).task =
            (Runs.run (Pasteboard.step disk) {} earlier).begun disk dir files := by
  rintro earlier e later rfl connId dir files begins
  obtain ⟨before, answer, -⟩ := along_append.mp solicited
  have last := targetDir_pasted begins.targetDir
  have asked : Awaited disk earlier connId :=
    awaited_of_answer before (answer.2 connId (answered_of_begins begins))
  refine ⟨?_, begins_task begins⟩
  refine since_mono ?_ ?_ (since_and ?_ ?_ asked last)
  · rintro s e ⟨⟨_, taskInfo, rfl, isConn, -⟩, _, taskInfo', eq, -, isDir⟩
    obtain rfl := PasteboardEvent.pasted.inj eq
    exact ⟨taskInfo, rfl, isConn, isDir⟩
  · exact fun s e any => .inl (.inr any)
  · exact fun s e pasted => ⟨connId, pasted⟩
  · rintro s e ⟨connId', pasted⟩
    exact .inl ⟨connId', dir, pasted⟩

/-- The user pastes files of the connection to `/t/p`. -/
def userPaste (connId : Int) : PasteboardEvent :=
  .pasted { fileDescriptorId := 7, connId, targetPath := shared ++ ['/', 'p'] }

/-- The connection sends the description of an empty file. -/
def emptyFile (connId : Int) (name : List Char) : PasteboardEvent :=
  .message {} connId (.formatDataResponse 1 (onePdu 0 0 name))

theorem begins_emptyFile {s : Pasteboard} {connId : Int} {name : List Char}
    (parses : ((FileDescription.parseFileDescriptors (onePdu 0 0 name) connId).toOption.isSome))
    (dir : s.targetDir = some shared) (finished : s.task.isFinished = true) :
    ∃ files, Begins (fun _ => sharedDisk) s (emptyFile connId name) connId shared files := by
  cases parsed : FileDescription.parseFileDescriptors (onePdu 0 0 name) connId with
  | error e => simp [parsed, Except.toOption] at parses
  | ok files =>
    exact ⟨files, ⟨_, _, _, rfl, parsed⟩, dir, ⟨by decide, by decide⟩, finished⟩

/-- Two pastes, of two connections, each answered. -/
theorem pastes_by_user_twice :
    ∃ files, Begins (fun _ => sharedDisk)
        (Runs.run (Pasteboard.step fun _ => sharedDisk) {}
          [userPaste 1, emptyFile 1 ['a'], userPaste 2]) (emptyFile 2 ['b']) 2 shared files ∧
      Since (Pasteboard.step fun _ => sharedDisk) (PastedInto 2 shared)
        (BeginsAny fun _ => sharedDisk) {} [userPaste 1, emptyFile 1 ['a'], userPaste 2] := by
  obtain ⟨files, begins⟩ := @begins_emptyFile (Runs.run (Pasteboard.step fun _ => sharedDisk) {}
    [userPaste 1, emptyFile 1 ['a'], userPaste 2]) 2 ['b'] (by decide +kernel)
      (by decide +kernel) (by decide +kernel)
  refine ⟨files, begins, ?_⟩
  exact (pastes_by_user [userPaste 1, emptyFile 1 ['a'], userPaste 2, emptyFile 2 ['b']]
    (by decide +kernel) [userPaste 1, emptyFile 1 ['a'], userPaste 2] (emptyFile 2 ['b']) [] rfl
    2 shared files begins).1

/-- After the paste and the transfer of connection 1 has another connection a file made. -/
theorem response_of_another :
    (∃ files, Begins (fun _ => sharedDisk)
        (Runs.run (Pasteboard.step fun _ => sharedDisk) {} [userPaste 1, emptyFile 1 ['a']])
          (emptyFile 2 ['b']) 2 shared files) ∧
      (Runs.run (Pasteboard.step fun _ => sharedDisk) {}
          [userPaste 1, emptyFile 1 ['a'], emptyFile 2 ['b']]).task.done =
        [(shared, .createdFile (shared ++ ['/', 'a'])),
          (shared, .createdFile (shared ++ ['/', 'b']))] ∧
      ¬ Since (Pasteboard.step fun _ => sharedDisk) (PastedInto 2 shared)
        (BeginsAny fun _ => sharedDisk) {} [userPaste 1, emptyFile 1 ['a']] := by
  refine ⟨begins_emptyFile (by decide +kernel) (by decide +kernel) (by decide +kernel),
    by decide +kernel, ?_⟩
  intro since
  rcases happened_of_since since with ⟨_, eq, conn, -⟩ | ⟨_, eq, -⟩ | none
  · obtain rfl := PasteboardEvent.pasted.inj eq
    exact absurd conn (by decide)
  · cases eq
  · exact none

end CamelliaRemote.Clipboard.Paste
