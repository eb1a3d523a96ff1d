import CamelliaRemote.Clipboard.PasteProgress
import CamelliaRemote.Clipboard.PasteTask

/-!
The model of a paste by its paths and the one by its progress, both of
`libs/clipboard/src/platform/unix/macos/paste_task.rs`. Each step of the first is one of the
second for some answers of its disk: `paste_progresses`.
-/

namespace CamelliaRemote.Clipboard.Paste
open StateM MachineInt UnixPath

/-- The handle and the requests are as they were. -/
structure Still (h : PasteTaskHandle) (sent : List (Int × ClipboardFile)) (w : Work) : Prop where
  handle : w.handle = h
  sent : w.sent = sent

def Quiet {α : Type} (c : TaskM α) : Prop := ∀ h sent, Keeps (Still h sent) c fun _ => True

/-- From a handle and the requests so far the computation leaves what satisfies `R`. -/
def Leaves {α : Type} (h : PasteTaskHandle) (sent : List (Int × ClipboardFile)) (c : TaskM α)
    (R : α → PasteTaskHandle → List (Int × ClipboardFile) → Prop) : Prop :=
  Triple (Still h sent) c fun a w => R a w.handle w.sent

section Leaves
variable {α β : Type} {h : PasteTaskHandle} {sent : List (Int × ClipboardFile)} {c : TaskM α}
  {f : α → TaskM β} {R : α → PasteTaskHandle → List (Int × ClipboardFile) → Prop}
  {R' : β → PasteTaskHandle → List (Int × ClipboardFile) → Prop}

theorem Leaves.pure {a : α} (done : R a h sent) : Leaves h sent (Pure.pure a) R := by
  rintro w ⟨rfl, rfl⟩
  exact done

theorem Leaves.bind (first : Leaves h sent c R)
    (next : ∀ a h' sent', R a h' sent' → Leaves h' sent' (f a) R') :
    Leaves h sent (c >>= f) R' :=
  fun w still => next _ _ _ (first w still) _ ⟨rfl, rfl⟩

theorem Leaves.mono {R' : α → PasteTaskHandle → List (Int × ClipboardFile) → Prop}
    (first : Leaves h sent c R) (weaker : ∀ a h' sent', R a h' sent' → R' a h' sent') :
    Leaves h sent c R' :=
  fun w still => weaker _ _ _ (first w still)

theorem Leaves.get {f : Work → TaskM β} (next : ∀ w, Still h sent w → Leaves h sent (f w) R') :
    Leaves h sent (get >>= f) R' :=
  Triple.get_bind fun w still => (next w still).of_imp fun _ same => same ▸ still

theorem Leaves.update {g : PasteTaskHandle → PasteTaskHandle}
    {R : Unit → PasteTaskHandle → List (Int × ClipboardFile) → Prop} (done : R () (g h) sent) :
    Leaves h sent (updateHandle g) R := by
  rintro w ⟨rfl, rfl⟩
  exact done

theorem Leaves.update_bind {g : PasteTaskHandle → PasteTaskHandle} {d : TaskM β}
    (next : Leaves (g h) sent d R') : Leaves h sent (updateHandle g >>= fun _ => d) R' := by
  rintro w ⟨rfl, rfl⟩
  exact next _ ⟨rfl, rfl⟩

theorem Quiet.leaves (quiet : Quiet c) (done : ∀ a, R a h sent) : Leaves h sent c R := by
  intro w still
  obtain ⟨-, same⟩ := quiet h sent w still
  rw [same.handle, same.sent]
  exact done _

theorem Quiet.leaves_bind (quiet : Quiet c) (next : ∀ a, Leaves h sent (f a) R') :
    Leaves h sent (c >>= f) R' :=
  Keeps.bind_triple (quiet h sent) fun a _ => next a

end Leaves

section Quiet
variable {α β : Type} {disk : Nat → Disk}

theorem Quiet.pure (a : α) : Quiet (Pure.pure a) := fun _ _ => Keeps.pure trivial

theorem Quiet.bind {c : TaskM α} {f : α → TaskM β} (first : Quiet c) (next : ∀ a, Quiet (f a)) :
    Quiet (c >>= f) :=
  fun h sent => Keeps.bind (first h sent) fun a _ => next a h sent

theorem Quiet.ite {p : Prop} [Decidable p] {c d : TaskM α} (pos : Quiet c) (neg : Quiet d) :
    Quiet (if p then c else d) :=
  fun h sent => Keeps.ite (fun _ => pos h sent) fun _ => neg h sent

theorem quiet_look : Quiet (look disk) := fun _ _ _ still => ⟨trivial, still.handle, still.sent⟩

theorem quiet_record (effect : Effect) : Quiet (record effect) :=
  fun _ _ _ still => ⟨trivial, still.handle, still.sent⟩

theorem quiet_pathExists (path : Path) : Quiet (pathExists disk path) :=
  quiet_look.bind fun _ => .pure _

theorem quiet_pathIsDir (path : Path) : Quiet (pathIsDir disk path) :=
  quiet_look.bind fun _ => .pure _

theorem quiet_mkdir (path : Path) : Quiet (mkdir disk path) :=
  quiet_look.bind fun _ => .ite (.pure _) (.ite ((quiet_record _).bind fun _ => .pure _) (.pure _))

theorem quiet_createDirs (dirs : List Path) : Quiet (createDirs disk dirs) := by
  induction dirs with
  | nil => exact .pure _
  | cons dir dirs ih =>
    have asDir (e : IoError) : Quiet (do
        if ← pathIsDir disk dir then return Except.ok () else return Except.error e) :=
      (quiet_pathIsDir dir).bind fun _ => .ite (.pure _) (.pure _)
    refine .ite (.pure _) ((quiet_mkdir dir).bind fun made => ?_)
    cases made with
    | ok => exact .pure _
    | error e =>
      refine .ite (ih.bind fun above => ?_) (asDir e)
      cases above with
      | error => exact .pure _
      | ok =>
        refine (quiet_mkdir dir).bind fun again => ?_
        cases again with
        | ok => exact .pure _
        | error e => exact asDir e

theorem quiet_createFile (path : Path) : Quiet (createFile disk path) :=
  quiet_look.bind fun _ => .ite ((quiet_record _).bind fun _ => .pure _) (.pure _)

theorem quiet_rename (source path : Path) : Quiet (rename disk source path) :=
  quiet_look.bind fun _ => .ite (quiet_record _) (.pure _)

theorem quiet_removeFile (path : Path) : Quiet (removeFile disk path) :=
  quiet_look.bind fun _ => .ite (quiet_record _) (.pure _)

theorem quiet_firstFree (name : Nat → Path) (n i : Nat) : Quiet (firstFree disk name n i) := by
  induction n generalizing i with
  | zero => exact .pure _
  | succ n ih => exact (quiet_pathExists _).bind fun _ => .ite (ih (i + 1)) (.pure _)

theorem quiet_getFirstFilename (path : Path) (kind : FileType) :
    Quiet (getFirstFilename disk path kind) := by
  refine (quiet_pathExists path).bind fun _ => .ite ?_ (.pure _)
  cases kind with
  | file => exact quiet_firstFree _ _ _
  | directory => exact quiet_firstFree _ _ _
  | symlink => exact .pure _

theorem quiet_getNewFilename (targetDir : Path) (fileDesc : FileDescription) :
    Quiet (getNewFilename disk targetDir fileDesc) :=
  (quiet_pathExists _).bind fun _ => .ite (quiet_getFirstFilename _ _) (.pure _)

theorem quiet_ensureDir (path : Path) : Quiet (ensureDir disk path) :=
  (quiet_pathExists path).bind fun _ => .ite (.pure _) (quiet_createDirs _)

end Quiet

/-- The two handles are at the same place of the same task. -/
structure Matches (h : PasteTaskHandle) (k : Progress.Handle) : Prop where
  files : k.files = h.files
  listIndex : k.listIndex = h.listIndex
  offset : k.offset = h.offset
  totalSize : k.totalSize = h.totalSize
  currentSize : k.currentSize = h.currentSize
  downloadFileIndex : k.downloadFileIndex = h.downloadFileIndex
  downloadFileSize : k.downloadFileSize = h.downloadFileSize
  fileHandle : k.fileHandle.isSome = h.fileHandle
  error : k.error.isSome = h.error.isSome
  isCanceled : k.isCanceled = h.isCanceled

/-- The list is short, and an open file is one of it that the task has not passed. -/
structure Sane (h : PasteTaskHandle) : Prop where
  short : h.files.length < 2 ^ 31
  index : -1 ≤ h.listIndex
  current : h.fileHandle = true →
    0 ≤ h.downloadFileIndex ∧ h.downloadFileIndex ≤ h.listIndex ∧ h.listIndex < h.files.length
  canceled : h.isCanceled = true → h.fileHandle = false

/-- The message of a request, with the connection it goes to. -/
def message (r : Progress.Request) : Int × ClipboardFile :=
  (r.connId, .fileContentsRequest r.listIndex r.listIndex 2 (asI32 r.offset)
    (asI32 (r.offset / 2 ^ 32)) r.cbRequested false 0)

/-- The handles match, and what was sent are the requests, after those of other tasks. -/
structure Follows (before : List (Int × ClipboardFile)) (h : PasteTaskHandle)
    (sent : List (Int × ClipboardFile)) (k : Progress.Handle) : Prop where
  same : Matches h k
  sane : Sane h
  sent : sent = before ++ k.sent.map message

/-- Both succeed or both fail. -/
inductive SameResult : Except CliprdrError Unit → Except Progress.Failure Unit → Prop where
  | ok : SameResult (.ok ()) (.ok ())
  | error (e : CliprdrError) (failure : Progress.Failure) : SameResult (.error e) (.error failure)

/-- Both come to the same end. -/
structure Comes (before : List (Int × ClipboardFile))
    (p : Except Progress.Failure Unit × Progress.Handle) (r : Except CliprdrError Unit)
    (h : PasteTaskHandle) (sent : List (Int × ClipboardFile)) : Prop where
  result : SameResult r p.1
  follows : Follows before h sent p.2

/-- The operations on an entry come to the same. -/
structure SameAt (d d' : Progress.Disk) (i : Nat) : Prop where
  named : d.named i = d'.named i
  created : d.created i = d'.created i
  found : d.found i = d'.found i
  madeDir : d.madeDir i = d'.madeDir i
  opening : d.opening i = d'.opening i
  renamed : d.renamed i = d'.renamed i

/-- The first disk answers for the entries below `n`, the second for the others. -/
def answer (n : Nat) (d d' : Progress.Disk) : Progress.Disk where
  named j := if j < n then d.named j else d'.named j
  created j := if j < n then d.created j else d'.created j
  found j := if j < n then d.found j else d'.found j
  madeDir j := if j < n then d.madeDir j else d'.madeDir j
  opening j := if j < n then d.opening j else d'.opening j
  writes := d'.writes
  renamed j := if j < n then d.renamed j else d'.renamed j

theorem answer_below {n j : Nat} (below : j < n) (d d' : Progress.Disk) :
    SameAt (answer n d d') d j := by
  constructor <;> exact if_pos below

theorem answer_from {n j : Nat} (above : n ≤ j) (d d' : Progress.Disk) :
    SameAt (answer n d d') d' j := by
  constructor <;> exact if_neg (Nat.not_lt.mpr above)

theorem SameAt.refl (d : Progress.Disk) (i : Nat) : SameAt d d i := ⟨rfl, rfl, rfl, rfl, rfl, rfl⟩

theorem SameAt.trans {d d' d'' : Progress.Disk} {i : Nat} (h : SameAt d d' i)
    (h' : SameAt d' d'' i) : SameAt d d'' i :=
  ⟨h.named.trans h'.named, h.created.trans h'.created, h.found.trans h'.found,
    h.madeDir.trans h'.madeDir, h.opening.trans h'.opening, h.renamed.trans h'.renamed⟩

section Handle
variable {disk : Nat → Disk} {before : List (Int × ClipboardFile)} {h : PasteTaskHandle}
  {k : Progress.Handle} {sent : List (Int × ClipboardFile)}

theorem Matches.count (m : Matches h k) (sane : Sane h) : k.count = h.files.length := by
  have short := sane.short
  rw [Progress.Handle.count, m.files]
  exact asI32_of_bounds (by omega) (by omega)

theorem Matches.isFinished (m : Matches h k) (sane : Sane h) :
    k.isFinished = h.isFinished := by
  rw [Progress.Handle.isFinished, m.count sane, m.isCanceled, m.error, m.listIndex]
  rfl

theorem Matches.file (m : Matches h k) (i : Int) : k.file i = h.file i := by
  rw [Progress.Handle.file, m.files]
  rfl

theorem Matches.entriesFrom (m : Matches h k) (sane : Sane h) (i : Nat) :
    k.entriesFrom i = h.files.drop i := by
  rw [Progress.Handle.entriesFrom, m.count sane, m.files, Int.toNat_natCast, List.take_length]

theorem Matches.fault (m : Matches h k) (fault : Progress.Fault) : Matches h (k.fault fault) :=
  { m with }

theorem Matches.fits (m : Matches h k) (what : Progress.Fault) (sum : Nat) :
    Matches h (k.fits what sum) := by
  unfold Progress.Handle.fits
  split
  · exact m
  · exact m.fault what

@[simp] theorem sent_fits (what : Progress.Fault) (sum : Nat) :
    (k.fits what sum).sent = k.sent := by
  unfold Progress.Handle.fits
  split <;> rfl

theorem Follows.fault (follows : Follows before h sent k) (what : Progress.Fault) :
    Follows before h sent (k.fault what) :=
  ⟨follows.same.fault what, follows.sane, follows.sent⟩

theorem Follows.failed (follows : Follows before h sent k) (error : CliprdrError)
    (failure : Progress.Failure) :
    Follows before { h with error := some error } sent { k with error := some failure } :=
  ⟨{ follows.same with error := rfl }, { follows.sane with }, follows.sent⟩

theorem leaves_onCancelled (follows : Follows before h sent k) :
    Leaves h sent (onCancelled disk) fun _ h' sent' => Follows before h' sent' k.onCancelled := by
  obtain ⟨same, sane, eq⟩ := follows
  refine .update_bind (.get fun w still => (quiet_removeFile _).leaves fun _ => ?_)
  exact ⟨{ same with fileHandle := rfl },
    { sane with current := nofun, canceled := fun _ => rfl }, eq⟩

theorem leaves_onError (follows : Follows before h sent k) (error : CliprdrError)
    (failure : Progress.Failure) :
    Leaves h sent (onError disk error) fun _ h' sent' =>
      Follows before h' sent' (k.onError failure) :=
  .update_bind (leaves_onCancelled (follows.failed error failure))

/-- A handle without an open file has nothing to end. -/
theorem onDone_closed (d : Progress.Disk) (closed : k.fileHandle = none) : k.onDone d = k := by
  rw [Progress.Handle.onDone, closed]

theorem Matches.closed (same : Matches h k) (closed : h.fileHandle = false) :
    k.fileHandle = none := by
  rw [← Option.isNone_iff_eq_none, ← Option.not_isSome, same.fileHandle, closed]
  rfl

theorem Matches.opened (same : Matches h k) (opened : h.fileHandle = true) :
    ∃ data, k.fileHandle = some data :=
  Option.isSome_iff_exists.mp (same.fileHandle.trans opened)

/-- A disk on which everything comes off. -/
def plainDisk : Progress.Disk where
  named _ := true
  created _ := true
  found _ := .absent
  madeDir _ := true
  opening _ := .opened
  writes := true
  renamed _ := true

/-- The handle has no file open any more. -/
structure Closes (h h' : PasteTaskHandle) : Prop where
  closed : h'.fileHandle = false
  isCanceled : h'.isCanceled = h.isCanceled

/-- `on_done` uses the disk at an index that the task has reached. -/
theorem leaves_onDone (follows : Follows before h sent k) :
    Leaves h sent (onDone disk) fun _ h' sent' => Closes h h' ∧
      ∃ d₀ k', Follows before h' sent' k' ∧
        ∀ d, (∀ j : Nat, j ≤ h.listIndex → SameAt d d₀ j) → k.onDone d = k' := by
  obtain ⟨same, sane, eq⟩ := follows
  refine .get fun w still => ?_
  obtain ⟨rfl, rfl⟩ := still
  by_cases closed : w.handle.fileHandle = false
  · rw [if_pos (.inl closed)]
    exact .pure ⟨⟨closed, rfl⟩, plainDisk, k, ⟨same, sane, eq⟩,
      fun d _ => onDone_closed d (same.closed closed)⟩
  · have opened : w.handle.fileHandle = true := by simpa using closed
    obtain ⟨data, received⟩ := same.opened opened
    obtain ⟨low, high, -⟩ := sane.current opened
    have file := same.file w.handle.downloadFileIndex
    rw [← same.downloadFileIndex] at low high file
    have index : k.downloadFileIndex ≠ -1 := by omega
    have reached : ((k.downloadFileIndex.toNat : Nat) : Int) ≤ w.handle.listIndex := by omega
    rw [if_neg (by simp [opened, ← same.downloadFileIndex, index]), ← same.downloadFileIndex]
    refine .update_bind ?_
    have shut : Matches { w.handle with fileHandle := false } { k with fileHandle := none } :=
      { same with fileHandle := rfl }
    have still : Sane { w.handle with fileHandle := false } :=
      { sane with current := nofun, canceled := fun _ => rfl }
    cases found : w.handle.file k.downloadFileIndex with
    | none =>
      refine .pure ⟨⟨rfl, rfl⟩, plainDisk, _, ⟨shut.fault .onDone, still, eq⟩,
        fun d _ => ?_⟩
      simp only [Progress.Handle.onDone, received, index, if_false, file, found]
    | some fileDesc =>
      refine (quiet_getNewFilename _ _).leaves_bind fun name => ?_
      cases name with
      | none =>
        refine .pure ⟨⟨rfl, rfl⟩, { plainDisk with named := fun _ => false }, _,
          ⟨shut.fault .getFirstFilename, still, eq⟩, fun d answers => ?_⟩
        simp only [Progress.Handle.onDone, received, index, if_false, file, found,
          Progress.Handle.rename, (answers _ reached).named, Bool.false_eq_true]
      | some renameToPath =>
        have named : Matches
            { w.handle with fileHandle := false, downloadFilePath := [], downloadFileIndex := -1 }
            { k with
              fileHandle := none
              downloadFileIndex := -1
              saved := k.saved ++ [(k.downloadFileIndex.toNat, data)] } :=
          { shut with downloadFileIndex := rfl }
        refine (quiet_rename _ _).leaves_bind fun _ => .update ⟨⟨rfl, rfl⟩, plainDisk, _,
          ⟨named, { still with current := nofun }, eq⟩, fun d answers => ?_⟩
        simp only [Progress.Handle.onDone, received, index, if_false, file, found,
          Progress.Handle.rename, (answers _ reached).named, (answers _ reached).renamed, plainDisk,
          if_true]

/-- A task that is finished without an error has no file open. -/
theorem Sane.closed (sane : Sane h) (finished : h.isFinished = true) (noError : h.error = none) :
    h.fileHandle = false := by
  by_contra opened
  rw [Bool.not_eq_false] at opened
  have ahead := (sane.current opened).2.2
  have running : h.isCanceled = false := by
    by_contra canceled
    rw [sane.canceled (by simpa using canceled)] at opened
    cases opened
  simp only [PasteTaskHandle.isFinished, running, noError, Option.isSome_none, Bool.or_self,
    Bool.false_or, decide_eq_true_eq] at finished
  omega

theorem leaves_onFinished (follows : Follows before h sent k) (finished : h.isFinished = true)
    (d : Progress.Disk) :
    Leaves h sent (onFinished disk) fun _ h' sent' =>
      Follows before h' sent' (k.onFinished d) := by
  have ended : Leaves h sent (cancelledOrDone disk) fun _ h' sent' =>
      Follows before h' sent' (k.cancelledOrDone d) := by
    refine .get fun w still => ?_
    obtain ⟨rfl, rfl⟩ := still
    unfold Progress.Handle.cancelledOrDone
    rw [follows.same.error]
    split
    · exact leaves_onCancelled follows
    · rename_i noError
      have shut := follows.same.closed (follows.sane.closed finished (by simpa using noError))
      rw [onDone_closed d shut]
      intro w' still
      obtain ⟨-, d₀, k', after, done⟩ := leaves_onDone follows w' still
      have idle := done d₀ fun j _ => .refl d₀ j
      rw [onDone_closed d₀ shut] at idle
      rwa [idle]
  refine ended.bind fun _ h' sent' after => .update ?_
  unfold Progress.Handle.onFinished Progress.Handle.checkTotal
  generalize k.cancelledOrDone d = k' at after
  have differ : k'.currentSize ≠ k'.totalSize ↔ h'.currentSize ≠ h'.totalSize := by
    rw [after.same.currentSize, after.same.totalSize]
  by_cases less : h'.currentSize ≠ h'.totalSize
  · rw [if_pos less, if_pos (differ.mpr less)]
    exact after.failed _ _
  · rw [if_neg less, if_neg (mt differ.mp less)]
    exact after

theorem PasteTaskHandle.file_bounds {i : Int} {f : FileDescription} (found : h.file i = some f) :
    0 ≤ i ∧ i < h.files.length := by
  unfold PasteTaskHandle.file at found
  split at found
  · cases found
  · have := (List.getElem?_eq_some_iff.mp found).1
    omega

theorem leaves_openNewWriter (follows : Follows before h sent k) (active : h.isCanceled = false) :
    Leaves h sent (openNewWriter disk) fun r h' sent' =>
      ∃ d₀, ∀ d, SameAt d d₀ h.listIndex.toNat → Comes before (k.openNewWriter d) r h' sent' := by
  obtain ⟨same, sane, eq⟩ := follows
  refine .get fun w still => ?_
  obtain ⟨rfl, rfl⟩ := still
  have file := same.file w.handle.listIndex
  rw [← same.listIndex] at file ⊢
  cases found : w.handle.file k.listIndex with
  | none =>
    refine .pure ⟨plainDisk, fun d _ => ?_⟩
    simp only [Progress.Handle.openNewWriter, file, found]
    exact ⟨.error _ _, same, sane, eq⟩
  | some fileDesc =>
    refine (quiet_getFirstFilename _ _).leaves_bind fun name => ?_
    cases name with
    | none =>
      refine .pure ⟨{ plainDisk with named := fun _ => false }, fun d answers => ?_⟩
      simp only [Progress.Handle.openNewWriter, file, found, answers.named, Bool.false_eq_true,
        if_false]
      exact ⟨.error _ _, same.fault _, sane, eq⟩
    | some downloadFilePath =>
      have refused (d : Progress.Disk)
          (answers : SameAt d { plainDisk with opening := fun _ => .refused } k.listIndex.toNat) :
          k.openNewWriter d = (.error .fileError, k) := by
        simp only [Progress.Handle.openNewWriter, file, found, answers.named, answers.opening,
          plainDisk, if_true]
      simp only
      cases above : parent downloadFilePath with
      | none =>
        refine .pure ⟨{ plainDisk with opening := fun _ => .refused }, fun d answers => ?_⟩
        rw [refused d answers]
        exact ⟨.error _ _, same, sane, eq⟩
      | some downloadPathParent =>
        refine (quiet_ensureDir _).leaves_bind fun made => ?_
        cases made with
        | error e =>
          refine .pure ⟨{ plainDisk with opening := fun _ => .refused }, fun d answers => ?_⟩
          rw [refused d answers]
          exact ⟨.error _ _, same, sane, eq⟩
        | ok =>
          refine (quiet_createFile _).leaves_bind fun opened => ?_
          cases opened with
          | error e =>
            refine .update_bind (.pure
              ⟨{ plainDisk with opening := fun _ => .failed }, fun d answers => ?_⟩)
            simp only [Progress.Handle.openNewWriter, file, found, answers.named, answers.opening,
              plainDisk, if_true]
            exact ⟨.ok, Follows.failed ⟨same, sane, eq⟩ _ _⟩
          | ok =>
            refine .update_bind (.pure ⟨plainDisk, fun d answers => ?_⟩)
            simp only [Progress.Handle.openNewWriter, file, found, answers.named, answers.opening,
              plainDisk, if_true]
            refine ⟨.ok, { same with
              downloadFileIndex := same.listIndex, downloadFileSize := rfl, fileHandle := rfl },
              ⟨sane.short, sane.index, fun _ => ?_, fun canceled => ?_⟩, eq⟩
            · have bounds := PasteTaskHandle.file_bounds found
              rw [same.listIndex] at bounds
              exact ⟨bounds.1, le_rfl, bounds.2⟩
            · exact absurd (active.symm.trans canceled) (by simp)

/-- An entry that needs no file to be received leaves the matching as it was. -/
theorem Follows.createEmpty (follows : Follows before h sent k) (d : Progress.Disk) (i : Nat) :
    Follows before h sent (k.createEmpty d i) := by
  obtain ⟨same, sane, eq⟩ := follows
  unfold Progress.Handle.createEmpty
  split
  · split
    · exact ⟨{ same with }, sane, eq⟩
    · exact ⟨same, sane, eq⟩
  · exact Follows.fault ⟨same, sane, eq⟩ _

theorem Follows.createDir (follows : Follows before h sent k) (d : Progress.Disk) (i : Nat) :
    Follows before h sent (k.createDir d i) := by
  obtain ⟨same, sane, eq⟩ := follows
  unfold Progress.Handle.createDir
  split
  · split
    · exact ⟨{ same with }, sane, eq⟩
    · exact ⟨same, sane, eq⟩
  · exact ⟨{ same with }, sane, eq⟩
  · exact ⟨same, sane, eq⟩

/-- The loop from the `i`-th entry on comes to what the other loop does by some disk. -/
def LoopComes (before : List (Int × ClipboardFile)) (l : List FileDescription) (i : Nat)
    (k : Progress.Handle) (r : Except CliprdrError Unit) (h' : PasteTaskHandle)
    (sent' : List (Int × ClipboardFile)) : Prop :=
  ∃ d₀, ∀ d, (∀ j, i ≤ j → SameAt d d₀ j) → Comes before (k.nextFile d l i) r h' sent'

/-- The entry is answered by one disk, and the loop goes on with another. -/
theorem LoopComes.entry {f : FileDescription} {l : List FileDescription} {i : Nat}
    {k' : Progress.Handle} {r : Except CliprdrError Unit} {h' : PasteTaskHandle}
    {sent' : List (Int × ClipboardFile)} (a : Progress.Disk)
    (step : ∀ d, SameAt d a i → k.nextFile d (f :: l) i = k'.nextFile d l (i + 1))
    (rest : LoopComes before l (i + 1) k' r h' sent') :
    LoopComes before (f :: l) i k r h' sent' := by
  obtain ⟨d₁, comes⟩ := rest
  refine ⟨answer (i + 1) a d₁, fun d answers => ?_⟩
  rw [step d ((answers i le_rfl).trans (answer_below (Nat.lt_succ_self i) a d₁))]
  exact comes d fun j later => (answers j (by omega)).trans (answer_from later a d₁)

theorem leaves_nextFile (l : List FileDescription) (i : Nat) (follows : Follows before h sent k)
    (active : h.isCanceled = false) (closed : h.fileHandle = false) :
    Leaves h sent (nextFile disk l i) (LoopComes before l i k) := by
  induction l generalizing i k with
  | nil => exact .pure ⟨plainDisk, fun d _ => ⟨.ok, follows⟩⟩
  | cons f l ih =>
    unfold nextFile
    cases kind : f.kind with
    | file =>
      by_cases empty : f.size = 0
      · simp only [empty, if_true]
        have named (a : Progress.Disk) (d : Progress.Disk) (answers : SameAt d a i) :
            k.nextFile d (f :: l) i = (k.createEmpty a i).nextFile d l (i + 1) := by
          simp only [Progress.Handle.nextFile, kind, empty, if_true, Progress.Handle.createEmpty,
            answers.named, answers.created]
        refine .get fun w still => (quiet_getNewFilename _ _).leaves_bind fun name => ?_
        cases name with
        | none =>
          refine (ih (i + 1) (follows.createEmpty _ i)).mono fun r h' sent' =>
            .entry { plainDisk with named := fun _ => false } (named _)
        | some newFilePath =>
          refine (quiet_createFile _).leaves_bind fun made => ?_
          exact (ih (i + 1) (follows.createEmpty _ i)).mono fun r h' sent' =>
            .entry { plainDisk with created := fun _ => made.isOk } (named _)
      · simp only [empty, if_false]
        have opens : Follows before { h with listIndex := i, offset := 0 } sent
            { k with listIndex := i, offset := 0 } := by
          obtain ⟨same, sane, eq⟩ := follows
          refine ⟨{ same with listIndex := rfl, offset := rfl },
            ⟨sane.short, ?_, fun opened => ?_, sane.canceled⟩, eq⟩
          · simp only
            omega
          · exact absurd (closed.symm.trans opened) (by simp)
        refine .update_bind ((leaves_openNewWriter opens active).mono fun r h' sent' comes => ?_)
        obtain ⟨d₀, comes⟩ := comes
        refine ⟨d₀, fun d answers => ?_⟩
        simp only [Progress.Handle.nextFile, kind, empty, if_false]
        exact comes d (answers i le_rfl)
    | directory =>
      refine .get fun w still => (quiet_ensureDir _).leaves_bind fun _ => ?_
      refine (ih (i + 1) (follows.createDir plainDisk i)).mono fun r h' sent' =>
        .entry plainDisk fun d answers => ?_
      simp only [Progress.Handle.nextFile, kind, Progress.Handle.createDir, answers.found,
        answers.madeDir]
    | symlink =>
      refine (ih (i + 1) follows).mono fun r h' sent' => .entry plainDisk fun d _ => ?_
      simp only [Progress.Handle.nextFile, kind]

theorem Follows.fits (follows : Follows before h sent k) (what : Progress.Fault) (sum : Nat) :
    Follows before h sent (k.fits what sum) :=
  ⟨follows.same.fits what sum, follows.sane, by rw [sent_fits]; exact follows.sent⟩

/-- The operation comes to what the other one does by some disk. -/
def SomeDisk (before : List (Int × ClipboardFile))
    (f : Progress.Disk → Except Progress.Failure Unit × Progress.Handle)
    (r : Except CliprdrError Unit) (h' : PasteTaskHandle) (sent' : List (Int × ClipboardFile)) :
    Prop :=
  ∃ d₀, ∀ d, (∀ j, SameAt d d₀ j) → Comes before (f d) r h' sent'

theorem advance_first (d : Progress.Disk) (size : Nat) (first : k.listIndex = -1) :
    k.advance d size = k.nextFile d (k.entriesFrom 0) 0 := if_pos first

theorem advance_later (d : Progress.Disk) (size : Nat) (later : k.listIndex ≠ -1) :
    k.advance d size =
      let k' := k.fits .offset (k.offset + size)
      if k'.downloadFileSize ≤ (k.offset + size) % 2 ^ 64 then
        (k'.onDone d).nextFile d (k'.entriesFrom (k'.listIndex + 1).toNat) (k'.listIndex + 1).toNat
      else
        (.ok (), { k'.fits .downloadFileCurrentSize (k'.downloadFileCurrentSize + size) with
          offset := (k.offset + size) % 2 ^ 64
          downloadFileCurrentSize := (k'.downloadFileCurrentSize + size) % 2 ^ 64 }) := if_neg later

theorem leaves_advance (follows : Follows before h sent k) (active : h.isCanceled = false)
    (size : Nat) :
    Leaves h sent (advance disk size) (SomeDisk before fun d => k.advance d size) := by
  obtain ⟨same, sane, eq⟩ := follows
  have index := sane.index
  refine .get fun w still => ?_
  obtain ⟨rfl, rfl⟩ := still
  by_cases first : w.handle.listIndex = -1
  · rw [if_pos (.inl first)]
    have closed : w.handle.fileHandle = false := by
      by_contra opened
      have := sane.current (by simpa using opened)
      omega
    have quiet : Leaves w.handle w.sent (doneUnlessStart disk) fun _ h' sent' =>
        h' = w.handle ∧ sent' = w.sent := by
      refine .get fun w' still => ?_
      rw [still.handle, if_pos first]
      exact .pure ⟨rfl, rfl⟩
    refine quiet.bind fun _ h' sent' still => ?_
    obtain ⟨rfl, rfl⟩ := still
    rw [first]
    refine (leaves_nextFile _ 0 ⟨same, sane, eq⟩ active closed).mono fun r h' sent' comes => ?_
    obtain ⟨d₀, comes⟩ := comes
    refine ⟨d₀, fun d answers => ?_⟩
    change Comes before (k.advance d size) r h' sent'
    rw [advance_first d size (same.listIndex.trans first), same.entriesFrom sane]
    exact comes d fun j _ => answers j
  · have later : k.listIndex ≠ -1 := by rwa [same.listIndex]
    have fit := (Follows.mk same sane eq).fits .offset (k.offset + size)
    have unfolded := fun d => advance_later d size later
    generalize k.fits .offset (k.offset + size) = k' at fit unfolded
    simp only [fit.same.downloadFileSize, fit.same.listIndex, same.offset] at unfolded
    by_cases ends : w.handle.downloadFileSize ≤ (w.handle.offset + size) % 2 ^ 64
    · rw [if_pos (.inr ends)]
      have done : Leaves w.handle w.sent (doneUnlessStart disk) fun _ h' sent' =>
          Closes w.handle h' ∧ ∃ d₀ k₁, Follows before h' sent' k₁ ∧
            ∀ d, (∀ j : Nat, j ≤ w.handle.listIndex → SameAt d d₀ j) → k'.onDone d = k₁ := by
        refine .get fun w' still => ?_
        rw [still.handle, if_neg first]
        exact leaves_onDone fit
      refine done.bind fun _ h' sent' after => ?_
      obtain ⟨closes, d₁, k₁, after, done⟩ := after
      have next : ((w.handle.listIndex + 1).toNat : Int) = w.handle.listIndex + 1 := by omega
      rw [← next]
      refine (leaves_nextFile _ _ after (closes.isCanceled.trans active) closes.closed).mono
        fun r h' sent' comes => ?_
      obtain ⟨d₂, comes⟩ := comes
      refine ⟨answer (w.handle.listIndex + 1).toNat d₁ d₂, fun d answers => ?_⟩
      change Comes before (k.advance d size) r h' sent'
      rw [unfolded, if_pos ends, fit.same.entriesFrom sane,
        done d fun j below => (answers j).trans (answer_below (by omega) d₁ d₂)]
      exact comes d fun j above => (answers j).trans (answer_from above d₁ d₂)
    · rw [if_neg (not_or.mpr ⟨first, ends⟩)]
      refine .update_bind (.pure ⟨plainDisk, fun d _ => ?_⟩)
      change Comes before (k.advance d size) _ _ _
      rw [unfolded, if_neg ends]
      have goes := fit.fits .downloadFileCurrentSize (k'.downloadFileCurrentSize + size)
      exact ⟨.ok, { goes.same with offset := rfl }, { sane with }, goes.sent⟩

theorem Follows.endUnlessOpen (follows : Follows before h sent k) :
    Follows before
      (if h.fileHandle then h
        else { h with listIndex := h.files.length, offset := 0, downloadFileSize := 0 })
      sent k.endUnlessOpen := by
  obtain ⟨same, sane, eq⟩ := follows
  have count := same.count sane
  by_cases closed : h.fileHandle = false
  · have shut := same.closed closed
    rw [if_neg (ne_true_of_eq_false closed), Progress.Handle.endUnlessOpen, shut, count]
    refine ⟨{ same with
        listIndex := rfl, offset := rfl, downloadFileSize := rfl, fileHandle := closed.symm },
      ⟨sane.short, ?_, fun opened => ?_, sane.canceled⟩, eq⟩
    · simp only
      omega
    · exact absurd (closed.symm.trans opened) (by simp)
  · have opened : h.fileHandle = true := by simpa using closed
    obtain ⟨data, received⟩ := same.opened opened
    rw [if_pos opened, Progress.Handle.endUnlessOpen, received]
    exact ⟨same, sane, eq⟩

theorem Comes.endAfter_error {p : Except Progress.Failure Unit × Progress.Handle} {e : CliprdrError}
    (comes : Comes before p (.error e) h sent) :
    Comes before (Progress.Handle.endAfter p) (.error e) h sent := by
  obtain ⟨result, k⟩ := p
  obtain ⟨same, after⟩ := comes
  cases same
  exact ⟨.error _ _, after⟩

theorem Comes.endAfter_ok {p : Except Progress.Failure Unit × Progress.Handle}
    (comes : Comes before p (.ok ()) h sent) :
    Comes before (Progress.Handle.endAfter p) (.ok ())
      (if h.fileHandle then h
        else { h with listIndex := h.files.length, offset := 0, downloadFileSize := 0 }) sent := by
  obtain ⟨result, k⟩ := p
  obtain ⟨same, after⟩ := comes
  cases same
  exact ⟨.ok, after.endUnlessOpen⟩

theorem leaves_updateNext (follows : Follows before h sent k) (size : Nat) :
    Leaves h sent (updateNext disk size) (SomeDisk before fun d => k.updateNext d size) := by
  have finished := follows.same.isFinished follows.sane
  obtain ⟨same, sane, eq⟩ := follows
  refine .get fun w still => ?_
  obtain ⟨rfl, rfl⟩ := still
  by_cases ended : w.handle.isFinished = true
  · rw [if_pos ended]
    refine .pure ⟨plainDisk, fun d _ => ?_⟩
    change Comes before (k.updateNext d size) _ _ _
    rw [Progress.Handle.updateNext, if_pos (finished.trans ended)]
    exact ⟨.ok, same, sane, eq⟩
  · rw [if_neg ended]
    have active : w.handle.isCanceled = false := by
      simp only [PasteTaskHandle.isFinished, Bool.or_eq_true, not_or, Bool.not_eq_true] at ended
      exact ended.1.1
    have fit := (Follows.mk same sane eq).fits .currentSize (k.currentSize + size)
    have unfolded (d : Progress.Disk) : k.updateNext d size = Progress.Handle.endAfter
        (Progress.Handle.advance d { k.fits .currentSize (k.currentSize + size) with
          currentSize := (w.handle.currentSize + size) % 2 ^ 64 } size) := by
      rw [← same.currentSize]
      exact if_neg (by rw [finished]; exact ended)
    generalize k.fits .currentSize (k.currentSize + size) = k' at fit unfolded
    have counts : Follows before
        { w.handle with currentSize := (w.handle.currentSize + size) % 2 ^ 64 } w.sent
        { k' with currentSize := (w.handle.currentSize + size) % 2 ^ 64 } :=
      ⟨{ fit.same with currentSize := rfl }, { sane with }, fit.sent⟩
    refine .update_bind ((leaves_advance counts active size).bind fun r h' sent' comes => ?_)
    obtain ⟨d₀, comes⟩ := comes
    cases r with
    | error e =>
      refine .pure ⟨d₀, fun d answers => ?_⟩
      change Comes before (k.updateNext d size) _ _ _
      rw [unfolded]
      exact (comes d answers).endAfter_error
    | ok =>
      refine .update_bind (.pure ⟨d₀, fun d answers => ?_⟩)
      change Comes before (k.updateNext d size) _ _ _
      rw [unfolded]
      exact (comes d answers).endAfter_ok

theorem leaves_sendFileContentsRequest (follows : Follows before h sent k) :
    Leaves h sent sendFileContentsRequest (Comes before k.sendFileContentsRequest) := by
  have finished := follows.same.isFinished follows.sane
  obtain ⟨same, sane, eq⟩ := follows
  refine .get fun w still => ?_
  obtain ⟨rfl, rfl⟩ := still
  have file : k.file k.listIndex = w.handle.file w.handle.listIndex := by
    rw [same.file, same.listIndex]
  unfold Progress.Handle.sendFileContentsRequest
  rw [finished, file]
  by_cases ended : w.handle.isFinished = true
  · rw [if_pos ended, if_pos ended]
    exact .pure ⟨.ok, same, sane, eq⟩
  · rw [if_neg ended, if_neg ended]
    cases found : w.handle.file w.handle.listIndex with
    | none => exact .pure ⟨.error _ _, Follows.fault ⟨same, sane, eq⟩ _⟩
    | some f =>
      have asked : w.sent ++ [(f.connId, contentsRequest w.handle f)] =
          before ++ (k.sent ++ [k.request f]).map message := by
        rw [List.map_append, ← List.append_assoc, ← eq, Progress.Handle.request, same.listIndex,
          same.offset]
        rfl
      have sends : Leaves w.handle w.sent (send f.connId (contentsRequest w.handle f))
          fun _ h' sent' => h' = w.handle ∧
            sent' = w.sent ++ [(f.connId, contentsRequest w.handle f)] := by
        intro w' still
        exact ⟨still.handle, congrArg (· ++ _) still.sent⟩
      refine sends.bind fun _ h' sent' after => .pure ?_
      obtain ⟨rfl, rfl⟩ := after
      refine ⟨.ok, ?_⟩
      have sent' : Follows before w.handle (w.sent ++ [(f.connId, contentsRequest w.handle f)])
          { k with sent := k.sent ++ [k.request f] } := ⟨{ same with }, sane, asked⟩
      simp only
      split
      · exact sent'.fault _
      · exact sent'

theorem leaves_requestOrFail (follows : Follows before h sent k) :
    Leaves h sent (PasteTask.requestOrFail disk) fun _ h' sent' =>
      Follows before h' sent' k.requestOrFail := by
  refine (leaves_sendFileContentsRequest follows).bind fun r h' sent' comes => ?_
  obtain ⟨result, after⟩ := comes
  unfold Progress.Handle.requestOrFail
  generalize k.sendFileContentsRequest = p at result after
  obtain ⟨r', k'⟩ := p
  cases result with
  | ok => exact .pure after
  | error e failure => exact leaves_onError after e failure

/-- The end of a task, or its next request. -/
theorem leaves_proceed (follows : Follows before h sent k) (d : Progress.Disk) :
    Leaves h sent (if h.isFinished then onFinished disk else PasteTask.requestOrFail disk)
      fun _ h' sent' => Follows before h' sent' (k.proceed d) := by
  unfold Progress.Handle.proceed
  rw [follows.same.isFinished follows.sane]
  split
  · rename_i finished
    exact leaves_onFinished follows finished d
  · exact leaves_requestOrFail follows

theorem leaves_begin (follows : Follows before h sent k) :
    Leaves h sent (PasteTask.begin disk) fun _ h' sent' =>
      ∃ d, Follows before h' sent' ((k.updateNext d 0).2.proceed d) := by
  refine (leaves_updateNext follows 0).bind fun r h' sent' comes => .get fun w still => ?_
  obtain ⟨d, comes⟩ := comes
  rw [still.handle]
  exact (leaves_proceed (comes d fun j => .refl d j).follows d).mono fun _ _ _ after => ⟨d, after⟩

/-- What the response of the other model is. -/
def FileContentsResponse.toProgress (response : FileContentsResponse) : Progress.Response where
  connId := response.connId
  msgFlags := response.msgFlags
  streamId := response.streamId
  requestedData := response.requestedData
  answers := none

theorem leaves_handleFileContentsResponse (follows : Follows before h sent k)
    (response : FileContentsResponse) :
    Leaves h sent (handleFileContentsResponse disk response.requestedData) fun r h' sent' =>
      ∃ d, Comes before (k.handleFileContentsResponse d response.toProgress) r h' sent' := by
  refine .get fun w still => ?_
  obtain ⟨rfl, rfl⟩ := still
  by_cases closed : w.handle.fileHandle = false
  · rw [if_neg (ne_true_of_eq_false closed)]
    refine .pure ⟨plainDisk, ?_⟩
    rw [Progress.Handle.handleFileContentsResponse, follows.same.closed closed]
    exact ⟨.error _ _, follows⟩
  · have opened : w.handle.fileHandle = true := by simpa using closed
    obtain ⟨data, received⟩ := follows.same.opened opened
    rw [if_pos opened]
    refine quiet_look.leaves_bind fun found => ?_
    cases found.writeError with
    | some e =>
      refine .pure ⟨{ plainDisk with writes := false }, ?_⟩
      rw [Progress.Handle.handleFileContentsResponse, received]
      exact ⟨.error _ _, follows⟩
    | none =>
      have written : Follows before w.handle w.sent (k.write response.toProgress data) := by
        obtain ⟨same, sane, eq⟩ := follows
        exact ⟨{ same with fileHandle := opened.symm }, sane, eq⟩
      refine (leaves_updateNext written response.requestedData.length).mono
        fun r h' sent' comes => ?_
      obtain ⟨d₀, comes⟩ := comes
      refine ⟨{ d₀ with writes := true }, ?_⟩
      rw [Progress.Handle.handleFileContentsResponse, received]
      exact comes _ fun j => ⟨rfl, rfl, rfl, rfl, rfl, rfl⟩

theorem leaves_handleOrFail (follows : Follows before h sent k) (response : FileContentsResponse) :
    Leaves h sent (PasteTask.handleOrFail disk response.requestedData) fun _ h' sent' =>
      ∃ d, Follows before h' sent' (k.handleOrFail d response.toProgress) := by
  refine (leaves_handleFileContentsResponse follows response).bind fun r h' sent' comes => ?_
  obtain ⟨d, result, after⟩ := comes
  unfold Progress.Handle.handleOrFail
  generalize heq : k.handleFileContentsResponse d response.toProgress = p at result after
  obtain ⟨r', k'⟩ := p
  cases result with
  | ok =>
    refine .pure ⟨d, ?_⟩
    rw [heq]
    exact after
  | error e failure =>
    refine (leaves_onError after e failure).mono fun _ h' sent' failed => ⟨d, ?_⟩
    rw [heq]
    exact failed

end Handle

section Task
variable {disk : Nat → Disk} {t : PasteTask} {u : Progress.PasteTask} {h : PasteTaskHandle}
  {k : Progress.Handle} {before : List (Int × ClipboardFile)}

/-- The two tasks are at the same place: they have tried as often, and their handles match. -/
structure Tracks (t : PasteTask) (u : Progress.PasteTask) : Prop where
  retryCount : u.retryCount = t.retryCount
  handle : t.handle = none ∧ u.handle = none ∨
    ∃ h k before, t.handle = some h ∧ u.handle = some k ∧ Follows before h t.sent k

/-- What a handle at work leaves, its task has. -/
theorem Tracks.work {c : TaskM Unit} (retry : u.retryCount = t.retryCount)
    (leaves : Leaves h t.sent c fun _ h' sent' => Follows before h' sent' k)
    (handle : u.handle = some k) : Tracks (t.work h c) u :=
  ⟨retry, .inr ⟨_, k, before, rfl, handle, leaves ⟨h, t.clock, t.done, t.sent⟩ ⟨rfl, rfl⟩⟩⟩

theorem tracks_proceed (retry : u.retryCount = t.retryCount) (handle : t.handle = some h)
    (follows : Follows before h t.sent k) (d : Progress.Disk) :
    Tracks (t.proceed disk) (u.proceed d k) := by
  have finished := follows.same.isFinished follows.sane
  have leaves := @leaves_proceed disk _ _ _ _ follows d
  unfold PasteTask.proceed Progress.PasteTask.proceed
  rw [handle, finished]
  by_cases ended : h.isFinished = true
  · rw [if_pos ended] at leaves
    simp only [if_pos ended]
    exact .work rfl leaves rfl
  · rw [if_neg ended] at leaves
    simp only [if_neg ended]
    exact .work retry leaves rfl

theorem Tracks.isFinished (tracks : Tracks t u) :
    u.isFinished = !(t.handle.map fun h => !h.isFinished).getD false := by
  obtain ⟨none, none'⟩ | ⟨h, k, before, here, there, follows⟩ := tracks.handle
  · rw [Progress.PasteTask.isFinished, none, none']
    rfl
  · rw [Progress.PasteTask.isFinished, here, there]
    simp [follows.same.isFinished follows.sane]

/-- The handle of a new task, whose requests come after those that were sent. -/
theorem follows_new (u : Progress.PasteTask) (sent : List (Int × ClipboardFile)) (targetDir : Path)
    {files : List FileDescription} (short : files.length < 2 ^ 31) :
    Follows sent { totalSize := (files.map (·.size)).sum % 2 ^ 64, targetDir, files } sent
      (u.newHandle files) := by
  have fresh : Sane { totalSize := (files.map (·.size)).sum % 2 ^ 64, targetDir, files } :=
    ⟨short, le_rfl, nofun, nofun⟩
  refine Follows.fits ⟨?_, fresh, ?_⟩ _ _
  · constructor <;> rfl
  · exact (List.append_nil sent).symm

theorem tracks_start (tracks : Tracks t u) (targetDir : Path) {files : List FileDescription}
    (short : files.length < 2 ^ 31) :
    ∃ d, Tracks (t.start disk targetDir files) (u.start files d) := by
  have idle := tracks.isFinished
  unfold PasteTask.start Progress.PasteTask.start
  by_cases running : (t.handle.map fun h => !h.isFinished).getD false = true
  · refine ⟨plainDisk, ?_⟩
    rw [if_pos running, if_neg (by rw [idle, running]; exact Bool.false_ne_true)]
    exact tracks
  · rw [if_neg running]
    have ended : u.isFinished = true := by
      rw [idle, Bool.eq_false_iff.mpr running]
      rfl
    have begins := @leaves_begin disk _ _ _ _ (follows_new u t.sent targetDir short)
    obtain ⟨d, after⟩ := begins ⟨_, t.clock, t.done, t.sent⟩ ⟨rfl, rfl⟩
    refine ⟨d, ?_⟩
    rw [if_pos ended]
    exact ⟨tracks.retryCount, .inr ⟨_, _, t.sent, rfl, rfl, after⟩⟩

theorem tracks_cancel (tracks : Tracks t u) : Tracks (t.cancel disk) u.cancel := by
  unfold PasteTask.cancel Progress.PasteTask.cancel
  obtain ⟨none, none'⟩ | ⟨h, k, before, here, there, same, sane, eq⟩ := tracks.handle
  · rw [none, none']
    exact ⟨tracks.retryCount, .inl ⟨none, rfl⟩⟩
  · rw [here, there]
    have canceled : Leaves { h with isCanceled := true } t.sent (onCancelled disk)
        fun _ h' sent' => Follows before h' sent'
          (Progress.Handle.onCancelled { k with isCanceled := true }) := by
      refine .update_bind (.get fun w still => (quiet_removeFile _).leaves fun _ => ?_)
      exact ⟨{ same with fileHandle := rfl, isCanceled := rfl },
        { sane with current := nofun, canceled := fun _ => rfl }, eq⟩
    exact .work tracks.retryCount canceled rfl

theorem tracks_timeout (tracks : Tracks t u) (overdue : Bool) (d : Progress.Disk) :
    Tracks (t.timeout disk overdue) (u.timeout overdue d) := by
  unfold PasteTask.timeout Progress.PasteTask.timeout
  obtain ⟨none, none'⟩ | ⟨h, k, before, here, there, follows⟩ := tracks.handle
  · rw [none, none']
    exact tracks
  · rw [here, there]
    simp only [follows.same.isFinished follows.sane]
    split
    · have failed := follows.failed (.invalidRequest "Failed to read file contents") .timedOut
      exact .work rfl (leaves_onFinished failed (by simp [PasteTaskHandle.isFinished]) d) rfl
    · exact tracks

/-- The worker on a response with an error. -/
theorem tracks_retry (tracks : Tracks t u)
    (follows : Follows before h t.sent k) (error : CliprdrError) (d : Progress.Disk) :
    Tracks
      (PasteTask.proceed disk { t with
        retryCount := t.retryCount + 1
        handle := some (if PasteTask.recvRetryTimes < t.retryCount + 1
          then { h with error := some error } else h) })
      (u.retry k d) := by
  have after : Follows before
      (if PasteTask.recvRetryTimes < t.retryCount + 1 then { h with error := some error } else h)
      t.sent
      (if Progress.PasteTask.recvRetryTimes < t.retryCount + 1
        then { k with error := some .msgFlags } else k) := by
    unfold PasteTask.recvRetryTimes Progress.PasteTask.recvRetryTimes
    by_cases many : 3 < t.retryCount + 1
    · rw [if_pos many, if_pos many]
      exact follows.failed error .msgFlags
    · rw [if_neg many, if_neg many]
      exact follows
  unfold Progress.PasteTask.retry
  simp only [tracks.retryCount]
  exact @tracks_proceed disk { t with retryCount := t.retryCount + 1, handle := some _ } _ _ _
    before rfl rfl after d

theorem tracks_receive (tracks : Tracks t u) (response : FileContentsResponse) :
    ∃ d, Tracks (t.receive disk response) (u.receive response.toProgress d) := by
  unfold PasteTask.receive Progress.PasteTask.receive
  obtain ⟨none, none'⟩ | ⟨h, k, before, here, there, follows⟩ := tracks.handle
  · rw [none, none']
    exact ⟨plainDisk, tracks⟩
  · rw [here, there]
    simp only [follows.same.isFinished follows.sane, follows.same.listIndex,
      FileContentsResponse.toProgress]
    by_cases late : h.isFinished = true ∨ response.streamId ≠ h.listIndex
    · simp only [if_pos late]
      exact ⟨plainDisk, tracks⟩
    simp only [if_neg late]
    by_cases bad : response.msgFlags ≠ 0x01
    · simp only [if_pos bad]
      refine ⟨plainDisk, ?_⟩
      simp only [ne_eq, bad, not_false_eq_true, if_true]
      exact tracks_retry tracks follows _ plainDisk
    simp only [if_neg bad, Progress.PasteTask.handleData, follows.same.file]
    cases h.file response.streamId with
    | none =>
      exact ⟨plainDisk, tracks.retryCount, .inr ⟨h, _, before, here, rfl, follows.fault _⟩⟩
    | some f =>
      simp only
      by_cases foreign : f.connId ≠ response.connId
      · simp only [if_pos foreign]
        exact ⟨plainDisk, tracks.retryCount, .inr ⟨h, _, before, here, rfl, follows.fault _⟩⟩
      · simp only [if_neg foreign]
        have handles := @leaves_handleOrFail disk _ _ _ _ follows response
        obtain ⟨d, after⟩ := handles ⟨h, t.clock, t.done, t.sent⟩ ⟨rfl, rfl⟩
        exact ⟨d, @tracks_proceed disk (t.work h _) u _ _ before tracks.retryCount rfl after d⟩

/-- The list of a paste has less than `2^31` entries. -/
def Event.Short : Event → Prop
  | .formatData _ connId data => ∀ files,
    FileDescription.parseFileDescriptors data connId = .ok files → files.length < 2 ^ 31
  | _ => True

/-- A step of the task is at most one step of the other. -/
theorem tracks_step (tracks : Tracks t u) {e : Event} (short : e.Short) :
    ∃ es : List Progress.Event, Tracks (step disk t e) (Runs.run Progress.PasteTask.step u es) := by
  cases e with
  | cancel => exact ⟨[.cancel], tracks_cancel tracks⟩
  | timeout overdue => exact ⟨[.timeout overdue plainDisk], tracks_timeout tracks overdue plainDisk⟩
  | fileContents response =>
    obtain ⟨d, after⟩ := @tracks_receive disk _ _ tracks response
    exact ⟨[.receive response.toProgress d], after⟩
  | formatData targetPath connId data =>
    simp only [step, PasteTask.handleFormatDataResponse]
    cases targetPath.bind parent with
    | none => exact ⟨[], tracks⟩
    | some targetDir =>
      have looked : Tracks { t with clock := t.clock + 1 } u := ⟨tracks.retryCount, tracks.handle⟩
      simp only
      split
      · cases parsed : FileDescription.parseFileDescriptors data connId with
        | error => exact ⟨[], looked⟩
        | ok files =>
          obtain ⟨d, after⟩ := @tracks_start disk _ _ looked targetDir _ (short files parsed)
          exact ⟨[.start files d], after⟩
      · exact ⟨[], looked⟩

/-- **What the paste does is what its progress says**: in every run some run of the other model
has a task with the same list at the same place, the same errors and the same requests. -/
theorem paste_progresses (disk : Nat → Disk) (events : List Event) (short : ∀ e ∈ events, e.Short) :
    ∃ es : List Progress.Event,
      Tracks (Runs.run (step disk) {} events) (Runs.run Progress.PasteTask.step {} es) := by
  induction events using List.reverseRecOn with
  | nil => exact ⟨[], rfl, .inl ⟨rfl, rfl⟩⟩
  | append_singleton events e ih =>
    simp only [List.mem_append, List.mem_singleton] at short
    obtain ⟨es, tracks⟩ := ih fun e mem => short e (.inl mem)
    obtain ⟨next, after⟩ := @tracks_step disk _ _ tracks _ (short e (.inr rfl))
    refine ⟨es ++ next, ?_⟩
    rw [Runs.run_append, Runs.run_append]
    exact after

end Task

end CamelliaRemote.Clipboard.Paste
