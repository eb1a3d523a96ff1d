import CamelliaRemote.Clipboard.PasteProgress

namespace CamelliaRemote.Clipboard.Progress
open Runs MachineInt

namespace Handle

/-- What a task with an open file is at. -/
def AtFile (h : Handle) (data : Codec.Bytes) : Prop :=
  0 ≤ h.listIndex ∧ h.listIndex < h.files.length ∧ ∃ f, h.files[h.listIndex.toNat]? = some f ∧
    f.kind = .file ∧ f.size ≠ 0 ∧ h.offset < f.size ∧ h.offset = data.length

/-- The entries a loop of `update_next` searches a name for. -/
def searched : List FileDescription → Nat → List Nat
  | [], _ => []
  | fileDesc :: rest, i =>
    match fileDesc.kind with
    | .file => i :: if fileDesc.size = 0 then searched rest (i + 1) else []
    | _ => searched rest (i + 1)

/-- When the file ends, its own name is searched for, and those of the entries up to the next file
with contents. -/
def searchedNext (h : Handle) : List Nat :=
  let i := h.listIndex.toNat
  i :: searched (h.entriesFrom (i + 1)) (i + 1)

/-- The bytes of the task stay below `2^64`, and every name that is searched for is found. -/
def Room (h : Handle) (size : Nat) (disk : Disk) : Prop :=
  h.fileHandle ≠ none → disk.writes = true →
    h.currentSize + size < 2 ^ 64 ∧
      (h.downloadFileSize ≤ h.offset + size → ∀ j ∈ h.searchedNext, disk.named j = true)

/-- The response has the connection of the file, and there is room for its data. -/
def Admits (h : Handle) (response : Response) (disk : Disk) : Prop :=
  (∀ f, h.file response.streamId = some f → f.connId = response.connId) ∧
    h.Room response.requestedData.length disk

/-- The worker looks at the data of the response. -/
def Accepts (h : Handle) (response : Response) : Prop :=
  h.isFinished = false ∧ response.streamId = h.listIndex ∧ response.msgFlags = 0x01

end Handle

namespace PasteTask
variable (t : PasteTask)

/-- Nothing overflows, no branch is reached that is marked unreachable, and an open file is in
its place. -/
def Sound : Prop :=
  ∀ h, t.handle = some h →
    h.faults = [] ∧ ∀ data, h.isFinished = false → h.fileHandle = some data → h.AtFile data

def Fits : Event → Prop
  | .start files disk =>
    t.isFinished = true → (files.map (·.size)).sum < 2 ^ 64 ∧
      ∀ j ∈ Handle.searched ((t.newHandle files).entriesFrom 0) 0, disk.named j = true
  | .receive response disk =>
    ∀ h, t.handle = some h → h.Accepts response → h.Admits response disk
  | _ => True

end PasteTask

/-! ## The loop of `update_next` -/

namespace Handle
variable {disk : Disk} {h : Handle}

theorem file_natCast (h : Handle) (i : Nat) : h.file i = h.files[i]? := by
  simp [file]

theorem file_of_files {i : Nat} {f : FileDescription} (at_i : h.files[i]? = some f) :
    h.file i = some f := (file_natCast h i).trans at_i

theorem entriesFrom_congr {h' : Handle} (same : h'.files = h.files) (i : Nat) :
    h'.entriesFrom i = h.entriesFrom i := by
  simp only [entriesFrom, count, same]

theorem entriesFrom_cons {i : Nat} {f : FileDescription} {rest : List FileDescription}
    (split : h.entriesFrom i = f :: rest) :
    h.files[i]? = some f ∧ (i : Int) < h.count ∧ h.entriesFrom (i + 1) = rest := by
  have at_i : (h.files.take h.count.toNat)[i]? = some f := by
    rw [← List.head?_drop]
    exact congrArg List.head? split
  rw [List.getElem?_take] at at_i
  refine ⟨?_, ?_, ?_⟩
  · split at at_i
    · exact at_i
    · cases at_i
  · split at at_i
    · omega
    · cases at_i
  · have next := congrArg List.tail split
    rwa [entriesFrom, List.tail_drop] at next

/-- What the file operations of a task leave alone. -/
structure Core where
  number : Nat
  totalSize : Nat
  currentSize : Nat
  isCanceled : Bool
  files : List FileDescription
  taken : List (Nat × Response)
  sent : List Request

abbrev core (h : Handle) : Core :=
  ⟨h.number, h.totalSize, h.currentSize, h.isCanceled, h.files, h.taken, h.sent⟩

theorem core_createEmpty (i : Nat) : (h.createEmpty disk i).core = h.core := by
  unfold createEmpty
  split
  · split <;> rfl
  · rfl

theorem core_createDir (i : Nat) : (h.createDir disk i).core = h.core := by
  unfold createDir
  split
  · split <;> rfl
  · rfl
  · rfl

theorem files_of_core {h' : Handle} (same : h'.core = h.core) : h'.files = h.files :=
  congrArg Core.files same

/-- **The loop.** What an empty file, a directory and a link keep holds at the next file with
contents, or at the end. -/
theorem nextFile_rec {I : Nat → Handle → Prop}
    (empty : ∀ (i : Nat) (f : FileDescription) (h : Handle),
      h.entriesFrom i = f :: h.entriesFrom (i + 1) →
      f.kind = .file → f.size = 0 → I i h → I (i + 1) (h.createEmpty disk i))
    (dir : ∀ (i : Nat) (f : FileDescription) (h : Handle),
      h.entriesFrom i = f :: h.entriesFrom (i + 1) →
      f.kind = .directory → I i h → I (i + 1) (h.createDir disk i))
    (link : ∀ (i : Nat) (f : FileDescription) (h : Handle),
      h.entriesFrom i = f :: h.entriesFrom (i + 1) → f.kind = .symlink → I i h → I (i + 1) h)
    {rest : List FileDescription} {i : Nat} {h : Handle} (split : h.entriesFrom i = rest)
    (inv : I i h) :
    (∃ j h', I j h' ∧ h'.core = h.core ∧ h'.entriesFrom j = [] ∧
      nextFile disk rest i h = (.ok (), h')) ∨
    ∃ (j : Nat) (f : FileDescription) (h' : Handle), I j h' ∧ h'.core = h.core ∧
      h'.entriesFrom j = f :: h'.entriesFrom (j + 1) ∧ f.kind = .file ∧ f.size ≠ 0 ∧
      nextFile disk rest i h = { h' with listIndex := j, offset := 0 }.openNewWriter disk := by
  induction rest generalizing i h with
  | nil => exact .inl ⟨i, h, inv, rfl, split, rfl⟩
  | cons f rest ih =>
    obtain ⟨-, -, next⟩ := entriesFrom_cons split
    have here : h.entriesFrom i = f :: h.entriesFrom (i + 1) := by rw [split, next]
    have goesOn {h' : Handle} (core : h'.core = h.core) (inv' : I (i + 1) h') := by
      have rest' := ih ((entriesFrom_congr (files_of_core core) _).trans next) inv'
      rw [core] at rest'
      exact rest'
    cases kind : f.kind with
    | file =>
      by_cases zero : f.size = 0
      · simp only [nextFile, kind, if_pos zero]
        exact goesOn (core_createEmpty i) (empty i f h here kind zero inv)
      · simp only [nextFile, kind, if_neg zero]
        exact .inr ⟨i, f, h, inv, rfl, here, kind, zero, rfl⟩
    | directory =>
      simp only [nextFile, kind]
      exact goesOn (core_createDir i) (dir i f h here kind inv)
    | symlink =>
      simp only [nextFile, kind]
      exact goesOn rfl (link i f h here kind inv)

/-! ## Where a task is -/

/-- The task is at the `i`-th entry, a file with contents. -/
structure Reading (h : Handle) (i : Nat) (f : FileDescription) : Prop where
  index : h.listIndex = i
  file : h.files[i]? = some f
  below : (i : Int) < h.count
  regular : f.kind = .file
  nonempty : f.size ≠ 0
  within : h.offset < f.size
  counted : h.offset ≤ h.currentSize
  writer : ∀ data, h.fileHandle = some data →
    data.length = h.offset ∧ h.downloadFileIndex = i ∧ h.downloadFileSize = f.size ∧
      h.downloadFileCurrentSize = h.offset

theorem Reading.toNat_index {i : Nat} {f : FileDescription} (reading : h.Reading i f) :
    h.listIndex.toNat = i := by
  rw [reading.index, Int.toNat_natCast]

/-- The file that a response with the stream id of the task is for. -/
theorem Reading.found {i : Nat} {f : FileDescription} (reading : h.Reading i f) {n : Int}
    (stream : n = h.listIndex) : h.file n = some f := by
  rw [stream, reading.index]
  exact file_of_files reading.file

/-- The task is at a file, or at its end with no file open. -/
def Place (h : Handle) : Prop :=
  h.fileHandle = none ∧ h.count ≤ h.listIndex ∨ ∃ i f, h.Reading i f

def Settled (h : Handle) : Prop := h.isCanceled = false → h.error = none → h.Place

theorem isFinished_eq_false :
    h.isFinished = false ↔ h.isCanceled = false ∧ h.error = none ∧ h.listIndex < h.count := by
  simp [isFinished, and_assoc]

theorem Settled.reading (settled : h.Settled) (waiting : h.isFinished = false) :
    ∃ i f, h.Reading i f := by
  obtain ⟨goesOn, noError, before⟩ := isFinished_eq_false.mp waiting
  rcases settled goesOn noError with ⟨-, past⟩ | reading
  · omega
  · exact reading

/-- At the end of a task that is neither canceled nor failed no file is open. -/
theorem Settled.closed (settled : h.Settled) (goesOn : h.isCanceled = false)
    (noError : h.error = none) (finished : h.isFinished = true) : h.fileHandle = none := by
  rcases settled goesOn noError with ⟨closed, -⟩ | ⟨i, f, reading⟩
  · exact closed
  · have waiting := isFinished_eq_false.mpr
      ⟨goesOn, noError, by rw [reading.index]; exact reading.below⟩
    rw [finished] at waiting
    cases waiting

/-! ## Faults -/

theorem faults_fits {what : Fault} {sum : Nat} :
    (h.fits what sum).faults = [] ↔ h.faults = [] ∧ sum < 2 ^ 64 := by
  unfold fits fault
  split
  · rename_i small
    exact (and_iff_left small).symm
  · rename_i large
    exact iff_of_false (by simp) fun both => large both.2

theorem fits_of_lt {what : Fault} {sum : Nat} (h : Handle) (small : sum < 2 ^ 64) :
    h.fits what sum = h := if_pos small

theorem faults_createEmpty {i : Nat} :
    (h.createEmpty disk i).faults = [] ↔ h.faults = [] ∧ disk.named i = true := by
  unfold createEmpty fault
  split
  · split <;> simp [*]
  · simp [*]

theorem faults_createDir {i : Nat} : (h.createDir disk i).faults = h.faults := by
  unfold createDir
  split
  · split <;> rfl
  · rfl
  · rfl

theorem faults_openNewWriter {j : Nat} {f : FileDescription} (at_j : h.files[j]? = some f) :
    ({ h with listIndex := j, offset := 0 }.openNewWriter disk).2.faults = [] ↔
      h.faults = [] ∧ disk.named j = true := by
  have found : ({ h with listIndex := j, offset := 0 } : Handle).file j = some f :=
    file_of_files at_j
  unfold openNewWriter
  simp only [found, Int.toNat_natCast]
  split
  · split <;> simp [*]
  · simp [fault, *]

theorem faults_nextFile {rest : List FileDescription} {i : Nat} (split : h.entriesFrom i = rest) :
    (nextFile disk rest i h).2.faults = [] ↔
      h.faults = [] ∧ ∀ j ∈ searched rest i, disk.named j = true := by
  induction rest generalizing i h with
  | nil => simp [nextFile, searched]
  | cons f rest ih =>
    obtain ⟨at_i, -, next⟩ := entriesFrom_cons split
    cases kind : f.kind with
    | file =>
      by_cases zero : f.size = 0
      · have same := files_of_core (@core_createEmpty disk h i)
        simp only [nextFile, searched, kind, if_pos zero]
        rw [ih ((entriesFrom_congr same _).trans next), faults_createEmpty, List.forall_mem_cons,
          and_assoc]
      · simp only [nextFile, searched, kind, if_neg zero]
        rw [faults_openNewWriter at_i]
        simp
    | directory =>
      have same := files_of_core (@core_createDir disk h i)
      simp only [nextFile, searched, kind]
      rw [ih ((entriesFrom_congr same _).trans next), faults_createDir]
    | symlink =>
      simp only [nextFile, searched, kind]
      exact ih next

/-! ## The next file -/

theorem openNewWriter_reading {j : Nat} {f : FileDescription} (at_j : h.files[j]? = some f)
    (below : (j : Int) < h.count) (regular : f.kind = .file) (nonempty : f.size ≠ 0)
    (closed : h.fileHandle = none) :
    let r := { h with listIndex := j, offset := 0 }.openNewWriter disk
    r.2.Reading j f ∧ r.2.core = h.core := by
  have found : ({ h with listIndex := j, offset := 0 } : Handle).file j = some f :=
    file_of_files at_j
  have positive := Nat.pos_of_ne_zero nonempty
  unfold openNewWriter
  simp only [found, Int.toNat_natCast]
  split
  · split
    · exact ⟨⟨rfl, at_j, below, regular, nonempty, positive, Nat.zero_le _, by
        intro data opened
        cases opened
        exact ⟨rfl, rfl, rfl, rfl⟩⟩, rfl⟩
    · exact ⟨⟨rfl, at_j, below, regular, nonempty, positive, Nat.zero_le _, by simp [closed]⟩, rfl⟩
    · exact ⟨⟨rfl, at_j, below, regular, nonempty, positive, Nat.zero_le _, by simp [closed]⟩, rfl⟩
  · exact ⟨⟨rfl, at_j, below, regular, nonempty, positive, Nat.zero_le _, by
      simp [fault, closed]⟩, rfl⟩

theorem nextFile_reading {rest : List FileDescription} {i : Nat} (split : h.entriesFrom i = rest)
    (closed : h.fileHandle = none) :
    let r := nextFile disk rest i h
    r.2.core = h.core ∧
      (r.1 = .ok () ∧ r.2.fileHandle = none ∨ ∃ j f, r.2.Reading j f) := by
  have loop := @nextFile_rec disk (fun _ h => h.fileHandle = none)
    (fun i f h _ _ _ closed => by
      unfold createEmpty
      split
      · split <;> exact closed
      · exact closed)
    (fun i f h _ _ closed => by
      unfold createDir
      split
      · split <;> exact closed
      · exact closed
      · exact closed)
    (fun _ _ _ _ _ closed => closed) rest i h split closed
  rcases loop with ⟨j, h', closed', core', -, eq⟩ | ⟨j, f, h', closed', core', here, regular,
    nonempty, eq⟩
  · rw [eq]
    exact ⟨core', .inl ⟨rfl, closed'⟩⟩
  · rw [eq]
    obtain ⟨at_j, below, -⟩ := entriesFrom_cons here
    obtain ⟨reading, same⟩ := @openNewWriter_reading disk h' j f at_j below regular nonempty closed'
    exact ⟨same.trans core', .inr ⟨j, f, reading⟩⟩

/-! ## The end of a file -/

theorem onDone_closed (closed : h.fileHandle = none) : h.onDone disk = h := by
  simp only [onDone, closed]

theorem onDone_open {i : Nat} {f : FileDescription} {data : Codec.Bytes}
    (at_i : h.files[i]? = some f) (opened : h.fileHandle = some data)
    (index : h.downloadFileIndex = i) :
    h.onDone disk = { h with fileHandle := none }.rename disk i data := by
  have found : h.file h.downloadFileIndex = some f := by
    rw [index]
    exact file_of_files at_i
  have valid : h.downloadFileIndex ≠ -1 := by omega
  have here : h.downloadFileIndex.toNat = i := by omega
  simp only [onDone, opened, if_neg valid, found, here]

theorem core_rename (i : Nat) (data : Codec.Bytes) : (h.rename disk i data).core = h.core := by
  unfold rename
  split <;> rfl

theorem fileHandle_rename (i : Nat) (data : Codec.Bytes) :
    (h.rename disk i data).fileHandle = h.fileHandle := by
  unfold rename
  split <;> rfl

theorem faults_rename {i : Nat} {data : Codec.Bytes} :
    (h.rename disk i data).faults = [] ↔ h.faults = [] ∧ disk.named i = true := by
  unfold rename
  split
  · rename_i named
    exact (and_iff_left named).symm
  · rename_i unnamed
    exact iff_of_false (by simp [fault]) fun both => unnamed both.2

theorem core_endUnlessOpen (h : Handle) : h.endUnlessOpen.core = h.core := by
  unfold endUnlessOpen
  split
  · rfl
  · rfl

theorem faults_endUnlessOpen (h : Handle) : h.endUnlessOpen.faults = h.faults := by
  unfold endUnlessOpen
  split
  · rfl
  · rfl

theorem core_endAfter (r : Except Failure Unit × Handle) : (endAfter r).2.core = r.2.core := by
  obtain ⟨result, h⟩ := r
  cases result with
  | error e => rfl
  | ok => exact core_endUnlessOpen h

theorem faults_endAfter (r : Except Failure Unit × Handle) :
    (endAfter r).2.faults = r.2.faults := by
  obtain ⟨result, h⟩ := r
  cases result with
  | error e => rfl
  | ok => exact faults_endUnlessOpen h

/-- With no file open the task is at its end, unless opening the file was refused. -/
theorem place_endAfter {r : Except Failure Unit × Handle}
    (there : r.1 = .ok () ∧ r.2.fileHandle = none ∨ ∃ i f, r.2.Reading i f) :
    (endAfter r).2.Place := by
  obtain ⟨result, h⟩ := r
  cases result with
  | error e =>
    rcases there with ⟨ok, -⟩ | reading
    · cases ok
    · exact .inr reading
  | ok =>
    simp only [endAfter, endUnlessOpen]
    split
    · rename_i data opened
      rcases there with ⟨-, closed⟩ | reading
      · rw [opened] at closed
        cases closed
      · exact .inr reading
    · rename_i closed
      refine .inl ⟨closed, ?_⟩
      simp only [count, le_refl]

/-! ## A block -/

/-- The `i`-th entry is open, and `size` bytes more were written to it. -/
structure Writing (h : Handle) (i : Nat) (f : FileDescription) (size : Nat) : Prop where
  index : h.listIndex = i
  file : h.files[i]? = some f
  below : (i : Int) < h.count
  regular : f.kind = .file
  nonempty : f.size ≠ 0
  written : ∃ data, h.fileHandle = some data ∧ data.length = h.offset + size
  downloadIndex : h.downloadFileIndex = i
  downloadSize : h.downloadFileSize = f.size
  downloadCurrent : h.downloadFileCurrentSize = h.offset

theorem Reading.write {i : Nat} {f : FileDescription} {data : Codec.Bytes}
    (reading : h.Reading i f) (opened : h.fileHandle = some data) (response : Response) :
    (h.write response data).Writing i f response.requestedData.length := by
  obtain ⟨len, downloadIndex, downloadSize, downloadCurrent⟩ := reading.writer data opened
  exact { reading with
    downloadIndex, downloadSize, downloadCurrent
    written := ⟨_, rfl, by rw [List.length_append, len]; rfl⟩ }

variable {i size : Nat} {f : FileDescription}

theorem Writing.fits {what : Fault} {sum : Nat} (writing : h.Writing i f size) :
    (h.fits what sum).Writing i f size := by
  unfold Handle.fits
  split
  · exact writing
  · exact { writing with }

/-- The block ends the file, or it does not. -/
theorem Writing.advance_eq (writing : h.Writing i f size) :
    h.advance disk size =
      if h.downloadFileSize ≤ (h.offset + size) % 2 ^ 64 then
        nextFile disk (h.entriesFrom (i + 1)) (i + 1)
          ((h.fits .offset (h.offset + size)).onDone disk)
      else
        (.ok (), { (h.fits .offset (h.offset + size)).fits .downloadFileCurrentSize
            (h.offset + size) with
          offset := (h.offset + size) % 2 ^ 64
          downloadFileCurrentSize := (h.offset + size) % 2 ^ 64 }) := by
  have first : h.listIndex ≠ -1 := by
    have index := writing.index
    omega
  have next : (h.listIndex + 1).toNat = i + 1 := by
    have index := writing.index
    omega
  have entries (what : Fault) (sum j : Nat) :
      (h.fits what sum).entriesFrom j = h.entriesFrom j := by
    unfold Handle.fits
    split <;> rfl
  have current (what : Fault) (sum : Nat) :
      (h.fits what sum).downloadFileCurrentSize = h.offset := by
    unfold Handle.fits
    split <;> exact writing.downloadCurrent
  have downloadSize (what : Fault) (sum : Nat) :
      (h.fits what sum).downloadFileSize = h.downloadFileSize := by
    unfold Handle.fits
    split <;> rfl
  have index (what : Fault) (sum : Nat) : (h.fits what sum).listIndex = h.listIndex := by
    unfold Handle.fits
    split <;> rfl
  simp only [advance, if_neg first, downloadSize, index, next, entries, current]

theorem faults_advance (writing : h.Writing i f size) :
    (h.advance disk size).2.faults = [] ↔
      h.faults = [] ∧ h.offset + size < 2 ^ 64 ∧
        (h.downloadFileSize ≤ (h.offset + size) % 2 ^ 64 →
          ∀ j ∈ h.searchedNext, disk.named j = true) := by
  have here : h.listIndex.toNat = i := by
    have index := writing.index
    omega
  rw [writing.advance_eq]
  split
  · rename_i ends
    have writing' : (h.fits .offset (h.offset + size)).Writing i f size := writing.fits
    obtain ⟨data, opened, -⟩ := writing'.written
    have split : ((h.fits .offset (h.offset + size)).onDone disk).entriesFrom (i + 1) =
        h.entriesFrom (i + 1) := by
      rw [onDone_open writing'.file opened writing'.downloadIndex]
      refine entriesFrom_congr ?_ _
      rw [files_of_core (core_rename i data)]
      unfold Handle.fits
      split <;> rfl
    rw [faults_nextFile split, onDone_open writing'.file opened writing'.downloadIndex,
      faults_rename, faults_fits, searchedNext, here, List.forall_mem_cons]
    simp only [ends, true_imp_iff, and_assoc]
  · rename_i goesOn
    rw [faults_fits, faults_fits]
    simp only [goesOn, false_imp_iff, and_true, and_assoc, and_self]

/-- The total of the task with a block more. -/
theorem Writing.count_more (writing : h.Writing i f size) (currentSize : Nat) :
    ({ h with currentSize } : Handle).Writing i f size := { writing with }

theorem updateNext_waiting (waiting : h.isFinished = false) (size : Nat) :
    h.updateNext disk size = endAfter
      ({ h.fits .currentSize (h.currentSize + size) with
        currentSize := (h.currentSize + size) % 2 ^ 64 }.advance disk size) := by
  rw [updateNext, waiting, if_neg Bool.false_ne_true]

theorem faults_updateNext (writing : h.Writing i f size) (counted : h.offset ≤ h.currentSize)
    (waiting : h.isFinished = false) :
    (h.updateNext disk size).2.faults = [] ↔
      h.faults = [] ∧ h.currentSize + size < 2 ^ 64 ∧
        (h.downloadFileSize ≤ h.offset + size → ∀ j ∈ h.searchedNext, disk.named j = true) := by
  have summed : (h.fits .currentSize (h.currentSize + size)).Writing i f size := writing.fits
  have more := @faults_advance disk _ i size f
    (summed.count_more ((h.currentSize + size) % 2 ^ 64))
  rw [updateNext_waiting waiting, faults_endAfter, more]
  by_cases small : h.currentSize + size < 2 ^ 64
  · have offset : h.offset + size < 2 ^ 64 := by omega
    rw [fits_of_lt h small]
    simp only [Nat.mod_eq_of_lt offset, offset, small, true_and]
    rfl
  · refine iff_of_false (fun all => small ?_) fun all => small all.2.1
    exact (faults_fits.mp all.1).2

theorem Writing.onDone (writing : h.Writing i f size) :
    (h.onDone disk).fileHandle = none ∧ (h.onDone disk).core = h.core := by
  obtain ⟨data, opened, -⟩ := writing.written
  rw [onDone_open writing.file opened writing.downloadIndex, fileHandle_rename, core_rename]
  exact ⟨rfl, rfl⟩

/-- After a block the task is at a file or at its end. -/
theorem place_advance (writing : h.Writing i f size) (counted : h.offset + size ≤ h.currentSize)
    (small : h.offset + size < 2 ^ 64) :
    (endAfter (h.advance disk size)).2.Place ∧ (h.advance disk size).2.core = h.core := by
  rw [writing.advance_eq]
  simp only [Nat.mod_eq_of_lt small, fits_of_lt _ small]
  split
  · obtain ⟨closed, core⟩ := @Writing.onDone disk _ _ _ _ writing
    have split := entriesFrom_congr (files_of_core core) (i + 1)
    obtain ⟨same, there⟩ := @nextFile_reading disk _ _ _ split closed
    exact ⟨place_endAfter there, same.trans core⟩
  · rename_i goesOn
    obtain ⟨data, opened, len⟩ := writing.written
    refine ⟨place_endAfter (.inr ⟨i, f, ?_⟩), rfl⟩
    have within : h.offset + size < f.size := by
      rw [← writing.downloadSize]
      exact Nat.not_le.mp goesOn
    exact {
      index := writing.index
      file := writing.file
      below := writing.below
      regular := writing.regular
      nonempty := writing.nonempty
      within
      counted
      writer := fun data' opened' => by
        obtain rfl := Option.some.inj (opened.symm.trans opened')
        exact ⟨len, writing.downloadIndex, writing.downloadSize, rfl⟩ }

theorem place_updateNext (writing : h.Writing i f size) (counted : h.offset ≤ h.currentSize)
    (waiting : h.isFinished = false) (small : h.currentSize + size < 2 ^ 64) :
    (h.updateNext disk size).2.Place ∧
      (h.updateNext disk size).2.core = { h.core with currentSize := h.currentSize + size } := by
  have offset : h.offset + size < 2 ^ 64 := by omega
  rw [updateNext_waiting waiting, fits_of_lt h small, Nat.mod_eq_of_lt small, core_endAfter]
  exact place_advance (writing.count_more _) (Nat.add_le_add_right counted size) offset

/-! ## The first file -/

/-- The handle of `start`, before its first `update_next`. -/
structure Fresh (h : Handle) : Prop where
  index : h.listIndex = -1
  none' : h.currentSize = 0
  closed : h.fileHandle = none
  goesOn : h.isCanceled = false
  noError : h.error = none

theorem Fresh.finished_iff (fresh : h.Fresh) : h.isFinished = true ↔ h.count ≤ -1 := by
  simp [isFinished, fresh.index, fresh.goesOn, fresh.noError]

theorem Fresh.updateNext_eq (fresh : h.Fresh) (waiting : h.isFinished = false) :
    h.updateNext disk 0 = endAfter (nextFile disk (h.entriesFrom 0) 0 h) := by
  have same : ({ h with currentSize := 0 } : Handle) = h := by
    rw [← fresh.none']
  rw [updateNext_waiting waiting, fresh.none', fits_of_lt h (by decide), Nat.zero_mod, same,
    advance, if_pos fresh.index]

/-- A list whose length does not fit is taken for one that is at its end. -/
theorem Fresh.entriesFrom_eq (fresh : h.Fresh) (finished : h.isFinished = true) :
    h.entriesFrom 0 = [] := by
  have below := fresh.finished_iff.mp finished
  have zero : h.count.toNat = 0 := by omega
  rw [entriesFrom, zero, List.take_zero, List.drop_nil]

theorem Fresh.faults_updateNext (fresh : h.Fresh) :
    (h.updateNext disk 0).2.faults = [] ↔
      h.faults = [] ∧ ∀ j ∈ searched (h.entriesFrom 0) 0, disk.named j = true := by
  cases finished : h.isFinished with
  | true =>
    rw [updateNext, finished, if_pos rfl, fresh.entriesFrom_eq finished]
    simp [searched]
  | false => rw [fresh.updateNext_eq finished, faults_endAfter, faults_nextFile rfl]

theorem Fresh.place_updateNext (fresh : h.Fresh) :
    (h.updateNext disk 0).2.Place ∧ (h.updateNext disk 0).2.core = h.core := by
  cases finished : h.isFinished with
  | true =>
    rw [updateNext, finished, if_pos rfl]
    refine ⟨.inl ⟨fresh.closed, ?_⟩, rfl⟩
    rw [fresh.index]
    exact fresh.finished_iff.mp finished
  | false =>
    obtain ⟨same, there⟩ := @nextFile_reading disk h _ _ rfl fresh.closed
    rw [fresh.updateNext_eq finished, core_endAfter]
    exact ⟨place_endAfter there, same⟩

/-! ## The next request -/

theorem faults_onDone (clean : (h.onDone disk).faults = []) : h.faults = [] := by
  unfold onDone at clean
  split at clean
  · exact clean
  · split at clean
    · exact clean
    · simp only at clean
      split at clean
      · simp [fault] at clean
      · exact (faults_rename.mp clean).1

theorem faults_checkTotal (h : Handle) : h.checkTotal.faults = h.faults := by
  unfold checkTotal
  split <;> rfl

theorem faults_onFinished (clean : (h.onFinished disk).faults = []) : h.faults = [] := by
  rw [onFinished, faults_checkTotal, cancelledOrDone] at clean
  split at clean
  · exact clean
  · exact faults_onDone clean

theorem faults_sendFileContentsRequest (clean : h.sendFileContentsRequest.2.faults = []) :
    h.faults = [] := by
  unfold sendFileContentsRequest at clean
  split at clean
  · exact clean
  · split at clean
    · simp [fault] at clean
    · simp only at clean
      split at clean
      · simp [fault] at clean
      · exact clean

theorem faults_requestOrFail (clean : h.requestOrFail.faults = []) : h.faults = [] := by
  refine faults_sendFileContentsRequest ?_
  unfold requestOrFail at clean
  split at clean
  · rename_i sent
    rw [sent]
    exact clean
  · rename_i failed
    rw [failed]
    exact clean

theorem faults_proceed (clean : (h.proceed disk).faults = []) : h.faults = [] := by
  unfold proceed at clean
  split at clean
  · exact faults_onFinished clean
  · exact faults_requestOrFail clean

theorem Reading.requestOrFail_eq {i : Nat} {f : FileDescription} (reading : h.Reading i f)
    (waiting : h.isFinished = false) :
    h.requestOrFail = { h with sent := h.sent ++ [h.request f] } := by
  have found := reading.found rfl
  have inside : ¬ f.size < h.offset := by
    have within := reading.within
    omega
  simp only [requestOrFail, sendFileContentsRequest, waiting, Bool.false_eq_true, if_false, found,
    if_neg inside]

theorem settled_checkTotal (settled : h.Settled) : h.checkTotal.Settled := by
  unfold checkTotal
  split
  · exact fun _ noError => by cases noError
  · exact settled

theorem settled_onFinished (settled : h.Settled) (goesOn : h.isCanceled = false)
    (finished : h.isFinished = true) :
    (h.onFinished disk).Settled ∧ (h.onFinished disk).faults = h.faults := by
  rw [onFinished, faults_checkTotal, cancelledOrDone]
  cases failed : h.error with
  | some e =>
    refine ⟨settled_checkTotal fun _ noError => ?_, rfl⟩
    have kept : h.onCancelled.error = some e := failed
    rw [Option.isSome_some, if_pos rfl, kept] at noError
    cases noError
  | none =>
    have closed := settled.closed goesOn failed finished
    rw [Option.isSome_none, if_neg Bool.false_ne_true, onDone_closed closed]
    exact ⟨settled_checkTotal settled, rfl⟩

/-- After a response, and when a task starts. -/
theorem settled_proceed (settled : h.Settled) (goesOn : h.isCanceled = false) :
    (h.proceed disk).Settled ∧ (h.proceed disk).faults = h.faults := by
  unfold proceed
  split
  · rename_i finished
    exact settled_onFinished settled goesOn finished
  · rename_i waiting
    rw [Bool.not_eq_true] at waiting
    obtain ⟨i, f, reading⟩ := settled.reading waiting
    rw [reading.requestOrFail_eq waiting]
    exact ⟨fun _ _ => .inr ⟨i, f, { reading with }⟩, rfl⟩

/-! ## A response -/

theorem settled_onError (h : Handle) (error : Failure) : (h.onError error).Settled :=
  fun _ noError => by cases noError

theorem faults_handleOrFail {i : Nat} {f : FileDescription} (reading : h.Reading i f)
    (waiting : h.isFinished = false) (response : Response) :
    (h.handleOrFail disk response).faults = [] ↔
      h.faults = [] ∧ h.Room response.requestedData.length disk := by
  have result : (h.handleOrFail disk response).faults =
      (h.handleFileContentsResponse disk response).2.faults := by
    unfold handleOrFail
    split
    · rename_i eq
      rw [eq]
    · rename_i eq
      rw [eq]
      rfl
  rw [result, handleFileContentsResponse, Room]
  cases opened : h.fileHandle with
  | none => simp
  | some data =>
    cases writes : disk.writes with
    | false => simp
    | true =>
      have updated := @faults_updateNext disk _ _ _ f (reading.write opened response)
        reading.counted waiting
      simp only [if_pos, ne_eq, reduceCtorEq, not_false_eq_true, true_imp_iff]
      exact updated

theorem settled_handleOrFail {i : Nat} {f : FileDescription} (reading : h.Reading i f)
    (waiting : h.isFinished = false) {response : Response}
    (room : h.Room response.requestedData.length disk) :
    (h.handleOrFail disk response).Settled ∧
      (h.handleOrFail disk response).isCanceled = false := by
  have goesOn := (isFinished_eq_false.mp waiting).1
  unfold handleOrFail handleFileContentsResponse
  cases opened : h.fileHandle with
  | none => exact ⟨settled_onError _ _, goesOn⟩
  | some data =>
    cases writes : disk.writes with
    | false => exact ⟨settled_onError _ _, goesOn⟩
    | true =>
      obtain ⟨small, -⟩ := room (by simp [opened]) writes
      obtain ⟨place, core⟩ := @place_updateNext disk _ _ _ f (reading.write opened response)
        reading.counted waiting small
      have goesOn' := (congrArg Core.isCanceled core).trans goesOn
      simp only [if_pos]
      split
      · rename_i eq
        rw [eq] at place goesOn'
        exact ⟨fun _ _ => place, goesOn'⟩
      · rename_i eq
        rw [eq] at goesOn'
        exact ⟨settled_onError _ _, goesOn'⟩

end Handle

/-! ## The worker -/

namespace PasteTask
variable {t : PasteTask}

def Inv (t : PasteTask) : Prop := ∀ h, t.handle = some h → h.faults = [] ∧ h.Settled

theorem Inv.sound (inv : Inv t) : t.Sound := by
  intro h mem
  obtain ⟨clean, settled⟩ := inv h mem
  refine ⟨clean, fun data waiting opened => ?_⟩
  obtain ⟨i, f, reading⟩ := settled.reading waiting
  have below := (List.getElem?_eq_some_iff.mp reading.file).1
  have index := reading.index
  refine ⟨by omega, by omega, f, ?_, reading.regular, reading.nonempty, reading.within,
    (reading.writer data opened).1.symm⟩
  rw [index, Int.toNat_natCast]
  exact reading.file

theorem fresh_newHandle (files : List FileDescription) : (t.newHandle files).Fresh := by
  simp only [newHandle, Handle.fits]
  split <;> exact ⟨rfl, rfl, rfl, rfl, rfl⟩

theorem inv_start {files : List FileDescription} {disk : Disk} (inv : Inv t)
    (fits : t.Fits (.start files disk)) : Inv (t.start files disk) := by
  unfold start
  split
  · rename_i finished
    obtain ⟨small, named⟩ := fits finished
    have fresh : (t.newHandle files).Fresh := fresh_newHandle files
    obtain ⟨place, core⟩ := @Handle.Fresh.place_updateNext disk _ fresh
    have goesOn := (congrArg Handle.Core.isCanceled core).trans fresh.goesOn
    obtain ⟨settled, faults⟩ := @Handle.settled_proceed disk _ (fun _ _ => place) goesOn
    intro h mem
    obtain rfl := Option.some.inj mem
    refine ⟨?_, settled⟩
    rw [faults, fresh.faults_updateNext]
    exact ⟨Handle.faults_fits.mpr ⟨rfl, small⟩, named⟩
  · exact inv

theorem fits_start {files : List FileDescription} {disk : Disk}
    (clean : ∀ h, (t.start files disk).handle = some h → h.faults = []) :
    t.Fits (.start files disk) := by
  intro finished
  rw [start, if_pos finished] at clean
  have fresh : (t.newHandle files).Fresh := fresh_newHandle files
  have before := Handle.faults_proceed (clean _ rfl)
  obtain ⟨first, named⟩ := fresh.faults_updateNext.mp before
  exact ⟨(Handle.faults_fits.mp first).2, named⟩

theorem inv_cancel (inv : Inv t) : Inv t.cancel := by
  intro h mem
  obtain ⟨h, was, rfl⟩ := Option.map_eq_some_iff.mp mem
  exact ⟨(inv h was).1, fun goesOn => by cases goesOn⟩

theorem inv_timeout (inv : Inv t) (overdue : Bool) (disk : Disk) :
    Inv (t.timeout overdue disk) := by
  unfold timeout
  split
  · exact inv
  · rename_i h was
    split
    · rename_i waiting
      obtain ⟨goesOn, -, -⟩ := Handle.isFinished_eq_false.mp waiting.1
      have settled : ({ h with error := some .timedOut } : Handle).Settled :=
        fun _ noError => by cases noError
      have finished : ({ h with error := some .timedOut } : Handle).isFinished = true := by
        simp [Handle.isFinished]
      obtain ⟨settled', faults⟩ := @Handle.settled_onFinished disk _ settled goesOn finished
      intro h' mem
      obtain rfl := Option.some.inj mem
      exact ⟨faults.trans (inv h was).1, settled'⟩
    · exact inv

theorem inv_proceed {disk : Disk} {h : Handle} (clean : h.faults = []) (settled : h.Settled)
    (goesOn : h.isCanceled = false) : Inv (t.proceed disk h) := by
  obtain ⟨settled', faults⟩ := @Handle.settled_proceed disk _ settled goesOn
  intro h' mem
  obtain rfl := Option.some.inj mem
  exact ⟨faults.trans clean, settled'⟩

theorem inv_retry {h : Handle} (clean : h.faults = []) (settled : h.Settled)
    (goesOn : h.isCanceled = false) (disk : Disk) : Inv (t.retry h disk) := by
  unfold retry
  refine inv_proceed ?_ ?_ ?_
  · split <;> exact clean
  · split
    · exact fun _ noError => by cases noError
    · exact settled
  · split <;> exact goesOn

theorem inv_receive {response : Response} {disk : Disk} (inv : Inv t)
    (fits : t.Fits (.receive response disk)) : Inv (t.receive response disk) := by
  unfold receive
  split
  · exact inv
  · rename_i h was
    obtain ⟨clean, settled⟩ := inv h was
    split
    · exact inv
    · rename_i here
      push Not at here
      obtain ⟨waiting, stream⟩ := here
      rw [ne_eq, Bool.not_eq_true] at waiting
      obtain ⟨goesOn, -, -⟩ := Handle.isFinished_eq_false.mp waiting
      split
      · exact inv_retry clean settled goesOn disk
      · rename_i flags
        obtain ⟨conn, room⟩ := fits h was ⟨waiting, stream, not_ne_iff.mp flags⟩
        obtain ⟨i, f, reading⟩ := settled.reading waiting
        have found := reading.found stream
        obtain ⟨settled', goesOn'⟩ := Handle.settled_handleOrFail reading waiting room
        have same : ¬ f.connId ≠ response.connId := not_ne_iff.mpr (conn f found)
        simp only [handleData, found, if_neg same]
        exact inv_proceed ((Handle.faults_handleOrFail reading waiting response).mpr ⟨clean, room⟩)
          settled' goesOn'

theorem fits_receive {response : Response} {disk : Disk} (inv : Inv t)
    (clean : ∀ h, (t.receive response disk).handle = some h → h.faults = []) :
    t.Fits (.receive response disk) := by
  rintro h was ⟨waiting, stream, flags⟩
  obtain ⟨i, f, reading⟩ := (inv h was).2.reading waiting
  have found := reading.found stream
  have here : ¬ (h.isFinished = true ∨ response.streamId ≠ h.listIndex) := by
    simp [waiting, stream]
  simp only [receive, was, if_neg here, flags, ne_eq, not_true_eq_false, if_false, handleData,
    found] at clean
  by_cases conn : f.connId = response.connId
  · rw [if_neg (not_not.mpr conn)] at clean
    have before := Handle.faults_proceed (clean _ rfl)
    refine ⟨fun f' found' => ?_,
      ((Handle.faults_handleOrFail reading waiting response).mp before).2⟩
    rw [found] at found'
    rw [← Option.some.inj found']
    exact conn
  · rw [if_pos conn] at clean
    have faulty := clean _ rfl
    simp [Handle.fault] at faulty

theorem inv_step {e : Event} (inv : Inv t) (fits : t.Fits e) : Inv (t.step e) := by
  cases e with
  | start files disk => exact inv_start inv fits
  | cancel => exact inv_cancel inv
  | receive response disk => exact inv_receive inv fits
  | timeout overdue disk => exact inv_timeout inv overdue disk

theorem fits_of_sound {e : Event} (inv : Inv t) (sound : (t.step e).Sound) : t.Fits e := by
  have clean : ∀ h, (t.step e).handle = some h → h.faults = [] := fun h mem => (sound h mem).1
  cases e with
  | start files disk => exact fits_start clean
  | cancel => trivial
  | receive response disk => exact fits_receive inv clean
  | timeout overdue disk => trivial

theorem along_sound_iff (inv : Inv t) (events : List Event) :
    Along step (fun t e => (t.step e).Sound) t events ↔ Along step Fits t events := by
  induction events generalizing t with
  | nil => rfl
  | cons e es ih =>
    constructor
    · rintro ⟨sound, rest⟩
      have fits := fits_of_sound inv sound
      exact ⟨fits, (ih (inv_step inv fits)).mp rest⟩
    · rintro ⟨fits, rest⟩
      have inv' := inv_step inv fits
      exact ⟨inv'.sound, (ih inv').mpr rest⟩

/-- **The arithmetic of a paste.** Nothing overflows, no branch marked unreachable is reached and
every open file is in its place, exactly when the totals stay below `2^64`, the responses have the
connection of their file and the names are found. -/
theorem progress_sound (events : List Event) :
    Along step (fun t e => (t.step e).Sound) {} events ↔ Along step Fits {} events :=
  along_sound_iff (fun _ mem => by cases mem) events

/-! ## A branch that is reached -/

def plainFile (connId : Int) (size : Nat) : FileDescription :=
  { connId, name := ['f'], kind := .file, atime := 0, lastModified := 0, lastMetadataChanged := 0,
    creationTime := 0, size, perm := permRw }

/-- Every file operation succeeds. -/
def allWell : Disk := ⟨fun _ => true, fun _ => true, fun _ => .absent, fun _ => true,
  fun _ => .opened, true, fun _ => true⟩

/-- The file is of connection 1, and connection 2 responds. -/
theorem other_connection_reaches :
    ¬ ∀ events : List Event, Along step (fun t e => (t.step e).Sound) {} events := by
  intro all
  obtain ⟨-, sound, -⟩ := all [.start [plainFile 1 4] allWell,
    .receive ⟨2, 0x01, 0, [1, 2, 3, 4], some (0, 0)⟩ allWell]
  have first : Inv (step {} (.start [plainFile 1 4] allWell)) := by
    refine inv_step (fun _ mem => by cases mem) fun _ => ⟨by decide, ?_⟩
    intro j _
    rfl
  obtain ⟨conn, -⟩ := fits_of_sound first sound _ rfl ⟨by decide, by decide, rfl⟩
  exact absurd (conn (plainFile 1 4) (by decide)) (by decide)

end PasteTask
end CamelliaRemote.Clipboard.Progress
