import CamelliaRemote.Clipboard.PasteBounds
import CamelliaRemote.Lib.Keyed

namespace CamelliaRemote.Clipboard.Progress
open Runs MachineInt

namespace Handle

/-- The data that was written to the `i`-th entry. -/
def got (h : Handle) (i : Nat) : Codec.Bytes :=
  Keyed.under (h.taken.map fun b => (b.1, b.2.requestedData)) i

/-- The entry is there, with what was written to it. -/
def Pasted (h : Handle) (i : Nat) (f : FileDescription) : Prop :=
  match f.kind with
  | .file => if f.size = 0 then i ∈ h.created else (i, h.got i) ∈ h.saved
  | .directory => i ∈ h.created ∨ i ∈ h.existing
  | .symlink => True

/-- The response answers a request of this task for the `i`-th entry. -/
def Own (h : Handle) (i : Nat) (response : Response) : Prop :=
  ∃ k request, response.answers = some (h.number, k) ∧ h.sent[k]? = some request ∧
    request.listIndex = i

structure Exact (h : Handle) : Prop where
  length : ∀ i f, h.files[i]? = some f → f.kind = .file → (h.got i).length = f.size
  pasted : ∀ i f, h.files[i]? = some f → h.Pasted i f
  own : ∀ b ∈ h.taken, h.Own b.1 b.2

/-- The directories that a loop of `update_next` passes. -/
def dirs : List FileDescription → Nat → List Nat
  | [], _ => []
  | fileDesc :: rest, i =>
    match fileDesc.kind with
    | .file => if fileDesc.size = 0 then dirs rest (i + 1) else []
    | .directory => i :: dirs rest (i + 1)
    | .symlink => dirs rest (i + 1)

end Handle

/-- A loop of `update_next` finds the names it searches for, and at the path of a directory
nothing but a directory. -/
structure Disk.Clear (disk : Disk) (entries : List FileDescription) (i : Nat) : Prop where
  named : ∀ j ∈ Handle.searched entries i, disk.named j = true
  dirs : ∀ j ∈ Handle.dirs entries i, disk.found j ≠ .other

/-- The file operations succeed. -/
structure Disk.Succeeds (disk : Disk) : Prop where
  created : ∀ i, disk.created i = true
  madeDir : ∀ i, disk.madeDir i = true
  opening : ∀ i, disk.opening i = .opened
  writes : disk.writes = true
  renamed : ∀ i, disk.renamed i = true

/-- The sizes of a list sum up below `2^64`, those of its directories are 0, and the file operations
succeed. -/
def Event.Ordinary : Event → Prop
  | .start files disk =>
    (files.map (·.size)).sum < 2 ^ 64 ∧ (∀ f ∈ files, f.kind = .directory → f.size = 0) ∧
      disk.Succeeds
  | .receive _ disk | .timeout _ disk => disk.Succeeds
  | .cancel => True

/-- The same when the file of the task ends, which gets its name first. -/
def Handle.ClearNext (h : Handle) (disk : Disk) : Prop :=
  disk.named h.listIndex.toNat = true ∧
    disk.Clear (h.entriesFrom (h.listIndex.toNat + 1)) (h.listIndex.toNat + 1)

namespace PasteTask
variable (t : PasteTask)

/-- A task that ended without an error, and was not canceled, is exact. -/
def Exact : Prop :=
  ∀ h, t.handle = some h → h.isFinished = true → h.error = none → h.isCanceled = false → h.Exact

/-- Every response that is taken answers a request of the task for the file, and the bytes of the
task stay below `2^64`; a list is shorter than `2^31`, and its links have no size. Names are found,
and no path of a directory is taken by anything else. -/
def Owned : Event → Prop
  | .start files disk =>
    t.isFinished = true → files.length < 2 ^ 31 ∧ (∀ f ∈ files, f.kind = .symlink → f.size = 0) ∧
      disk.Clear ((t.newHandle files).entriesFrom 0) 0
  | .receive response disk =>
    ∀ h, t.handle = some h → h.Accepts response →
      (∀ f, h.file response.streamId = some f → f.connId = response.connId) →
      h.Own response.streamId.toNat response ∧
        h.currentSize + response.requestedData.length < 2 ^ 64 ∧
          (h.downloadFileSize ≤ h.offset + response.requestedData.length → h.ClearNext disk)
  | _ => True

end PasteTask

namespace Handle
variable {disk : Disk} {h : Handle}

/-! ## What was taken -/

/-- The totals of a task and what it took, by what the file operations leave alone. -/
structure Counted (c : Core) : Prop where
  short : c.files.length < 2 ^ 31
  bare : ∀ f ∈ c.files, f.kind ≠ .file → f.size = 0
  total : c.totalSize = (c.files.map (·.size)).sum
  current : c.currentSize = (c.taken.map fun b => b.2.requestedData.length).sum
  regular : ∀ b ∈ c.taken, ∃ f, c.files[b.1]? = some f ∧ f.kind = .file ∧ f.size ≠ 0
  own : ∀ b ∈ c.taken, ∃ k request, b.2.answers = some (c.number, k) ∧
    c.sent[k]? = some request ∧ request.listIndex = b.1

theorem Counted.count_eq (counted : Counted h.core) : h.count = h.files.length := by
  have short : h.files.length < 2 ^ 31 := counted.short
  exact asI32_of_bounds (by omega) (by omega)

/-- The entries before the `i`-th are there. -/
structure Through (h : Handle) (i : Nat) : Prop where
  pasted : ∀ j f, j < i → h.files[j]? = some f → h.Pasted j f
  enough : ∀ j f, j < i → h.files[j]? = some f → f.kind = .file → f.size ≤ (h.got j).length

theorem Through.mono {i j : Nat} (through : h.Through i) (le : j ≤ i) : h.Through j where
  pasted k f below := through.pasted k f (Nat.lt_of_lt_of_le below le)
  enough k f below := through.enough k f (Nat.lt_of_lt_of_le below le)

/-- One entry more. -/
theorem Through.succ {i : Nat} {f : FileDescription} (through : h.Through i)
    (at_i : h.files[i]? = some f) (pasted : h.Pasted i f)
    (enough : f.kind = .file → f.size ≤ (h.got i).length) : h.Through (i + 1) where
  pasted j g below at_j := by
    rcases Nat.lt_succ_iff_lt_or_eq.mp below with below | rfl
    · exact through.pasted j g below at_j
    · obtain rfl := Option.some.inj (at_i.symm.trans at_j)
      exact pasted
  enough j g below at_j := by
    rcases Nat.lt_succ_iff_lt_or_eq.mp below with below | rfl
    · exact through.enough j g below at_j
    · obtain rfl := Option.some.inj (at_i.symm.trans at_j)
      exact enough

theorem Pasted.mono {h' : Handle} {i : Nat} {f : FileDescription} (pasted : h.Pasted i f)
    (created : h.created ⊆ h'.created) (existing : h.existing ⊆ h'.existing)
    (saved : h.saved ⊆ h'.saved) (got : h'.got i = h.got i) : h'.Pasted i f := by
  unfold Pasted at pasted ⊢
  cases kind : f.kind with
  | file =>
    simp only [kind] at pasted ⊢
    split
    · rename_i zero
      rw [if_pos zero] at pasted
      exact created pasted
    · rename_i nonempty
      rw [if_neg nonempty] at pasted
      rw [got]
      exact saved pasted
  | directory =>
    simp only [kind] at pasted ⊢
    exact pasted.imp (@created i) (@existing i)
  | symlink => trivial

/-- More is made, and nothing is taken. -/
theorem Through.more {h' : Handle} {i : Nat} (through : h.Through i) (files : h'.files = h.files)
    (taken : h'.taken = h.taken) (created : h.created ⊆ h'.created)
    (existing : h.existing ⊆ h'.existing) (saved : h.saved ⊆ h'.saved) : h'.Through i := by
  have got (j : Nat) : h'.got j = h.got j := by rw [Handle.got, taken, Handle.got]
  refine ⟨fun j f below at_j => ?_, fun j f below at_j kind => ?_⟩
  · rw [files] at at_j
    exact (through.pasted j f below at_j).mono created existing saved (got j)
  · rw [files] at at_j
    rw [got]
    exact through.enough j f below at_j kind

/-- What counts for a pasted file is as it was. -/
theorem Through.same {h' : Handle} {i : Nat} (through : h.Through i) (files : h'.files = h.files)
    (taken : h'.taken = h.taken) (created : h'.created = h.created)
    (existing : h'.existing = h.existing) (saved : h'.saved = h.saved) : h'.Through i :=
  through.more files taken (created ▸ List.Subset.refl _) (existing ▸ List.Subset.refl _)
    (saved ▸ List.Subset.refl _)

theorem got_eq_nil {i : Nat} (before : ∀ b ∈ h.taken, b.1 < i) : h.got i = [] := by
  refine Keyed.under_eq_nil fun p mem => ?_
  obtain ⟨b, mem', rfl⟩ := List.mem_map.mp mem
  exact Nat.ne_of_lt (before b mem')

/-! ## Where a task is -/

/-- The task waits for a block of the `i`-th entry, with all that it took in the file. -/
structure Waits (h : Handle) (i : Nat) (f : FileDescription) : Prop where
  reading : h.Reading i f
  opened : h.fileHandle = some (h.got i)
  through : h.Through i
  before : ∀ b ∈ h.taken, b.1 ≤ i

/-- The task has gone through its list. -/
structure Ends (h : Handle) : Prop where
  closed : h.fileHandle = none
  past : h.count ≤ h.listIndex
  through : h.Through h.files.length

def Here (h : Handle) : Prop := (∃ i f, h.Waits i f) ∨ h.Ends

/-- Between two files: the entries before the `i`-th are there, and nothing is open. -/
structure Between (i : Nat) (h : Handle) : Prop where
  closed : h.fileHandle = none
  noError : h.error = none
  through : h.Through i
  before : ∀ b ∈ h.taken, b.1 < i

/-- Past an entry for which nothing has to be taken. -/
theorem Between.succ {i : Nat} {f : FileDescription} (at_i : h.files[i]? = some f)
    (pasted : h.Pasted i f) (small : f.kind = .file → f.size = 0) (between : Between i h) :
    Between (i + 1) h where
  closed := between.closed
  noError := between.noError
  through := by
    refine between.through.succ at_i pasted fun file => ?_
    rw [small file]
    exact Nat.zero_le _
  before b mem := Nat.lt_succ_of_lt (between.before b mem)

theorem Between.create {i : Nat} (between : Between i h) :
    Between i { h with created := h.created ++ [i] } where
  closed := between.closed
  noError := between.noError
  through := between.through.more rfl rfl (List.subset_append_left _ _) (List.Subset.refl _)
    (List.Subset.refl _)
  before := between.before

theorem Between.meet {i : Nat} (between : Between i h) :
    Between i { h with existing := h.existing ++ [i] } where
  closed := between.closed
  noError := between.noError
  through := between.through.more rfl rfl (List.Subset.refl _) (List.subset_append_left _ _)
    (List.Subset.refl _)
  before := between.before

theorem Between.createEmpty {i : Nat} {f : FileDescription} (succeeds : disk.Succeeds)
    (named : disk.named i = true) (at_i : h.files[i]? = some f) (kind : f.kind = .file)
    (zero : f.size = 0) (between : Between i h) : Between (i + 1) (h.createEmpty disk i) := by
  simp only [Handle.createEmpty, named, succeeds.created, if_true]
  refine between.create.succ at_i ?_ fun _ => zero
  simp only [Pasted, kind, if_pos zero]
  exact List.mem_append_right _ (List.mem_singleton_self i)

theorem Between.createDir {i : Nat} {f : FileDescription} (succeeds : disk.Succeeds)
    (free : disk.found i ≠ .other) (at_i : h.files[i]? = some f) (kind : f.kind = .directory)
    (between : Between i h) : Between (i + 1) (h.createDir disk i) := by
  have noFile : f.kind = .file → f.size = 0 := fun file => by
    rw [kind] at file
    cases file
  unfold Handle.createDir
  split
  · rw [if_pos (succeeds.madeDir i)]
    refine between.create.succ at_i ?_ noFile
    simp only [Pasted, kind]
    exact .inl (List.mem_append_right _ (List.mem_singleton_self i))
  · refine between.meet.succ at_i ?_ noFile
    simp only [Pasted, kind]
    exact .inr (List.mem_append_right _ (List.mem_singleton_self i))
  · rename_i other
    exact absurd other free

theorem Between.link {i : Nat} {f : FileDescription} (at_i : h.files[i]? = some f)
    (kind : f.kind = .symlink) (between : Between i h) : Between (i + 1) h := by
  refine between.succ at_i (by simp only [Pasted, kind]) fun file => ?_
  rw [kind] at file
  cases file

/-- The file is opened, and nothing of it was taken before. -/
theorem Between.openNewWriter {j : Nat} {f : FileDescription} (succeeds : disk.Succeeds)
    (named : disk.named j = true) (at_j : h.files[j]? = some f) (below : (j : Int) < h.count)
    (regular : f.kind = .file) (nonempty : f.size ≠ 0) (between : Between j h) :
    let r := { h with listIndex := j, offset := 0 }.openNewWriter disk
    r.1 = .ok () ∧ r.2.error = none ∧ r.2.Waits j f := by
  obtain ⟨reading, -⟩ :=
    @openNewWriter_reading disk h j f at_j below regular nonempty between.closed
  have found : ({ h with listIndex := j, offset := 0 } : Handle).file j = some f :=
    file_of_files at_j
  have nothing := got_eq_nil between.before
  unfold Handle.openNewWriter at reading ⊢
  simp only [found, Int.toNat_natCast, named, succeeds.opening, if_true] at reading ⊢
  refine ⟨trivial, between.noError, reading, ?_,
    between.through.same rfl rfl rfl rfl rfl,
    fun b mem => Nat.le_of_lt (between.before b mem)⟩
  exact congrArg some nothing.symm

theorem clear_file {f : FileDescription} {rest : List FileDescription} {i : Nat}
    (clear : disk.Clear (f :: rest) i) (kind : f.kind = .file) : disk.named i = true :=
  clear.named i (by simp [searched, kind])

theorem clear_dir {f : FileDescription} {rest : List FileDescription} {i : Nat}
    (clear : disk.Clear (f :: rest) i) (kind : f.kind = .directory) : disk.found i ≠ .other :=
  clear.dirs i (by simp [dirs, kind])

theorem clear_next {f : FileDescription} {rest : List FileDescription} {i : Nat}
    (clear : disk.Clear (f :: rest) i) (passed : f.kind = .file → f.size = 0) :
    disk.Clear rest (i + 1) := by
  refine ⟨fun j mem => clear.named j ?_, fun j mem => clear.dirs j ?_⟩
  · cases kind : f.kind <;> simp [searched, kind, passed, mem]
  · cases kind : f.kind <;> simp [dirs, kind, passed, mem]

/-- Between two files, and the loop finds what it needs from here on. -/
structure Passing (disk : Disk) (i : Nat) (h : Handle) : Prop extends Between i h where
  clear : disk.Clear (h.entriesFrom i) i

theorem Passing.succ {i : Nat} {f : FileDescription} {h' : Handle} (passing : Passing disk i h)
    (here : h.entriesFrom i = f :: h.entriesFrom (i + 1)) (same : h'.core = h.core)
    (passed : f.kind = .file → f.size = 0) (between : Between (i + 1) h') :
    Passing disk (i + 1) h' where
  toBetween := between
  clear := by
    have clear := passing.clear
    rw [here] at clear
    rw [entriesFrom_congr (files_of_core same)]
    exact clear_next clear passed

theorem Passing.createEmpty {i : Nat} {f : FileDescription} (succeeds : disk.Succeeds)
    (here : h.entriesFrom i = f :: h.entriesFrom (i + 1)) (kind : f.kind = .file)
    (zero : f.size = 0) (passing : Passing disk i h) :
    Passing disk (i + 1) (h.createEmpty disk i) := by
  have clear := passing.clear
  rw [here] at clear
  refine passing.succ here (core_createEmpty i) (fun _ => zero) ?_
  exact passing.toBetween.createEmpty succeeds (clear_file clear kind) (entriesFrom_cons here).1
    kind zero

theorem Passing.createDir {i : Nat} {f : FileDescription} (succeeds : disk.Succeeds)
    (here : h.entriesFrom i = f :: h.entriesFrom (i + 1)) (kind : f.kind = .directory)
    (passing : Passing disk i h) : Passing disk (i + 1) (h.createDir disk i) := by
  have clear := passing.clear
  rw [here] at clear
  refine passing.succ here (core_createDir i) (fun file => ?_) ?_
  · rw [kind] at file
    cases file
  · exact passing.toBetween.createDir succeeds (clear_dir clear kind) (entriesFrom_cons here).1 kind

theorem Passing.link {i : Nat} {f : FileDescription}
    (here : h.entriesFrom i = f :: h.entriesFrom (i + 1)) (kind : f.kind = .symlink)
    (passing : Passing disk i h) : Passing disk (i + 1) h := by
  refine passing.succ here rfl (fun file => ?_) ?_
  · rw [kind] at file
    cases file
  · exact passing.toBetween.link (entriesFrom_cons here).1 kind

/-- The loop of `update_next` when the file operations succeed. -/
theorem here_nextFile {rest : List FileDescription} {i : Nat} (succeeds : disk.Succeeds)
    (counted : Counted h.core) (split : h.entriesFrom i = rest) (clear : disk.Clear rest i)
    (between : Between i h) :
    let r := nextFile disk rest i h
    r.1 = .ok () ∧ r.2.core = h.core ∧ r.2.error = none ∧
      ((∃ j f, r.2.Waits j f) ∨ r.2.fileHandle = none ∧ r.2.Through r.2.files.length) := by
  have loop := @nextFile_rec disk (Passing disk)
    (fun _ _ _ here kind zero inv => inv.createEmpty succeeds here kind zero)
    (fun _ _ _ here kind inv => inv.createDir succeeds here kind)
    (fun _ _ _ here kind inv => inv.link here kind) rest i h split
    ⟨between, by rw [split]; exact clear⟩
  rcases loop with ⟨j, h', passing, core, done, eq⟩ | ⟨j, f, h', passing, core, here, regular,
    nonempty, eq⟩
  · rw [eq]
    have count : h'.count = h'.files.length := Counted.count_eq (by rw [core]; exact counted)
    have past : h'.files.length ≤ j := by
      have short := List.drop_eq_nil_iff.mp done
      rw [List.length_take, count] at short
      omega
    exact ⟨rfl, core, passing.noError, .inr ⟨passing.closed, passing.through.mono past⟩⟩
  · rw [eq]
    obtain ⟨at_j, below, -⟩ := entriesFrom_cons here
    have clear' := passing.clear
    rw [here] at clear'
    obtain ⟨ok, noError, waits⟩ := @Between.openNewWriter disk h' j f succeeds
      (clear_file clear' regular) at_j below regular nonempty passing.toBetween
    obtain ⟨-, same⟩ :=
      @openNewWriter_reading disk h' j f at_j below regular nonempty passing.closed
    exact ⟨ok, same.trans core, noError, .inl ⟨j, f, waits⟩⟩

/-- An open file stays open; with none the task is at its end. -/
theorem here_endUnlessOpen
    (there : (∃ j f, h.Waits j f) ∨ h.fileHandle = none ∧ h.Through h.files.length) :
    h.endUnlessOpen.Here := by
  unfold endUnlessOpen
  split
  · rename_i data opened
    rcases there with waits | ⟨closed, -⟩
    · exact .inl waits
    · rw [opened] at closed
      cases closed
  · rename_i closed
    rcases there with ⟨j, f, waits⟩ | ⟨-, through⟩
    · rw [waits.opened] at closed
      cases closed
    · exact .inr ⟨closed, by simp only [count, le_refl],
        through.same rfl rfl rfl rfl rfl⟩

/-! ## A block -/

/-- A block of `size` bytes was written to the `i`-th entry. -/
structure Fills (h : Handle) (i : Nat) (f : FileDescription) (size : Nat) : Prop where
  writing : h.Writing i f size
  opened : h.fileHandle = some (h.got i)
  noError : h.error = none
  through : h.Through i
  before : ∀ b ∈ h.taken, b.1 ≤ i

variable {i size : Nat} {f : FileDescription}

theorem Fills.length_got (fills : h.Fills i f size) : (h.got i).length = h.offset + size := by
  obtain ⟨data, opened, len⟩ := fills.writing.written
  rw [Option.some.inj (fills.opened.symm.trans opened)]
  exact len

theorem Fills.onDone (fills : h.Fills i f size) (succeeds : disk.Succeeds)
    (named : disk.named i = true) (full : f.size ≤ h.offset + size) :
    Between (i + 1) (h.onDone disk) := by
  have writing := fills.writing
  have nonempty := writing.nonempty
  rw [onDone_open writing.file fills.opened writing.downloadIndex]
  simp only [rename, named, succeeds.renamed, if_true]
  have more : ({ h with
      fileHandle := none
      downloadFileIndex := -1
      saved := h.saved ++ [(i, h.got i)] } : Handle).Through i :=
    fills.through.more rfl rfl (List.Subset.refl _) (List.Subset.refl _)
      (List.subset_append_left _ _)
  refine ⟨rfl, fills.noError, more.succ writing.file ?_ fun _ => ?_,
    fun b mem => Nat.lt_succ_of_le (fills.before b mem)⟩
  · simp only [Pasted, writing.regular, if_neg nonempty]
    exact List.mem_append_right _ (List.mem_singleton_self _)
  · exact full.trans_eq fills.length_got.symm

/-- The block ends the file, or the task waits for the next one. -/
theorem Fills.advance (fills : h.Fills i f size) (succeeds : disk.Succeeds)
    (counted : Counted h.core) (within : h.offset + size ≤ h.currentSize)
    (small : h.offset + size < 2 ^ 64)
    (clear : h.downloadFileSize ≤ h.offset + size → h.ClearNext disk) :
    let r := h.advance disk size
    r.1 = .ok () ∧ r.2.error = none ∧
      ((∃ j f, r.2.Waits j f) ∨ r.2.fileHandle = none ∧ r.2.Through r.2.files.length) := by
  have writing := fills.writing
  rw [writing.advance_eq]
  simp only [Nat.mod_eq_of_lt small, fits_of_lt _ small]
  by_cases ends : h.downloadFileSize ≤ h.offset + size
  · rw [if_pos ends]
    obtain ⟨-, core⟩ := @Writing.onDone disk _ _ _ _ writing
    have split := entriesFrom_congr (files_of_core core) (i + 1)
    have index : h.listIndex.toNat = i := by
      have index := writing.index
      omega
    obtain ⟨named, clear⟩ := clear ends
    rw [index] at named clear
    rw [writing.downloadSize] at ends
    obtain ⟨ok, -, noError, there⟩ := here_nextFile succeeds (by rw [core]; exact counted) split
      clear (fills.onDone succeeds named ends)
    exact ⟨ok, noError, there⟩
  · rw [if_neg ends]
    refine ⟨rfl, fills.noError, .inl ⟨i, f, ?_, fills.opened,
      fills.through.same rfl rfl rfl rfl rfl, fills.before⟩⟩
    rw [writing.downloadSize] at ends
    exact {
      index := writing.index
      file := writing.file
      below := writing.below
      regular := writing.regular
      nonempty := writing.nonempty
      within := Nat.not_le.mp ends
      counted := within
      writer := fun data opened => by
        obtain rfl := Option.some.inj (fills.opened.symm.trans opened)
        exact ⟨fills.length_got, writing.downloadIndex, writing.downloadSize, rfl⟩ }

theorem error_endUnlessOpen (h : Handle) : h.endUnlessOpen.error = h.error := by
  unfold endUnlessOpen
  split
  · rfl
  · rfl

theorem here_endAfter {r : Except Failure Unit × Handle} (ok : r.1 = .ok ())
    (noError : r.2.error = none)
    (there : (∃ j f, r.2.Waits j f) ∨ r.2.fileHandle = none ∧ r.2.Through r.2.files.length) :
    (endAfter r).1 = .ok () ∧ (endAfter r).2.error = none ∧ (endAfter r).2.Here := by
  obtain ⟨result, h⟩ := r
  obtain rfl : result = .ok () := ok
  exact ⟨rfl, (error_endUnlessOpen h).trans noError, here_endUnlessOpen there⟩

/-- The total of the task with a block more. -/
theorem Fills.count_more (fills : h.Fills i f size) (currentSize : Nat) :
    ({ h with currentSize } : Handle).Fills i f size where
  writing := fills.writing.count_more currentSize
  opened := fills.opened
  noError := fills.noError
  through := fills.through.same rfl rfl rfl rfl rfl
  before := fills.before

theorem Fills.updateNext (fills : h.Fills i f size) (succeeds : disk.Succeeds)
    (counted : Counted { h.core with currentSize := h.currentSize + size })
    (offset : h.offset ≤ h.currentSize) (waiting : h.isFinished = false)
    (small : h.currentSize + size < 2 ^ 64)
    (clear : h.downloadFileSize ≤ h.offset + size → h.ClearNext disk) :
    (h.updateNext disk size).1 = .ok () ∧ (h.updateNext disk size).2.error = none ∧
      (h.updateNext disk size).2.Here := by
  have within : h.offset + size < 2 ^ 64 := by omega
  rw [updateNext_waiting waiting, fits_of_lt h small, Nat.mod_eq_of_lt small]
  obtain ⟨ok, noError, there⟩ := (fills.count_more (h.currentSize + size)).advance succeeds counted
    (Nat.add_le_add_right offset size) within clear
  exact here_endAfter ok noError there

theorem got_write {data : Codec.Bytes} (response : Response) (j : Nat) (index : h.listIndex = i) :
    (h.write response data).got j =
      if i = j then h.got j ++ response.requestedData else h.got j := by
  have here : h.listIndex.toNat = i := by omega
  simp only [got, write, here, List.map_append, List.map_cons, List.map_nil]
  split
  · rename_i same
    rw [same, Keyed.under_append_self]
  · rename_i other
    rw [Keyed.under_append_other _ _ other]

/-- The data of a response goes to the end of the file. -/
theorem Waits.write (waits : h.Waits i f) (noError : h.error = none) (response : Response) :
    (h.write response (h.got i)).Fills i f response.requestedData.length := by
  have index := waits.reading.index
  have other {j : Nat} (below : j < i) : (h.write response (h.got i)).got j = h.got j := by
    rw [got_write response j index, if_neg (Nat.ne_of_gt below)]
  refine ⟨waits.reading.write waits.opened response, ?_, noError, ⟨?_, ?_⟩, fun b mem => ?_⟩
  · rw [got_write response i index, if_pos rfl]
    rfl
  · intro j g below at_j
    exact (waits.through.pasted j g below at_j).mono (List.Subset.refl _) (List.Subset.refl _)
      (List.Subset.refl _) (other below)
  · intro j g below at_j kind
    rw [other below]
    exact waits.through.enough j g below at_j kind
  · rcases List.mem_append.mp mem with mem | mem
    · exact waits.before b mem
    · rw [List.mem_singleton.mp mem]
      omega

/-- What was taken is counted, and is of this task. -/
theorem Counted.write (counted : Counted h.core) (waits : h.Waits i f) {response : Response}
    (own : h.Own i response) :
    Counted { (h.write response (h.got i)).core with
      currentSize := h.currentSize + response.requestedData.length } where
  short := counted.short
  bare := counted.bare
  total := counted.total
  current := by
    have current : h.currentSize = (h.taken.map fun b => b.2.requestedData.length).sum :=
      counted.current
    have more : ((h.taken ++ [(h.listIndex.toNat, response)]).map fun b =>
        b.2.requestedData.length).sum = h.currentSize + response.requestedData.length := by
      simp [current]
    exact more.symm
  regular b mem := by
    rcases List.mem_append.mp mem with mem | mem
    · exact counted.regular b mem
    · have here := waits.reading.toNat_index
      rw [List.mem_singleton.mp mem, here]
      exact ⟨f, waits.reading.file, waits.reading.regular, waits.reading.nonempty⟩
  own b mem := by
    rcases List.mem_append.mp mem with mem | mem
    · exact counted.own b mem
    · have here := waits.reading.toNat_index
      rw [List.mem_singleton.mp mem, here]
      exact own

/-! ## The next request, and the end -/

theorem Here.waits (here : h.Here) (waiting : h.isFinished = false) : ∃ i f, h.Waits i f := by
  obtain ⟨-, -, before⟩ := isFinished_eq_false.mp waiting
  rcases here with waits | ends
  · exact waits
  · exact absurd ends.past (Int.not_le.mpr before)

theorem Here.ends (here : h.Here) (goesOn : h.isCanceled = false) (noError : h.error = none)
    (finished : h.isFinished = true) : h.Ends := by
  rcases here with ⟨i, f, waits⟩ | ends
  · have waiting := isFinished_eq_false.mpr
      ⟨goesOn, noError, by rw [waits.reading.index]; exact waits.reading.below⟩
    rw [finished] at waiting
    cases waiting
  · exact ends

theorem Waits.send (waits : h.Waits i f) (request : Request) :
    ({ h with sent := h.sent ++ [request] } : Handle).Waits i f where
  reading := { waits.reading with }
  opened := waits.opened
  through := waits.through.same rfl rfl rfl rfl rfl
  before := waits.before

theorem Counted.send (counted : Counted h.core) (request : Request) :
    Counted ({ h with sent := h.sent ++ [request] } : Handle).core where
  short := counted.short
  bare := counted.bare
  total := counted.total
  current := counted.current
  regular := counted.regular
  own b mem := by
    obtain ⟨k, q, answers, sent, index⟩ := counted.own b mem
    have inside := (List.getElem?_eq_some_iff.mp sent).1
    exact ⟨k, q, answers, (List.getElem?_append_left inside).trans sent, index⟩

/-- What is so of a task that did not fail and was not canceled. -/
structure Tracked (h : Handle) : Prop where
  counted : Counted h.core
  here : h.Here
  whole : h.isFinished = true → h.currentSize = h.totalSize

theorem error_checkTotal (noError : h.checkTotal.error = none) :
    h.checkTotal = h ∧ h.currentSize = h.totalSize := by
  unfold checkTotal at noError ⊢
  split at noError
  · cases noError
  · rename_i whole
    rw [if_neg whole]
    exact ⟨rfl, not_ne_iff.mp whole⟩

theorem tracked_onFinished (goesOn : h.isCanceled = false) (finished : h.isFinished = true)
    (right : h.error = none → Counted h.core ∧ h.Here)
    (noError : (h.onFinished disk).error = none) : (h.onFinished disk).Tracked := by
  obtain ⟨same, whole⟩ := error_checkTotal noError
  rw [onFinished, same] at noError ⊢
  rw [cancelledOrDone] at noError whole ⊢
  cases failed : h.error with
  | some e =>
    have kept : h.onCancelled.error = some e := failed
    rw [failed, Option.isSome_some, if_pos rfl, kept] at noError
    cases noError
  | none =>
    obtain ⟨counted, here⟩ := right failed
    have ends := here.ends goesOn failed finished
    rw [failed, Option.isSome_none, if_neg Bool.false_ne_true, onDone_closed ends.closed] at whole
    rw [Option.isSome_none, if_neg Bool.false_ne_true, onDone_closed ends.closed]
    exact ⟨counted, here, fun _ => whole⟩

theorem tracked_proceed (goesOn : h.isCanceled = false)
    (right : h.error = none → Counted h.core ∧ h.Here)
    (noError : (h.proceed disk).error = none) : (h.proceed disk).Tracked := by
  unfold proceed at noError ⊢
  split at noError
  · rename_i finished
    rw [if_pos finished]
    exact tracked_onFinished goesOn finished right noError
  · rename_i waiting
    rw [if_neg waiting]
    rw [Bool.not_eq_true] at waiting
    obtain ⟨counted, here⟩ := right (isFinished_eq_false.mp waiting).2.1
    obtain ⟨i, f, waits⟩ := here.waits waiting
    rw [waits.reading.requestOrFail_eq waiting]
    refine ⟨counted.send _, .inl ⟨i, f, waits.send _⟩, fun finished => ?_⟩
    have still : h.isFinished = true := finished
    rw [waiting] at still
    cases still

theorem tracked_handleOrFail (counted : Counted h.core) (waits : h.Waits i f)
    (waiting : h.isFinished = false) (succeeds : disk.Succeeds) {response : Response}
    (own : h.Own i response) (small : h.currentSize + response.requestedData.length < 2 ^ 64)
    (clear : h.downloadFileSize ≤ h.offset + response.requestedData.length → h.ClearNext disk) :
    Counted (h.handleOrFail disk response).core ∧ (h.handleOrFail disk response).Here ∧
      (h.handleOrFail disk response).isCanceled = false := by
  obtain ⟨goesOn, noError, -⟩ := isFinished_eq_false.mp waiting
  have fills := waits.write noError response
  have more := counted.write waits own
  obtain ⟨ok, -, here⟩ := fills.updateNext succeeds more waits.reading.counted waiting small
    clear
  obtain ⟨-, core⟩ := @place_updateNext disk _ _ _ f fills.writing waits.reading.counted waiting
    small
  have result : h.handleOrFail disk response =
      ((h.write response (h.got i)).updateNext disk response.requestedData.length).2 := by
    simp only [handleOrFail, handleFileContentsResponse, waits.opened, succeeds.writes, if_true]
    split
    · rename_i eq
      rw [eq]
    · rename_i eq
      rw [eq] at ok
      cases ok
  rw [result]
  refine ⟨?_, here, (congrArg Core.isCanceled core).trans goesOn⟩
  rw [core]
  exact more

/-- The task is exact when its totals are the same. -/
theorem Tracked.exact (tracked : h.Tracked) (finished : h.isFinished = true)
    (noError : h.error = none) (goesOn : h.isCanceled = false) : h.Exact := by
  obtain ⟨counted, here, whole⟩ := tracked
  have ends := here.ends goesOn noError finished
  have inside {i : Nat} {f : FileDescription} (at_i : h.files[i]? = some f) :
      i < h.files.length := (List.getElem?_eq_some_iff.mp at_i).1
  refine ⟨fun i f at_i kind => ?_, fun i f at_i => ends.through.pasted i f (inside at_i) at_i,
    counted.own⟩
  have below : ∀ p ∈ h.taken.map fun b => (b.1, b.2.requestedData), p.1 < h.files.length := by
    intro p mem
    obtain ⟨b, mem', rfl⟩ := List.mem_map.mp mem
    obtain ⟨g, at_b, -⟩ := counted.regular b mem'
    exact inside at_b
  have same : ((Finset.range (h.files.map (·.size)).length).sum fun j => (h.got j).length) =
      (h.files.map (·.size)).sum := by
    have current : h.currentSize = (h.taken.map fun b => b.2.requestedData.length).sum :=
      counted.current
    have total : h.totalSize = (h.files.map (·.size)).sum := counted.total
    rw [List.length_map, ← total, ← whole finished, current]
    refine (Keyed.sum_length_under below).trans ?_
    rw [List.map_map]
    rfl
  refine Keyed.eq_of_sum_eq (fun j size at_j => ?_) same (by rw [List.getElem?_map, at_i]; rfl)
  rw [List.getElem?_map, Option.map_eq_some_iff] at at_j
  obtain ⟨g, at_j, rfl⟩ := at_j
  by_cases file : g.kind = .file
  · exact ends.through.enough j g (inside at_j) at_j file
  · rw [counted.bare g (List.mem_of_getElem? at_j) file]
    exact Nat.zero_le _

end Handle

/-! ## The worker -/

namespace PasteTask
variable {t : PasteTask}

def Tracked (t : PasteTask) : Prop :=
  ∀ h, t.handle = some h → h.error = none → h.isCanceled = false → h.Tracked

theorem Tracked.exact (tracked : t.Tracked) : t.Exact :=
  fun h mem finished noError goesOn => (tracked h mem noError goesOn).exact finished noError goesOn

theorem tracked_proceed {disk : Disk} {h : Handle} (goesOn : h.isCanceled = false)
    (right : h.error = none → Handle.Counted h.core ∧ h.Here) : (t.proceed disk h).Tracked := by
  intro h' mem noError _
  obtain rfl := Option.some.inj mem
  exact Handle.tracked_proceed goesOn right noError

theorem tracked_start {files : List FileDescription} {disk : Disk} (tracked : t.Tracked)
    (ordinary : (Event.start files disk).Ordinary) (owned : t.Owned (.start files disk)) :
    (t.start files disk).Tracked := by
  unfold start
  split
  · rename_i finished
    obtain ⟨small, bare, succeeds⟩ := ordinary
    obtain ⟨short, links, clear⟩ := owned finished
    have fresh : (t.newHandle files).Fresh := fresh_newHandle files
    have new : t.newHandle files =
        { number := t.started, totalSize := (files.map (·.size)).sum, files } := by
      rw [newHandle, Nat.mod_eq_of_lt small]
      exact Handle.fits_of_lt _ small
    have counted : Handle.Counted (t.newHandle files).core := by
      rw [new]
      refine ⟨short, fun f mem other => ?_, rfl, rfl, fun b mem => absurd mem List.not_mem_nil,
        fun b mem => absurd mem List.not_mem_nil⟩
      cases kind : f.kind with
      | file => exact absurd kind other
      | directory => exact bare f mem kind
      | symlink => exact links f mem kind
    have waiting : (t.newHandle files).isFinished = false := by
      rw [Bool.eq_false_iff, ne_eq, fresh.finished_iff, counted.count_eq]
      omega
    have between : Handle.Between 0 (t.newHandle files) := by
      refine ⟨fresh.closed, fresh.noError, ⟨fun j f below => absurd below (Nat.not_lt_zero j),
        fun j f below => absurd below (Nat.not_lt_zero j)⟩, ?_⟩
      rw [new]
      exact fun b mem => absurd mem List.not_mem_nil
    obtain ⟨ok, core, noError, there⟩ := Handle.here_nextFile succeeds counted rfl clear between
    obtain ⟨-, -, here⟩ := Handle.here_endAfter ok noError there
    have core' := (Handle.core_endAfter _).trans core
    rw [← fresh.updateNext_eq waiting] at here core'
    intro h mem noError' _
    obtain rfl := Option.some.inj mem
    refine Handle.tracked_proceed ((congrArg Handle.Core.isCanceled core').trans fresh.goesOn)
      (fun _ => ⟨?_, here⟩) noError'
    rw [core']
    exact counted
  · exact tracked

theorem tracked_cancel (t : PasteTask) : t.cancel.Tracked := by
  intro h mem _ goesOn
  obtain ⟨h, -, rfl⟩ := Option.map_eq_some_iff.mp mem
  cases goesOn

theorem tracked_timeout (tracked : t.Tracked) (overdue : Bool) (disk : Disk) :
    (t.timeout overdue disk).Tracked := by
  unfold timeout
  split
  · exact tracked
  · rename_i h was
    split
    · rename_i waiting
      obtain ⟨goesOn, -, -⟩ := Handle.isFinished_eq_false.mp waiting.1
      intro h' mem noError _
      obtain rfl := Option.some.inj mem
      refine Handle.tracked_onFinished goesOn ?_ (fun none' => by cases none') noError
      simp [Handle.isFinished]
    · exact tracked

theorem tracked_retry {h : Handle} (waiting : h.isFinished = false) (right : h.Tracked)
    (disk : Disk) : (t.retry h disk).Tracked := by
  obtain ⟨goesOn, -, -⟩ := Handle.isFinished_eq_false.mp waiting
  unfold retry
  refine tracked_proceed ?_ ?_
  · split <;> exact goesOn
  · split
    · exact fun none' => by cases none'
    · exact fun _ => ⟨right.counted, right.here⟩

theorem tracked_handleData {h : Handle} (waiting : h.isFinished = false) (right : h.Tracked)
    {response : Response} {disk : Disk} (stream : response.streamId = h.listIndex)
    (succeeds : disk.Succeeds)
    (own : (∀ f, h.file response.streamId = some f → f.connId = response.connId) →
      h.Own response.streamId.toNat response ∧
        h.currentSize + response.requestedData.length < 2 ^ 64 ∧
          (h.downloadFileSize ≤ h.offset + response.requestedData.length → h.ClearNext disk)) :
    (t.handleData h response disk).Tracked := by
  obtain ⟨i, f, waits⟩ := right.here.waits waiting
  have found := waits.reading.found stream
  have here : response.streamId.toNat = i := by
    have index := waits.reading.index
    omega
  simp only [handleData, found]
  split
  · intro h' mem noError goesOn
    obtain rfl := Option.some.inj mem
    exact ⟨right.counted, .inl ⟨i, f, { waits.reading with }, waits.opened,
      waits.through.same rfl rfl rfl rfl rfl, waits.before⟩,
      right.whole⟩
  · rename_i conn
    obtain ⟨own', small, clear⟩ := own fun f' found' => by
      rw [← Option.some.inj (found.symm.trans found')]
      exact not_ne_iff.mp conn
    rw [here] at own'
    obtain ⟨counted, here', goesOn⟩ :=
      Handle.tracked_handleOrFail right.counted waits waiting succeeds own' small clear
    exact tracked_proceed goesOn fun _ => ⟨counted, here'⟩

theorem tracked_receive {response : Response} {disk : Disk} (tracked : t.Tracked)
    (succeeds : disk.Succeeds) (owned : t.Owned (.receive response disk)) :
    (t.receive response disk).Tracked := by
  unfold receive
  split
  · exact tracked
  · rename_i h was
    split
    · exact tracked
    · rename_i here
      push Not at here
      obtain ⟨waiting, stream⟩ := here
      rw [ne_eq, Bool.not_eq_true] at waiting
      obtain ⟨goesOn, noError, -⟩ := Handle.isFinished_eq_false.mp waiting
      have right := tracked h was noError goesOn
      split
      · exact tracked_retry waiting right disk
      · rename_i flags
        exact tracked_handleData waiting right stream succeeds
          (owned h was ⟨waiting, stream, not_ne_iff.mp flags⟩)

theorem tracked_step {e : Event} (tracked : t.Tracked) (ordinary : e.Ordinary)
    (owned : t.Owned e) : (t.step e).Tracked := by
  cases e with
  | start files disk => exact tracked_start tracked ordinary owned
  | cancel => exact tracked_cancel t
  | receive response disk => exact tracked_receive tracked ordinary owned
  | timeout overdue disk => exact tracked_timeout tracked overdue disk

/-- **A paste that succeeds.** In every run of lists, responses, timeouts and cancels a task that
ends without an error has written every file exactly, with the data of responses to its own
requests, when the responses it takes are such responses. -/
theorem paste_exact (events : List Event) (ordinary : ∀ e ∈ events, e.Ordinary)
    (owned : Along step Owned {} events) : (run step {} events).Exact := by
  have both := along_and.mpr ⟨owned, along_of_forall_mem ordinary _⟩
  have start : Tracked {} := fun _ mem => by cases mem
  exact (Runs.invariant (I := Tracked) (fun _ _ tracked ok => tracked_step tracked ok.2 ok.1) start
    both).exact

theorem allWell_succeeds : allWell.Succeeds :=
  ⟨fun _ => rfl, fun _ => rfl, fun _ => rfl, rfl, fun _ => rfl⟩

theorem allWell_clear (entries : List FileDescription) (i : Nat) : allWell.Clear entries i :=
  ⟨fun _ _ => rfl, fun _ _ => by simp [allWell]⟩

/-- After a canceled paste a directory, an empty file, and a file of three bytes in two blocks. -/
def twoBlocks : List Event :=
  [.start [plainFile 1 2] allWell, .cancel,
    .start [{ plainFile 1 0 with kind := .directory }, plainFile 1 0, plainFile 1 3] allWell,
    .receive ⟨1, 0x01, 2, [1, 2], some (1, 0)⟩ allWell,
    .receive ⟨1, 0x01, 2, [3], some (1, 1)⟩ allWell]

theorem twoBlocks_exact : (run step {} twoBlocks).Exact := by
  refine paste_exact twoBlocks (fun e mem => ?_) ⟨fun _ => ?_, trivial, fun _ => ?_,
    fun h was _ _ => ?_, fun h was _ _ => ?_, trivial⟩
  · simp only [twoBlocks, List.mem_cons, List.not_mem_nil, or_false] at mem
    rcases mem with rfl | rfl | rfl | rfl | rfl
    · exact ⟨by decide, by decide, allWell_succeeds⟩
    · trivial
    · exact ⟨by decide, by decide, allWell_succeeds⟩
    · exact allWell_succeeds
    · exact allWell_succeeds
  · exact ⟨by decide, by decide, allWell_clear _ _⟩
  · exact ⟨by decide, by decide, allWell_clear _ _⟩
  · obtain rfl := Option.some.inj was
    exact ⟨⟨0, ⟨1, 2, 0, 3⟩, rfl, by decide +kernel, rfl⟩, by decide,
      fun _ => ⟨rfl, allWell_clear _ _⟩⟩
  · obtain rfl := Option.some.inj was
    exact ⟨⟨1, ⟨1, 2, 2, 1⟩, rfl, by decide +kernel, rfl⟩, by decide,
      fun _ => ⟨rfl, allWell_clear _ _⟩⟩

/-- The answer to a canceled task comes when the next one waits for a file at the same place of its
list. -/
def lateAnswer : List Event :=
  [.start [plainFile 1 2] allWell, .cancel, .start [plainFile 1 2] allWell,
    .receive ⟨1, 0x01, 0, [7, 7], some (0, 0)⟩ allWell]

theorem late_answer_taken :
    ¬ ∀ events : List Event, (∀ e ∈ events, e.Ordinary) → (run step {} events).Exact := by
  intro all
  have ordinary : ∀ e ∈ lateAnswer, e.Ordinary := by
    intro e mem
    simp only [lateAnswer, List.mem_cons, List.not_mem_nil, or_false] at mem
    rcases mem with rfl | rfl | rfl | rfl
    · exact ⟨by decide, by decide, allWell_succeeds⟩
    · trivial
    · exact ⟨by decide, by decide, allWell_succeeds⟩
    · exact allWell_succeeds
  have exact' := all lateAnswer ordinary _ rfl (by decide) (by decide) (by decide)
  obtain ⟨k, request, answers, -⟩ := exact'.own (0, ⟨1, 0x01, 0, [7, 7], some (0, 0)⟩) (by decide)
  exact absurd (Prod.mk.inj (Option.some.inj answers)).1 (by decide)

end PasteTask
end CamelliaRemote.Clipboard.Progress
