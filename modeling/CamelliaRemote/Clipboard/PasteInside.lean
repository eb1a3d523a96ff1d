import CamelliaRemote.Clipboard.PasteTask
import CamelliaRemote.Lib.Runs

namespace CamelliaRemote.Clipboard.Paste
open UnixPath StateM

/-! ## The condition -/

/-- The directory of the paste, and those above it, are there. -/
def InPlace (d : Disk) (targetDir : Path) : Prop :=
  ∀ path, path ≠ [] → components path <+: components targetDir → d.present path = true

/-- Whatever `create_dir_all` may make for the path is there, or belongs below `target_dir`. -/
def OnTheWay (targetDir path : Path) : Prop :=
  '\x00' ∉ path → ∀ dir ∈ ancestors path, DirEntry dir →
    components dir <+: components targetDir ∨ Below (components targetDir) (components dir)

/-- For a file, its directory stays within `target_dir`; and where the name that carries the
extension is not the one the text ends with, as in `a.b/`, that name is below `target_dir`. -/
def Confined (targetDir : Path) (fileDesc : FileDescription) : Prop :=
  let path := push targetDir fileDesc.name
  match fileDesc.kind with
  | .directory => OnTheWay targetDir path
  | .file =>
    ('\x00' ∉ path → Within (components targetDir) (components (dirOf path)) ∧
      (extension path ≠ none → Below (components targetDir) (components path))) ∧
    (fileDesc.size ≠ 0 → ∀ dir, parent (downloadPath path) = some dir → OnTheWay targetDir dir)
  | .symlink => True

/-- A file that is never opened, because its name has a NUL: the task ends with it. -/
def Refused (targetDir : Path) (fileDesc : FileDescription) : Prop :=
  fileDesc.kind = .file ∧ fileDesc.size ≠ 0 ∧ '\x00' ∈ push targetDir fileDesc.name

instance (targetDir : Path) (fileDesc : FileDescription) :
    Decidable (Refused targetDir fileDesc) := inferInstanceAs (Decidable (_ ∧ _))

/-- The descriptions that a task can get to. -/
def reached (targetDir : Path) : List FileDescription → List FileDescription
  | [] => []
  | fileDesc :: rest =>
    fileDesc :: if Refused targetDir fileDesc then [] else reached targetDir rest

theorem reached_subset {targetDir : Path} {files : List FileDescription} :
    reached targetDir files ⊆ files := by
  induction files with
  | nil => exact List.nil_subset _
  | cons f files ih =>
    refine List.cons_subset_cons f ?_
    split
    · exact List.nil_subset _
    · exact ih

/-- The path is below `target_dir` if a file can be there at all. -/
def Fit (targetDir path : Path) : Prop :=
  FileEntry path → Below (components targetDir) (components path)

/-! ## Names made from a path -/

theorem sep_notMem_digits (n : Nat) : '/' ∉ digits n := by
  intro mem
  have digit := Nat.isDigit_of_mem_toDigits (by decide) (by decide) mem
  exact absurd digit (by decide)

theorem length_digits_pos (n : Nat) : 0 < (digits n).length :=
  List.length_pos_of_ne_nil Nat.toDigits_ne_nil

theorem name_numbered (piece : List Char) (noSep : '/' ∉ piece) (i : Nat) :
    Name (piece ++ (' ' :: '(' :: digits i ++ [')'])) := by
  refine name_append noSep ?_ (by simp)
  simpa [PathChar.sep] using sep_notMem_digits i

theorem name_download (piece : List Char) (noSep : '/' ∉ piece) :
    Name (piece ++ '.' :: downloadExtension) :=
  name_append noSep (by decide) (by decide)

theorem rsplitAtDot_snd {name ext : List Char} (h : (rsplitAtDot name).2 = some ext) :
    ∀ c, c ∈ (rsplitAtDot name).1 ∨ c ∈ ext → c ∈ name := by
  unfold rsplitAtDot at h ⊢
  simp only at h ⊢
  split at h
  · exact absurd h (by simp)
  · rename_i dotted
    rw [if_neg dotted]
    obtain rfl : _ = ext := Option.some.inj h
    rintro c (mem | mem)
    · exact (List.rdropWhile_prefix _ _).subset (List.mem_of_mem_dropLast mem)
    · exact (List.rtakeWhile_suffix _ _).subset mem

theorem name_other {path ext : Path} (h : extension path = some ext) (i : Nat) :
    Name ((fileStem path).getD [] ++ '-' :: digits i ++ '.' :: ext) := by
  obtain ⟨name, named, split⟩ := Option.bind_eq_some_iff.mp h
  have noSep := sep_notMem_fileName named
  have part := rsplitAtDot_snd split
  have stem : '/' ∉ (fileStem path).getD [] := by
    rw [fileStem, named]
    exact fun mem => noSep (part _ (.inl mem))
  have suffix : '/' ∉ '-' :: digits i ++ '.' :: ext := by
    have inExt : '/' ∉ ext := fun mem => noSep (part _ (.inr mem))
    simp [inExt, sep_notMem_digits]
  rw [List.append_assoc]
  refine name_append stem suffix ?_
  have long := length_digits_pos i
  simp only [List.cons_append, List.length_cons, List.length_append]
  omega

variable {targetDir path : Path}

theorem components_numbered (path : Path) (i : Nat) :
    ∃ name, components (numbered path i) = components (dirOf path) ++ [Component.normal name] := by
  have isName := name_numbered _ (sep_notMem_lastPiece path) i
  have noSep : '/' ∉ (' ' :: '(' :: digits i ++ [')']) := fun mem =>
    isName.noSep (List.mem_append_right _ mem)
  have last := lastPiece_append noSep path
  have whole := components_entry (last ▸ isName)
  rw [dirOf_append noSep] at whole
  exact ⟨_, whole⟩

/-- The other names of a path stand in its directory. -/
theorem fit_otherName (within : Within (components targetDir) (components (dirOf path)))
    (below : extension path ≠ none → Below (components targetDir) (components path)) (i : Nat) :
    Fit targetDir (otherName path i) := by
  intro _
  unfold otherName
  split
  · rename_i ext found
    obtain ⟨name, named, -⟩ := Option.bind_eq_some_iff.mp found
    obtain ⟨front, whole, other⟩ := components_withFileName named (name_other found i)
    have inside := below (by simp [found])
    rw [whole] at inside
    rw [other]
    exact inside.within.below _
  · obtain ⟨name, eq⟩ := components_numbered path i
    rw [eq]
    exact within.below _

theorem fit_of_within (within : '\x00' ∉ path →
    Within (components targetDir) (components (dirOf path))) : Fit targetDir path := by
  rintro ⟨noNul, isName⟩
  rw [components_entry isName]
  exact (within noNul).below _

/-- The other names of an entry keep its directory, and the text of its parent. -/
theorem otherName_of_entry (h : Name (lastPiece path)) (i : Nat) :
    (∃ name, components (otherName path i) = components (dirOf path) ++ [Component.normal name]) ∧
      parent (otherName path i) = parent path := by
  unfold otherName
  split
  · rename_i ext found
    have isName := name_other found i
    have named : fileName path = some (lastPiece path) :=
      fileName_eq_some.mpr ⟨_, components_entry h⟩
    obtain ⟨front, whole, other⟩ := components_withFileName named isName
    obtain ⟨rfl, -⟩ := List.append_inj' (whole.symm.trans (components_entry h)) rfl
    exact ⟨⟨_, other⟩, parent_withFileName h isName⟩
  · exact ⟨components_numbered path i,
      parent_append h (name_numbered _ (sep_notMem_lastPiece path) i)⟩

theorem lastPiece_downloadPath (path : Path) :
    lastPiece (downloadPath path) = lastPiece path ++ '.' :: downloadExtension :=
  lastPiece_append (by decide) path

theorem dirOf_downloadPath (path : Path) : dirOf (downloadPath path) = dirOf path :=
  dirOf_append (by decide) path

/-! ## The handle at work -/

/-- Every effect so far is inside, and the handle has only what was made from confined
descriptions. The one it has open or is about to open is a file with contents, and an open
file is one that could be opened. `closed` is the index of a handle that is known to have no
open file. -/
structure Safe (disk : Nat → Disk) (targetDir : Path) (files : List FileDescription)
    (closed : Option Int) (w : Work) : Prop where
  target : w.handle.targetDir = targetDir
  list : w.handle.files = files
  inside : ∀ e ∈ w.done, Below (components e.1) (components e.2.path)
  inPlace : ∀ k, w.clock ≤ k → InPlace (disk k) targetDir
  download : Fit targetDir w.handle.downloadFilePath
  index : -1 ≤ w.handle.listIndex
  current : ∀ f, w.handle.file w.handle.listIndex = some f → f.kind = .file ∧ f.size ≠ 0
  received : ∀ f, w.handle.file w.handle.downloadFileIndex = some f →
    f.kind = .file ∧ Confined targetDir f
  ahead : ∀ f ∈ reached targetDir (files.drop w.handle.listIndex.toNat), Confined targetDir f
  opened : w.handle.fileHandle = true → w.handle.downloadFileIndex ≠ -1 ∧
    0 ≤ w.handle.listIndex ∧
    ∀ f, w.handle.file w.handle.listIndex = some f → '\x00' ∉ push targetDir f.name
  shut : ∀ i, closed = some i → w.handle.fileHandle = false ∧ w.handle.listIndex = i

section Work

variable {disk : Nat → Disk} {files : List FileDescription} {closed : Option Int}

theorem keeps_look :
    Keeps (Safe disk targetDir files closed) (look disk) (InPlace · targetDir) := by
  intro w safe
  refine ⟨safe.inPlace _ le_rfl, { safe with inPlace := ?_ }⟩
  intro k later
  exact safe.inPlace k (Nat.le_of_succ_le later)

theorem keeps_record {effect : Effect}
    (h : Below (components targetDir) (components effect.path)) :
    Keeps (Safe disk targetDir files closed) (record effect) fun _ => True := by
  intro w safe
  refine ⟨trivial, { safe with inside := ?_ }⟩
  intro e mem
  rcases List.mem_append.mp mem with mem | mem
  · exact safe.inside e mem
  · obtain rfl := List.mem_singleton.mp mem
    rw [safe.target]
    exact h

theorem keeps_updateHandle {f : PasteTaskHandle → PasteTaskHandle}
    (h : ∀ w, Safe disk targetDir files closed w →
      Safe disk targetDir files closed { w with handle := f w.handle }) :
    Keeps (Safe disk targetDir files closed) (updateHandle f) fun _ => True :=
  Keeps.modify h

theorem triple_updateHandle {P Q : Work → Prop} {f : PasteTaskHandle → PasteTaskHandle}
    (h : ∀ w, P w → Q { w with handle := f w.handle }) :
    Triple P (updateHandle f) fun _ => Q := h

theorem keeps_pathExists (path : Path) :
    Keeps (Safe disk targetDir files closed) (pathExists disk path) fun found =>
      found = true → '\x00' ∉ path := by
  refine Keeps.bind keeps_look fun d _ => Keeps.pure ?_
  intro found
  simp only [Bool.and_eq_true, decide_eq_true_eq] at found
  exact found.1

theorem keeps_pathIsDir (path : Path) :
    Keeps (Safe disk targetDir files closed) (pathIsDir disk path) fun _ => True :=
  Keeps.bind keeps_look fun _ _ => Keeps.pure trivial

/-- A directory that `mkdir` makes was not there before. -/
theorem keeps_mkdir (h : '\x00' ∉ path → DirEntry path →
      components path <+: components targetDir ∨
        Below (components targetDir) (components path)) :
    Keeps (Safe disk targetDir files closed) (mkdir disk path) fun result =>
      result = .error nulError ∨ '\x00' ∉ path := by
  refine Keeps.bind keeps_look fun d there => ?_
  refine Keeps.ite (fun _ => Keeps.pure (.inl rfl)) fun noNul => ?_
  refine Keeps.ite (fun free => ?_) fun _ => Keeps.pure (.inr noNul)
  refine Keeps.bind (keeps_record ?_) fun _ _ => Keeps.pure (.inr noNul)
  obtain ⟨entry, absent, -⟩ := free
  rcases h noNul entry with above | below
  · have nonempty : path ≠ [] := by
      rintro rfl
      exact absurd entry (by decide)
    rw [there path nonempty above] at absent
    exact absurd absent (by simp)
  · exact below

theorem keeps_createDirs {dirs : List Path} (h : ∀ dir ∈ dirs, DirEntry dir →
      components dir <+: components targetDir ∨
        Below (components targetDir) (components dir)) :
    Keeps (Safe disk targetDir files closed) (createDirs disk dirs) fun _ => True := by
  induction dirs with
  | nil => exact Keeps.pure trivial
  | cons dir dirs ih =>
    have this : Keeps (Safe disk targetDir files closed) (mkdir disk dir) fun _ => True :=
      (keeps_mkdir fun _ => h dir List.mem_cons_self).mono fun _ _ => trivial
    have above := ih fun d mem => h d (List.mem_cons_of_mem _ mem)
    refine Keeps.ite (fun _ => Keeps.pure trivial) fun _ => ?_
    refine Keeps.bind this fun made _ => ?_
    cases made with
    | ok => exact Keeps.pure trivial
    | error e =>
      refine Keeps.ite (fun _ => ?_) fun _ => ?_
      · refine Keeps.bind above fun up _ => ?_
        cases up with
        | error e => exact Keeps.pure trivial
        | ok =>
          refine Keeps.bind this fun again _ => ?_
          cases again with
          | ok => exact Keeps.pure trivial
          | error e =>
            refine Keeps.bind (keeps_pathIsDir dir) fun isDir _ => ?_
            exact Keeps.ite (fun _ => Keeps.pure trivial) fun _ => Keeps.pure trivial
      · refine Keeps.bind (keeps_pathIsDir dir) fun isDir _ => ?_
        exact Keeps.ite (fun _ => Keeps.pure trivial) fun _ => Keeps.pure trivial

theorem ancestors_eq_cons (path : Path) : ∃ above, ancestors path = path :: above := by
  unfold ancestors
  split
  · exact ⟨_, rfl⟩
  · exact ⟨_, rfl⟩

theorem keeps_createDirAll (h : OnTheWay targetDir path) :
    Keeps (Safe disk targetDir files closed) (createDirAll disk path) fun _ => True := by
  by_cases nul : '\x00' ∈ path
  · obtain ⟨above, eq⟩ := ancestors_eq_cons path
    have this : Keeps (Safe disk targetDir files closed) (mkdir disk path) fun result =>
        result = .error nulError :=
      (keeps_mkdir fun noNul => absurd nul noNul).mono fun result found =>
        found.resolve_right (absurd nul)
    rw [createDirAll, eq]
    refine Keeps.ite (fun _ => Keeps.pure trivial) fun _ => ?_
    refine Keeps.bind this fun made refused => ?_
    subst refused
    refine Keeps.bind (keeps_pathIsDir path) fun isDir _ => ?_
    exact Keeps.ite (fun _ => Keeps.pure trivial) fun _ => Keeps.pure trivial
  · exact keeps_createDirs (h nul)

theorem keeps_createFile (h : Fit targetDir path) :
    Keeps (Safe disk targetDir files closed) (createFile disk path) fun made =>
      made = .ok () → '\x00' ∉ path := by
  refine Keeps.bind keeps_look fun d _ => ?_
  refine Keeps.ite (fun free => ?_) fun _ => Keeps.pure (by simp)
  exact Keeps.bind (keeps_record (h free.1)) fun _ _ => Keeps.pure fun _ => free.1.1

theorem keeps_rename (source : Path) (h : Fit targetDir path) :
    Keeps (Safe disk targetDir files closed) (rename disk source path) fun _ => True := by
  refine Keeps.bind keeps_look fun d _ => ?_
  exact Keeps.ite (fun free => keeps_record (h free.1)) fun _ => Keeps.pure trivial

theorem keeps_removeFile (h : Fit targetDir path) :
    Keeps (Safe disk targetDir files closed) (removeFile disk path) fun _ => True := by
  refine Keeps.bind keeps_look fun d _ => ?_
  exact Keeps.ite (fun free => keeps_record (h free.1)) fun _ => Keeps.pure trivial

theorem keeps_firstFree {name : Nat → Path} {R : Path → Prop} (h : ∀ i, R (name i)) (n i : Nat) :
    Keeps (Safe disk targetDir files closed) (firstFree disk name n i) fun found =>
      ∀ p, found = some p → R p := by
  induction n generalizing i with
  | zero => exact Keeps.pure (by simp)
  | succ n ih =>
    refine Keeps.bind (keeps_pathExists (name i)) fun found _ => ?_
    refine Keeps.ite (fun _ => ih (i + 1)) fun _ => Keeps.pure ?_
    intro p eq
    obtain rfl := Option.some.inj eq
    exact h i

theorem keeps_getFirstFilename {R : Path → Prop} (self : R path)
    (other : '\x00' ∉ path → ∀ i, R (otherName path i)) :
    Keeps (Safe disk targetDir files closed) (getFirstFilename disk path .file) fun found =>
      ∀ p, found = some p → R p := by
  refine Keeps.bind (keeps_pathExists path) fun found noNul => ?_
  refine Keeps.ite (fun there => keeps_firstFree (other (noNul there)) _ _) fun _ => Keeps.pure ?_
  intro p eq
  obtain rfl := Option.some.inj eq
  exact self

theorem keeps_getNewFilename {f : FileDescription} (isFile : f.kind = .file)
    (h : Confined targetDir f) :
    Keeps (Safe disk targetDir files closed) (getNewFilename disk targetDir f) fun found =>
      ∀ p, found = some p → Fit targetDir p := by
  unfold Confined at h
  rw [isFile] at h
  have self : Fit targetDir (push targetDir f.name) := fit_of_within fun noNul => (h.1 noNul).1
  refine Keeps.bind (keeps_pathExists _) fun found _ => ?_
  refine Keeps.ite (fun _ => ?_) fun _ => Keeps.pure ?_
  · rw [isFile]
    exact keeps_getFirstFilename self fun noNul =>
      fit_otherName (h.1 noNul).1 (h.1 noNul).2
  · intro p eq
    obtain rfl := Option.some.inj eq
    exact self

/-- A download path is inside, and its directory is the one the condition speaks of. -/
theorem keeps_downloadName {f : FileDescription} (isFile : f.kind = .file)
    (h : Confined targetDir f) :
    Keeps (Safe disk targetDir files closed)
      (getFirstFilename disk (downloadPath (push targetDir f.name)) f.kind) fun found =>
      ∀ p, found = some p → Fit targetDir p ∧
        parent p = parent (downloadPath (push targetDir f.name)) ∧
          ('\x00' ∉ p → '\x00' ∉ push targetDir f.name) := by
  unfold Confined at h
  rw [isFile] at h ⊢
  have entry : Name (lastPiece (downloadPath (push targetDir f.name))) := by
    rw [lastPiece_downloadPath]
    exact name_download _ (sep_notMem_lastPiece _)
  have within : '\x00' ∉ downloadPath (push targetDir f.name) → Within (components targetDir)
      (components (dirOf (downloadPath (push targetDir f.name)))) := by
    intro noNul
    rw [dirOf_downloadPath]
    exact (h.1 fun mem => noNul (List.mem_append_left _ mem)).1
  have shorter : '\x00' ∉ downloadPath (push targetDir f.name) → '\x00' ∉ push targetDir f.name :=
    fun noNul mem => noNul (List.mem_append_left _ mem)
  refine keeps_getFirstFilename ⟨fit_of_within within, rfl, shorter⟩ fun noNul i => ?_
  obtain ⟨⟨name, eq⟩, same⟩ := otherName_of_entry entry i
  refine ⟨fun _ => ?_, same, fun _ => shorter noNul⟩
  rw [eq]
  exact (within noNul).below _

/-! ## The operations of the handle -/

theorem Safe.loosen {w : Work} (safe : Safe disk targetDir files closed w) :
    Safe disk targetDir files none w := { safe with shut := by simp }

theorem Safe.close {w : Work} (safe : Safe disk targetDir files closed w) :
    Safe disk targetDir files (some w.handle.listIndex)
      { w with handle := { w.handle with fileHandle := false } } :=
  { safe with opened := by simp, shut := by simp }

theorem keeps_onCancelled :
    Keeps (Safe disk targetDir files none) (onCancelled disk) fun _ => True := by
  refine Keeps.bind (keeps_updateHandle fun w safe => safe.close.loosen) fun _ _ => ?_
  exact Keeps.bind Keeps.get fun _ safe => keeps_removeFile safe.download

theorem keeps_onError (error : CliprdrError) :
    Keeps (Safe disk targetDir files none) (onError disk error) fun _ => True :=
  Keeps.bind (keeps_updateHandle fun _ safe => { safe with }) fun _ _ => keeps_onCancelled

theorem fit_nil : Fit targetDir [] := by
  intro entry
  exact absurd entry (by decide)

/-- After `on_done` no file is open. -/
theorem triple_onDone (i : Int) :
    Triple (fun w => Safe disk targetDir files none w ∧ w.handle.listIndex = i) (onDone disk)
      fun _ w => True ∧ Safe disk targetDir files (some i) w := by
  refine Triple.get_bind fun w pre => ?_
  obtain ⟨safe, rfl⟩ := pre
  by_cases idle : w.handle.fileHandle = false ∨ w.handle.downloadFileIndex = -1
  · rw [if_pos idle]
    have shut : w.handle.fileHandle = false := by
      rcases idle with shut | none
      · exact shut
      · by_contra opened
        exact (safe.opened (by simpa using opened)).1 none
    rintro s rfl
    exact ⟨trivial, { safe with shut := fun j eq => ⟨shut, Option.some.inj eq⟩ }⟩
  · rw [if_neg idle]
    have closes : Triple (· = w) (updateHandle fun h => { h with fileHandle := false })
        fun _ s => Safe disk targetDir files (some w.handle.listIndex) s := by
      rintro s rfl
      exact safe.close
    refine Triple.bind closes fun _ => ?_
    change Keeps _ _ fun _ => True
    split
    · exact Keeps.pure trivial
    · rename_i f found
      obtain ⟨isFile, confined⟩ := safe.received f found
      rw [safe.target]
      refine Keeps.bind (keeps_getNewFilename isFile confined) fun name fit => ?_
      cases name with
      | none => exact Keeps.pure trivial
      | some name =>
        refine Keeps.bind (keeps_rename _ (fit name rfl)) fun _ _ => ?_
        refine keeps_updateHandle fun s safe => ?_
        have shut := safe.shut _ rfl
        exact { safe with
          download := fit_nil
          received := by simp [PasteTaskHandle.file]
          opened := by simp [shut.1] }

theorem keeps_onFinished :
    Keeps (Safe disk targetDir files none) (onFinished disk) fun _ => True := by
  have ended : Keeps (Safe disk targetDir files none) (cancelledOrDone disk) fun _ => True := by
    refine Triple.get_bind fun w safe => ?_
    split
    · exact keeps_onCancelled.of_imp fun s eq => eq ▸ safe
    · intro s eq
      obtain ⟨-, done⟩ := triple_onDone w.handle.listIndex s ⟨eq ▸ safe, by rw [eq]⟩
      exact ⟨trivial, done.loosen⟩
  refine Keeps.bind ended fun _ _ => keeps_updateHandle fun w safe => ?_
  by_cases short : w.handle.currentSize ≠ w.handle.totalSize
  · rw [if_pos short]
    exact { safe with }
  · rw [if_neg short]
    exact safe

theorem keeps_ensureDir (h : OnTheWay targetDir path) :
    Keeps (Safe disk targetDir files closed) (ensureDir disk path) fun _ => True := by
  refine Keeps.bind (keeps_pathExists path) fun found _ => ?_
  exact Keeps.ite (fun _ => Keeps.pure trivial) fun _ => keeps_createDirAll h

theorem file_natCast {h : PasteTaskHandle} (i : Nat) : h.file i = h.files[i]? := by
  simp [PasteTaskHandle.file]

/-- The next file of the list is opened, or there is none open. -/
theorem triple_openDownload {f : FileDescription} {i : Nat} (at_i : files[i]? = some f)
    (isFile : f.kind = .file) (confined : Confined targetDir f) (fits : Fit targetDir path)
    (noNul : '\x00' ∉ path → '\x00' ∉ push targetDir f.name) :
    Triple (Safe disk targetDir files (some i)) (openDownload disk f path)
      fun _ => Safe disk targetDir files none := by
  refine Keeps.bind_triple (keeps_createFile fits) fun made created => ?_
  have last : ∀ result : Except CliprdrError Unit,
      Triple (Safe disk targetDir files none) (pure result)
        fun _ => Safe disk targetDir files none := fun _ => Triple.pure fun _ => id
  cases made with
  | error e =>
    refine Triple.bind (triple_updateHandle fun s safe => ?_) fun _ => last _
    exact { safe.loosen with }
  | ok =>
    refine Triple.bind (triple_updateHandle fun s safe => ?_) fun _ => last _
    obtain ⟨-, index⟩ := safe.shut i rfl
    have same : ∀ g, s.handle.file s.handle.listIndex = some g → g = f := by
      intro g found
      rw [index, file_natCast, safe.list, at_i] at found
      exact (Option.some.inj found).symm
    exact { safe with
      download := fits
      received := fun g found => same g found ▸ ⟨isFile, confined⟩
      opened := fun _ => by
        refine ⟨?_, ?_, fun g found => same g found ▸ noNul (created rfl)⟩
        · simp only [index]
          omega
        · simp only [index]
          omega
      shut := by simp }

theorem triple_openNewWriter {f : FileDescription} {i : Nat} (at_i : files[i]? = some f)
    (isFile : f.kind = .file) (nonempty : f.size ≠ 0) (confined : Confined targetDir f) :
    Triple (Safe disk targetDir files (some i)) (openNewWriter disk)
      fun _ => Safe disk targetDir files none := by
  refine Triple.get_bind fun w safe => ?_
  have found : w.handle.file w.handle.listIndex = some f := by
    rw [(safe.shut i rfl).2, file_natCast, safe.list, at_i]
  have failed : ∀ result : Except CliprdrError Unit,
      Triple (Safe disk targetDir files (some i)) (pure result)
        fun _ => Safe disk targetDir files none := fun _ => Triple.pure fun _ safe => safe.loosen
  refine Triple.of_imp ?_ fun s (eq : s = w) => eq ▸ safe
  rw [found, safe.target]
  refine Keeps.bind_triple (keeps_downloadName isFile confined) fun name fit => ?_
  cases name with
  | none => exact failed _
  | some name =>
    obtain ⟨fits, up, noNul⟩ := fit name rfl
    simp only
    split
    · exact failed _
    · rename_i dir isDir
      have way : OnTheWay targetDir dir := by
        have inside := confined
        unfold Confined at inside
        rw [isFile] at inside
        exact inside.2 nonempty dir (up ▸ isDir)
      refine Keeps.bind_triple (keeps_ensureDir way) fun made _ => ?_
      cases made with
      | error e => exact failed _
      | ok => exact triple_openDownload at_i isFile confined fits noNul

theorem triple_nextFile {rest : List FileDescription} {i : Nat} (split : files.drop i = rest)
    (confined : ∀ f ∈ reached targetDir rest, Confined targetDir f) (j : Int) :
    Triple (Safe disk targetDir files (some j)) (nextFile disk rest i)
      fun _ => Safe disk targetDir files none := by
  induction rest generalizing i with
  | nil => exact Triple.pure fun _ safe => safe.loosen
  | cons f rest ih =>
    have at_i : files[i]? = some f := by
      rw [← List.head?_drop, split, List.head?_cons]
    have inside := confined f List.mem_cons_self
    have later : ¬ Refused targetDir f →
        Triple (Safe disk targetDir files (some j)) (nextFile disk rest (i + 1))
          fun _ => Safe disk targetDir files none := by
      intro passed
      refine @ih (i + 1) ?_ fun g mem => confined g ?_
      · rw [← List.tail_drop, split, List.tail_cons]
      · rw [reached, if_neg passed]
        exact List.mem_cons_of_mem _ mem
    unfold nextFile
    cases kind : f.kind with
    | symlink => exact later (by simp [Refused, kind])
    | directory =>
      unfold Confined at inside
      rw [kind] at inside
      refine Keeps.bind_triple Keeps.get fun w safe => ?_
      rw [safe.target]
      exact Keeps.bind_triple (keeps_ensureDir inside) fun _ _ => later (by simp [Refused, kind])
    | file =>
      simp only
      by_cases empty : f.size = 0
      · have passed : ¬ Refused targetDir f := by simp [Refused, empty]
        rw [if_pos empty]
        refine Keeps.bind_triple Keeps.get fun w safe => ?_
        rw [safe.target]
        refine Keeps.bind_triple (keeps_getNewFilename kind inside) fun name fit => ?_
        cases name with
        | none => exact later passed
        | some name =>
          exact Keeps.bind_triple (keeps_createFile (fit name rfl)) fun _ _ => later passed
      · rw [if_neg empty]
        refine Triple.bind (triple_updateHandle fun w safe => ?_) fun _ =>
          triple_openNewWriter at_i kind empty inside
        obtain ⟨shut, -⟩ := safe.shut j rfl
        have index : (-1 : Int) ≤ i := by omega
        have current : ∀ g,
            ({ w.handle with listIndex := i, offset := 0 } : PasteTaskHandle).file i = some g →
              g.kind = .file ∧ g.size ≠ 0 := by
          intro g found
          rw [file_natCast] at found
          obtain rfl := Option.some.inj (at_i.symm.trans (safe.list ▸ found))
          exact ⟨kind, empty⟩
        have ahead : ∀ g ∈ reached targetDir (files.drop (i : Int).toNat),
            Confined targetDir g := by
          rw [Int.toNat_natCast, split]
          exact confined
        exact { safe with
          index := index
          current := current
          ahead := ahead
          opened := by simp [shut]
          shut := by simp [shut] }

/-- From an open file, or from the start, everything that comes next is confined. -/
theorem Safe.next {w : Work} (safe : Safe disk targetDir files closed w)
    (ready : w.handle.listIndex = -1 ∨ w.handle.fileHandle = true) :
    ∀ f ∈ reached targetDir (files.drop (w.handle.listIndex + 1).toNat), Confined targetDir f := by
  rcases ready with start | isOpen
  · have ahead := safe.ahead
    rw [start] at ahead ⊢
    exact ahead
  · obtain ⟨-, nonneg, noNul⟩ := safe.opened isOpen
    obtain ⟨i, eq⟩ := Int.eq_ofNat_of_zero_le nonneg
    have ahead := safe.ahead
    rw [eq] at ahead ⊢
    have step : ((i : Int) + 1).toNat = i + 1 := by omega
    rw [step]
    cases found : files.drop i with
    | nil =>
      rw [← List.tail_drop, found]
      simp [reached]
    | cons f rest =>
      have at_i : w.handle.file w.handle.listIndex = some f := by
        rw [eq, file_natCast, safe.list, ← List.head?_drop, found, List.head?_cons]
      have passed : ¬ Refused targetDir f := fun refused => noNul f at_i refused.2.2
      rw [Int.toNat_natCast, found, reached, if_neg passed] at ahead
      rw [← List.tail_drop, found, List.tail_cons]
      exact fun g mem => ahead g (List.mem_cons_of_mem _ mem)

/-- An update starts from an open file, or from the beginning. -/
def Ready (disk : Nat → Disk) (targetDir : Path) (files : List FileDescription) (w : Work) : Prop :=
  Safe disk targetDir files none w ∧ (w.handle.listIndex = -1 ∨ w.handle.fileHandle = true)

theorem triple_advance (size : Nat) :
    Triple (Ready disk targetDir files) (advance disk size)
      fun _ => Safe disk targetDir files none := by
  refine Triple.get_bind fun w pre => ?_
  obtain ⟨safe, ready⟩ := pre
  split
  · have done : Triple (· = w) (doneUnlessStart disk)
        fun _ => Safe disk targetDir files (some w.handle.listIndex) := by
      refine Triple.get_bind fun s eq => ?_
      subst eq
      by_cases start : s.handle.listIndex = -1
      · rw [if_pos start]
        have shut : s.handle.fileHandle = false := by
          by_contra isOpen
          have nonneg := (safe.opened (by simpa using isOpen)).2.1
          omega
        rintro _ rfl
        exact { safe with shut := fun j eq => ⟨shut, Option.some.inj eq⟩ }
      · rw [if_neg start]
        rintro _ rfl
        exact (triple_onDone _ _ ⟨safe, rfl⟩).2
    have next : ((w.handle.listIndex + 1).toNat : Int) = w.handle.listIndex + 1 :=
      Int.toNat_of_nonneg (by have := safe.index; omega)
    have rest := safe.next ready
    refine Triple.bind done fun _ => ?_
    rw [safe.list]
    generalize (w.handle.listIndex + 1).toNat = i at next rest ⊢
    rw [← next]
    exact triple_nextFile rfl rest _
  · rintro s rfl
    exact { safe with }

theorem triple_updateNext (size : Nat) :
    Triple (Ready disk targetDir files) (updateNext disk size)
      fun _ w => True ∧ Safe disk targetDir files none w := by
  refine Triple.get_bind fun w pre => ?_
  split
  · rintro s rfl
    exact ⟨trivial, pre.1⟩
  · have counted : Triple (· = w)
        (updateHandle fun h => { h with currentSize := (h.currentSize + size) % 2 ^ 64 })
        fun _ => Ready disk targetDir files := by
      refine triple_updateHandle fun s eq => ?_
      subst eq
      exact ⟨{ pre.1 with }, pre.2⟩
    refine Triple.bind counted fun _ => Triple.bind (triple_advance size) fun next => ?_
    cases next with
    | error e => exact Triple.pure fun s safe => ⟨trivial, safe⟩
    | ok =>
      refine Keeps.bind (keeps_updateHandle fun w safe => ?_) fun _ _ => Keeps.pure trivial
      by_cases isOpen : w.handle.fileHandle = true
      · rw [if_pos isOpen]
        exact safe
      · rw [if_neg isOpen]
        have index : (-1 : Int) ≤ w.handle.files.length := by omega
        have ahead : ∀ g ∈ reached targetDir (files.drop (w.handle.files.length : Int).toNat),
            Confined targetDir g := by
          simp [safe.list, reached]
        exact { safe with
          index := index
          current := by simp [PasteTaskHandle.file]
          ahead := ahead
          opened := fun isOpen' => absurd isOpen' isOpen
          shut := by simp }

theorem keeps_sendFileContentsRequest :
    Keeps (Safe disk targetDir files none) sendFileContentsRequest fun _ => True := by
  refine Keeps.bind Keeps.get fun w _ => ?_
  refine Keeps.ite (fun _ => Keeps.pure trivial) fun _ => ?_
  split
  · exact Keeps.pure trivial
  · exact Keeps.bind (Keeps.modify fun w safe => { safe with }) fun _ _ => Keeps.pure trivial

theorem keeps_requestOrFail :
    Keeps (Safe disk targetDir files none) (PasteTask.requestOrFail disk) fun _ => True := by
  refine Keeps.bind keeps_sendFileContentsRequest fun sent _ => ?_
  cases sent with
  | ok => exact Keeps.pure trivial
  | error e => exact keeps_onError e

theorem triple_begin :
    Triple (Ready disk targetDir files) (PasteTask.begin disk)
      fun _ w => True ∧ Safe disk targetDir files none w := by
  refine Triple.bind (triple_updateNext 0) fun _ => ?_
  refine Triple.of_imp (Keeps.bind Keeps.get fun w _ => ?_) fun s pre => pre.2
  exact Keeps.ite (fun _ => keeps_onFinished) fun _ => keeps_requestOrFail

theorem keeps_handleOrFail (data : Codec.Bytes) :
    Keeps (Safe disk targetDir files none) (PasteTask.handleOrFail disk data) fun _ => True := by
  have handled : Keeps (Safe disk targetDir files none)
      (handleFileContentsResponse disk data) fun _ => True := by
    refine Triple.get_bind fun w safe => ?_
    by_cases isOpen : w.handle.fileHandle = true
    · have looked : Triple (· = w) (look disk) fun _ => Ready disk targetDir files := by
        rintro s rfl
        exact ⟨(keeps_look s safe).2, .inr isOpen⟩
      simp only [isOpen, if_true]
      refine Triple.bind looked fun d => ?_
      split
      · exact Triple.pure fun s ready => ⟨trivial, ready.1⟩
      · exact triple_updateNext _
    · simp only [isOpen]
      rintro s rfl
      exact ⟨trivial, safe⟩
  refine Keeps.bind handled fun result _ => ?_
  cases result with
  | ok => exact Keeps.pure trivial
  | error e => exact keeps_onError e

end Work

/-! ## Runs -/

/-- The handle of a task is safe for its own directory and list. -/
structure TaskSafe (disk : Nat → Disk) (t : PasteTask) : Prop where
  inside : ∀ e ∈ t.done, Below (components e.1) (components e.2.path)
  handle : ∀ h, t.handle = some h →
    Safe disk h.targetDir h.files none ⟨h, t.clock, t.done, t.sent⟩

section Runs

variable {disk : Nat → Disk} {t : PasteTask} {h : PasteTaskHandle}

theorem taskSafe_work {c : TaskM Unit} {P : Work → Prop} (pre : P ⟨h, t.clock, t.done, t.sent⟩)
    (kept : Triple P c fun _ w => True ∧ Safe disk h.targetDir h.files none w) :
    TaskSafe disk (t.work h c) := by
  have after := (kept _ pre).2
  refine ⟨after.inside, ?_⟩
  intro g eq
  obtain rfl := Option.some.inj eq
  rw [after.target, after.list]
  exact after

theorem taskSafe_proceed (safe : TaskSafe disk t) : TaskSafe disk (t.proceed disk) := by
  unfold PasteTask.proceed
  cases found : t.handle with
  | none => exact safe
  | some h =>
    have own := safe.handle h found
    simp only
    split
    · exact taskSafe_work own keeps_onFinished
    · exact taskSafe_work own keeps_requestOrFail

theorem taskSafe_receive (response : FileContentsResponse) (safe : TaskSafe disk t) :
    TaskSafe disk (t.receive disk response) := by
  unfold PasteTask.receive
  cases found : t.handle with
  | none => exact safe
  | some h =>
    have own := safe.handle h found
    simp only
    split
    · exact safe
    · split
      · refine taskSafe_proceed ⟨safe.inside, ?_⟩
        intro g eq
        obtain rfl := Option.some.inj eq
        split
        · exact { own with }
        · exact own
      · split
        · exact safe
        · split
          · exact safe
          · exact taskSafe_proceed (taskSafe_work own (keeps_handleOrFail _))

theorem taskSafe_timeout (overdue : Bool) (safe : TaskSafe disk t) :
    TaskSafe disk (t.timeout disk overdue) := by
  unfold PasteTask.timeout
  cases found : t.handle with
  | none => exact safe
  | some h =>
    have own := safe.handle h found
    simp only
    split
    · refine taskSafe_work ?_ keeps_onFinished
      exact { own with }
    · exact safe

theorem taskSafe_cancel (safe : TaskSafe disk t) : TaskSafe disk (t.cancel disk) := by
  unfold PasteTask.cancel
  cases found : t.handle with
  | none => exact safe
  | some h =>
    have own := safe.handle h found
    refine taskSafe_work ?_ keeps_onCancelled
    exact { own with }

theorem taskSafe_start {targetDir : Path} {files : List FileDescription}
    (confined : ∀ f ∈ reached targetDir files, Confined targetDir f)
    (inPlace : ∀ k, t.clock ≤ k → InPlace (disk k) targetDir) (safe : TaskSafe disk t) :
    TaskSafe disk (t.start disk targetDir files) := by
  unfold PasteTask.start
  split
  · exact safe
  · refine taskSafe_work ⟨?_, .inl rfl⟩ triple_begin
    exact {
      target := rfl
      list := rfl
      inside := safe.inside
      inPlace := inPlace
      download := fit_nil
      index := le_rfl
      current := by simp [PasteTaskHandle.file]
      received := by simp [PasteTaskHandle.file]
      ahead := confined
      opened := by simp
      shut := by simp }

/-- For a format data response: from now on the directory stays where it is, and every
description of the PDU that the task can get to is confined to it. -/
def Meets (disk : Nat → Disk) (t : PasteTask) : Event → Prop
  | .formatData targetPath connId formatData =>
    ∀ targetDir files, targetPath.bind parent = some targetDir →
      FileDescription.parseFileDescriptors formatData connId = .ok files →
        (∀ k, t.clock < k → InPlace (disk k) targetDir) ∧
          ∀ f ∈ reached targetDir files, Confined targetDir f
  | _ => True

theorem taskSafe_handleFormatDataResponse {targetPath : Option Path} {connId : Int}
    {formatData : Codec.Bytes} (safe : TaskSafe disk t)
    (meets : Meets disk t (.formatData targetPath connId formatData)) :
    TaskSafe disk (t.handleFormatDataResponse disk targetPath connId formatData) := by
  have ticked : TaskSafe disk { t with clock := t.clock + 1 } := by
    refine ⟨safe.inside, fun h found => ?_⟩
    have own := safe.handle h found
    refine { own with inPlace := ?_ }
    intro k later
    exact own.inPlace k (Nat.le_of_succ_le later)
  cases dir : targetPath.bind parent with
  | none =>
    simp only [PasteTask.handleFormatDataResponse, dir]
    exact safe
  | some targetDir =>
    simp only [PasteTask.handleFormatDataResponse, dir]
    by_cases there : ('\x00' ∉ targetDir && (disk t.clock).present targetDir) = true
    · rw [if_pos there]
      cases parsed : FileDescription.parseFileDescriptors formatData connId with
      | error e => exact ticked
      | ok files =>
        obtain ⟨inPlace, confined⟩ := meets targetDir files dir parsed
        exact taskSafe_start confined inPlace ticked
    · rw [if_neg there]
      exact ticked

theorem taskSafe_step {e : Event} (safe : TaskSafe disk t) (meets : Meets disk t e) :
    TaskSafe disk (step disk t e) := by
  cases e with
  | formatData targetPath connId formatData =>
    exact taskSafe_handleFormatDataResponse safe meets
  | fileContents response => exact taskSafe_receive response safe
  | timeout overdue => exact taskSafe_timeout overdue safe
  | cancel => exact taskSafe_cancel safe

/-- **Where a paste writes.** While every PDU is confined to the directory it is pasted to,
whatever a task or its worker makes, renames to or removes is a descendant of the `target_dir`
of that task. -/
theorem paste_inside {events : List Event} (meets : Runs.Along (step disk) (Meets disk) {} events) :
    ∀ e ∈ (Runs.run (step disk) {} events).done,
      Below (components e.1) (components e.2.path) := by
  have start : TaskSafe disk {} := ⟨by simp, by simp⟩
  have safe : TaskSafe disk (Runs.run (step disk) {} events) :=
    Runs.invariant (fun _ _ => taskSafe_step) start meets
  exact safe.inside

end Runs

/-- A PDU with one description. -/
def onePdu (attributes size : Nat) (name : List Char) : Codec.Bytes :=
  Codec.toLittleEndian 4 1 ++ Codec.toLittleEndian 4 flagsFdAttributes ++ List.replicate 32 0 ++
    Codec.toLittleEndian 4 attributes ++ List.replicate 28 0 ++ Codec.toLittleEndian 4 size ++
    Utf16.encode name ++ List.replicate (520 - 2 * name.length) 0

def shared : Path := ['/', 't']

/-- Nothing but the directory of the paste, and nothing that forbids anything. -/
def sharedDisk : Disk where
  present path := decide (components path <+: components shared)
  isDir path := decide (components path <+: components shared)
  permits _ := true
  error _ := ⟨true, "No such file or directory"⟩
  writeError := none

theorem sharedDisk_inPlace : InPlace sharedDisk shared := fun _ _ above => decide_eq_true above

/-- A file `a.b` of one byte, received and complete. -/
def ordinaryPaste : List Event :=
  [.formatData (some (shared ++ ['/', 'p'])) 1 (onePdu 0 1 ['a', '.', 'b']),
    .fileContents ⟨1, 1, 0, [7]⟩]

theorem confined_ordinary {f : FileDescription} (isFile : f.kind = .file)
    (named : f.name = ['a', '.', 'b']) : Confined shared f := by
  unfold Confined
  rw [isFile, named]
  have up : parent (downloadPath (push shared ['a', '.', 'b'])) = some shared := by decide +kernel
  have root : parent shared = some ['/'] := by decide
  have top : parent ['/'] = (none : Option Path) := by decide
  have all : ancestors shared = [shared, ['/']] := by
    rw [ancestors]
    split
    · rename_i none
      simp [root] at none
    · rename_i base found
      obtain rfl := Option.some.inj (found.symm.trans root)
      rw [ancestors]
      split
      · rfl
      · rename_i found
        simp [top] at found
  refine ⟨fun _ => ⟨⟨[], by decide⟩, fun _ => ⟨[], ['a', '.', 'b'], by decide⟩⟩, ?_⟩
  intro _ dir eq _ above mem _
  obtain rfl := Option.some.inj (eq.symm.trans up)
  rw [all] at mem
  rcases List.mem_cons.mp mem with rfl | mem
  · exact .inl List.prefix_rfl
  · obtain rfl := List.mem_singleton.mp mem
    exact .inl (by decide)

theorem paste_inside_ordinary :
    (Runs.run (step fun _ => sharedDisk) {} ordinaryPaste).done.length = 2 ∧
      ∀ e ∈ (Runs.run (step fun _ => sharedDisk) {} ordinaryPaste).done,
        Below (components e.1) (components e.2.path) := by
  refine ⟨by decide +kernel, paste_inside ⟨?_, trivial, trivial⟩⟩
  intro targetDir files dir parsed
  have isDir : (some (shared ++ ['/', 'p'])).bind parent = some shared := by decide
  obtain rfl := Option.some.inj (dir.symm.trans isDir)
  refine ⟨fun _ _ => sharedDisk_inPlace, ?_⟩
  have all : (FileDescription.parseFileDescriptors (onePdu 0 1 ['a', '.', 'b']) 1).map
      (List.map fun f => (f.kind, f.name)) = .ok [(.file, ['a', '.', 'b'])] := by decide +kernel
  rw [parsed] at all
  intro f mem
  replace mem := reached_subset mem
  have one : (f.kind, f.name) ∈ files.map fun f => (f.kind, f.name) :=
    List.mem_map_of_mem mem
  rw [Except.ok.inj all, List.mem_singleton, Prod.mk.injEq] at one
  exact confined_ordinary one.1 one.2

/-- An empty file with the name `../x` is made beside the directory of the paste. -/
theorem dotdot_name_escapes :
    (∀ k, InPlace ((fun _ => sharedDisk : Nat → Disk) k) shared) ∧
      ∃ e ∈ (Runs.run (step fun _ => sharedDisk) {}
          [.formatData (some (shared ++ ['/', 'p'])) 1 (onePdu 0 0 ['.', '.', '/', 'x'])]).done,
        e = (shared, .createdFile (shared ++ ['/', '.', '.', '/', 'x'])) ∧
          ¬ Below (components e.1) (components e.2.path) := by
  have effects : (Runs.run (step fun _ => sharedDisk) {}
      [.formatData (some (shared ++ ['/', 'p'])) 1 (onePdu 0 0 ['.', '.', '/', 'x'])]).done =
        [(shared, .createdFile (shared ++ ['/', '.', '.', '/', 'x']))] := by decide +kernel
  refine ⟨fun _ => sharedDisk_inPlace, _, by rw [effects]; exact List.mem_singleton.mpr rfl,
    rfl, ?_⟩
  rintro ⟨names, name, eq⟩
  have path : normalise (components (shared ++ ['/', '.', '.', '/', 'x'])) =
      [.rootDir, .normal ['x']] := by decide
  have base : normalise (components shared) = [.rootDir, .normal ['t']] := by decide
  simp only [Effect.path] at eq
  rw [path, base] at eq
  simp at eq

end CamelliaRemote.Clipboard.Paste
