import CamelliaRemote.Clipboard.ServFiles

namespace CamelliaRemote.Clipboard
open Codec MachineInt

/-- A call of `read_file_contents`, with the file system that it finds. -/
structure Call where
  fs : Fs
  connId : Int := 1
  streamId : Int := 1
  listIndex : Int
  dwFlags : Int := 2
  nPositionLow : Int := 0
  nPositionHigh : Int := 0
  cbRequested : Int

abbrev Answer := List (Except CliprdrError ClipboardFile)

namespace Call

def request (c : Call) : Except CliprdrError FileContentsRequest :=
  FileContentsRequest.decode c.streamId c.listIndex c.dwFlags c.nPositionLow c.nPositionHigh
    c.cbRequested

/-- A call that panics changes nothing and answers nothing. -/
def perform (c : Call) (s : ClipFiles) : ClipFiles × Answer :=
  (s.readFileContents c.fs c.connId c.streamId c.listIndex c.dwFlags c.nPositionLow
    c.nPositionHigh c.cbRequested).getD (s, [])

end Call

def run (s : ClipFiles) (calls : List Call) : ClipFiles :=
  calls.foldl (fun s c => (c.perform s).1) s

/-- The answers to the calls, one after another. -/
def answers (s : ClipFiles) : List Call → List Answer
  | [] => []
  | c :: calls => (c.perform s).2 :: answers (c.perform s).1 calls

/-- The answer has at least one byte of the contents of the file. -/
def Carries (s : ClipFiles) (c : Call) (file : LocalFile) : Prop :=
  ∃ streamId fileIdx offset length, c.request = .ok (.range streamId fileIdx offset length) ∧
    s.fileList[fileIdx]? = some file ∧
    ∃ msgFlags data, .ok (.fileContentsResponse msgFlags streamId data) ∈ (c.perform s).2 ∧
      data ≠ []

/-- The answer has a record with the file. -/
def Records (answer : Answer) (file : LocalFile) : Prop :=
  ∃ files, .ok (.files files) ∈ answer ∧ (fromUtf8Lossy file.path, file.size) ∈ files

/-- The call asks for the first file from its start while `file` is a regular file. It
does not ask for more than 2^63 bytes of a file that has so many. -/
def Begins (s : ClipFiles) (c : Call) (file : LocalFile) : Prop :=
  ∃ streamId length, c.request = .ok (.range streamId s.firstFileIndex 0 length) ∧
    c.fs.isFile file.path ∧
    ∀ first, s.fileList[s.firstFileIndex]? = some first →
      length < 2 ^ 63 ∨ first.size.toNat < 2 ^ 63

def LocalFile.entry (f : LocalFile) : Bytes × UInt64 := (f.path, f.size)

/-- The same files are listed. -/
structure SameFiles (s s' : ClipFiles) : Prop where
  entries : s'.fileList.map LocalFile.entry = s.fileList.map LocalFile.entry
  first : s'.firstFileIndex = s.firstFileIndex

theorem SameFiles.refl (s : ClipFiles) : SameFiles s s := ⟨rfl, rfl⟩

theorem SameFiles.trans {s t u : ClipFiles} (h : SameFiles s t) (h' : SameFiles t u) :
    SameFiles s u :=
  ⟨h'.entries.trans h.entries, h'.first.trans h.first⟩

namespace LocalFile

/-- The file without its reader. -/
def unread (f : LocalFile) : LocalFile := { f with handle := none, offset := 0 }

/-- The reader, if there is one, stands at the offset. -/
def InPlace (f : LocalFile) : Prop := f.handle.getD 0 = f.offset

/-- Nothing but the reader is another one. -/
structure Reread (f f' : LocalFile) : Prop where
  same : f'.unread = f.unread
  inPlace : f.InPlace → f'.InPlace

theorem Reread.refl (f : LocalFile) : Reread f f := ⟨rfl, id⟩

end LocalFile

namespace ClipFiles

/-- The copied files without their readers. -/
def unread (s : ClipFiles) : ClipFiles := { s with fileList := s.fileList.map LocalFile.unread }

def InPlace (s : ClipFiles) : Prop := ∀ f ∈ s.fileList, f.InPlace

structure Reread (s s' : ClipFiles) : Prop where
  same : s'.unread = s.unread
  inPlace : s.InPlace → s'.InPlace

theorem Reread.refl (s : ClipFiles) : Reread s s := ⟨rfl, id⟩

theorem Reread.trans {s t u : ClipFiles} (h : Reread s t) (h' : Reread t u) : Reread s u :=
  ⟨h'.same.trans h.same, h'.inPlace ∘ h.inPlace⟩

theorem Reread.sameFiles {s s' : ClipFiles} (h : Reread s s') : SameFiles s s' := by
  have files : s'.fileList.map LocalFile.unread = s.fileList.map LocalFile.unread :=
    congrArg fileList h.same
  have entries := congrArg (List.map LocalFile.entry) files
  rw [List.map_map, List.map_map] at entries
  exact ⟨entries, show s'.unread.firstFileIndex = s.unread.firstFileIndex by rw [h.same]⟩

end ClipFiles

variable {fs : Fs} {f : LocalFile} {s : ClipFiles}

theorem reread_loadHandle {f' : LocalFile} (h : f.loadHandle fs = .ok f') : f.Reread f' := by
  unfold LocalFile.loadHandle at h
  split at h
  · rename_i opens
    split at h
    · cases h
    · cases h
    · cases h
      refine ⟨rfl, fun inPlace => ?_⟩
      have none : f.handle = none := by
        rw [Bool.and_eq_true, Option.isNone_iff_eq_none] at opens
        exact opens.2
      rw [LocalFile.InPlace, none] at inPlace
      exact inPlace
  · cases h
    exact .refl f

theorem reread_readExactAt (len offset : Nat) : f.Reread (f.readExactAt fs len offset).1 := by
  unfold LocalFile.readExactAt
  split
  · exact .refl f
  · rename_i f' loaded
    have opened := reread_loadHandle loaded
    split
    · exact opened
    · split
      · exact ⟨opened.same, fun _ => rfl⟩
      · dsimp only
        split
        · exact ⟨opened.same, fun _ => rfl⟩
        · exact ⟨opened.same, fun _ => rfl⟩

theorem reread_set {fileIdx : Nat} {f' : LocalFile} (listed : s.fileList[fileIdx]? = some f)
    (reread : f.Reread f') : s.Reread { s with fileList := s.fileList.set fileIdx f' } := by
  constructor
  · simp only [ClipFiles.unread]
    rw [List.map_set, reread.same]
    refine congrArg (ClipFiles.mk _ _ · _ _) (List.ext_getElem? fun i => ?_)
    rw [List.getElem?_set]
    split
    · rename_i here
      subst here
      rw [List.getElem?_map, listed, List.length_map,
        if_pos (List.getElem?_eq_some_iff.mp listed).1]
      rfl
    · rfl
  · intro inPlace g mem
    rcases List.mem_or_eq_of_mem_set mem with old | rfl
    · exact inPlace g old
    · exact reread.inPlace (inPlace f (List.mem_of_getElem? listed))

theorem reread_reloadNext {files files' : List LocalFile}
    (h : ClipFiles.reloadNext fs files = .ok files') :
    files'.map LocalFile.unread = files.map LocalFile.unread ∧
      ((∀ f ∈ files, f.InPlace) → ∀ f ∈ files', f.InPlace) := by
  induction files generalizing files' with
  | nil =>
    cases h
    exact ⟨rfl, id⟩
  | cons f files ih =>
    simp only [List.map_cons, List.forall_mem_cons]
    unfold ClipFiles.reloadNext at h
    split at h
    · cases rest : ClipFiles.reloadNext fs files with
      | error e =>
        rw [rest] at h
        cases h
      | ok files' =>
        rw [rest] at h
        cases h
        obtain ⟨same, inPlace⟩ := ih rest
        exact ⟨by rw [List.map_cons, same], fun all => List.forall_mem_cons.mpr
          ⟨all.1, inPlace all.2⟩⟩
    · cases loaded : f.loadHandle fs with
      | error e =>
        rw [loaded] at h
        cases h
      | ok f' =>
        rw [loaded] at h
        cases h
        have opened := reread_loadHandle loaded
        exact ⟨by rw [List.map_cons, opened.same], fun all => List.forall_mem_cons.mpr
          ⟨opened.inPlace all.1, all.2⟩⟩

theorem reread_respond (fileIdx : Nat) (response : ClipboardFile) :
    s.Reread (s.respond fs fileIdx response).1 := by
  unfold ClipFiles.respond
  split
  · exact .refl s
  · rename_i next reloaded
    obtain ⟨same, inPlace⟩ := reread_reloadNext reloaded
    constructor
    · simp only [ClipFiles.unread]
      rw [List.map_append, same, ← List.map_append, List.take_append_drop]
    · intro all f mem
      rcases List.mem_append.mp mem with before | after
      · exact all f (List.mem_of_mem_take before)
      · exact inPlace (fun f mem => all f (List.mem_of_mem_drop mem)) f after

theorem reread_serve {connId : Int} {request : FileContentsRequest} {s' : ClipFiles}
    {result : Except CliprdrError ClipboardFile}
    (h : s.serveFileContents fs connId request = some (s', result)) : s.Reread s' := by
  cases request with
  | size streamId fileIdx =>
    rw [ClipFiles.serveFileContents] at h
    split at h
    · cases h
      exact .refl s
    · obtain rfl : _ = s' := congrArg Prod.fst (Option.some.inj h)
      exact reread_respond fileIdx _
  | range streamId fileIdx offset length =>
    rw [ClipFiles.serveFileContents] at h
    split at h
    · cases h
      exact .refl s
    rename_i file listed
    split at h
    · cases h
      exact .refl s
    dsimp only at h
    generalize (if file.size.toNat < (offset + length) % 2 ^ 64 then
      file.size.toNat - offset else length) = readSize at h
    split at h
    · cases h
    have set := reread_set listed (@reread_readExactAt fs file readSize offset)
    split at h
    · cases h
      exact set
    · obtain rfl : _ = s' := congrArg Prod.fst (Option.some.inj h)
      exact set.trans (reread_respond fileIdx _)

theorem reread_perform (c : Call) (s : ClipFiles) : s.Reread (c.perform s).1 := by
  unfold Call.perform ClipFiles.readFileContents
  split
  · exact .refl s
  · dsimp only
    split
    · exact .refl s
    · rename_i s' result served
      exact reread_serve served

theorem sameFiles_perform (c : Call) (s : ClipFiles) : SameFiles s (c.perform s).1 :=
  (reread_perform c s).sameFiles

theorem sameFiles_run (s : ClipFiles) (calls : List Call) : SameFiles s (run s calls) := by
  induction calls generalizing s with
  | nil => exact .refl s
  | cons c calls ih => exact (sameFiles_perform c s).trans (ih _)

theorem SameFiles.getElem? {s s' : ClipFiles} (h : SameFiles s s') {i : Nat} {f' : LocalFile}
    (listed : s'.fileList[i]? = some f') :
    ∃ f, s.fileList[i]? = some f ∧ f.path = f'.path ∧ f.size = f'.size := by
  have at_i : (s'.fileList.map LocalFile.entry)[i]? = some f'.entry := by
    rw [List.getElem?_map, listed]
    rfl
  rw [h.entries, List.getElem?_map, Option.map_eq_some_iff] at at_i
  obtain ⟨f, isFile, same⟩ := at_i
  exact ⟨f, isFile, congrArg Prod.fst same, congrArg Prod.snd same⟩

theorem length_lt_of_decode {streamId listIndex dwFlags low high cb : Int} {streamId' : Int}
    {fileIdx offset length : Nat}
    (h : FileContentsRequest.decode streamId listIndex dwFlags low high cb =
      .ok (.range streamId' fileIdx offset length)) : length < 2 ^ 64 := by
  unfold FileContentsRequest.decode at h
  split at h
  · cases h
  · split at h
    · cases h
      unfold asU64
      omega
    · cases h

/-- A request from the start of a file does not panic. -/
theorem serve_from_start {connId streamId : Int} {fileIdx length : Nat} (word : length < 2 ^ 64)
    (small : ∀ first, s.fileList[fileIdx]? = some first →
      length < 2 ^ 63 ∨ first.size.toNat < 2 ^ 63) :
    s.serveFileContents fs connId (.range streamId fileIdx 0 length) ≠ none := by
  intro panics
  rw [ClipFiles.serveFileContents] at panics
  split at panics
  · cases panics
  rename_i file listed
  rw [if_neg (Nat.not_lt_zero _)] at panics
  dsimp only at panics
  rw [Nat.zero_add, Nat.mod_eq_of_lt word] at panics
  generalize isSize : (if file.size.toNat < length then file.size.toNat - 0 else length) = readSize
    at panics
  have fits : readSize < 2 ^ 63 := by
    have := small file listed
    split at isSize <;> omega
  rw [if_neg (Nat.not_le.mpr fits)] at panics
  split at panics <;> cases panics

/-- The request that begins with the first file is answered with a record. -/
theorem records_perform {s' : ClipFiles} {c : Call} {file : LocalFile} (same : SameFiles s s')
    (listed : file.entry ∈ s.fileList.map LocalFile.entry) (begins : Begins s c file) :
    Records (c.perform s').2 file := by
  obtain ⟨streamId, length, request, isFile, small⟩ := begins
  have word := length_lt_of_decode request
  obtain ⟨⟨s'', result⟩, served⟩ := Option.ne_none_iff_exists'.mp
    (@serve_from_start c.fs s' c.connId streamId s.firstFileIndex length word (by
      intro first' listed'
      obtain ⟨first, listed, -, size⟩ := same.getElem? listed'
      rw [← size]
      exact small first listed))
  have inRecord : (fromUtf8Lossy file.path, file.size) ∈ s'.filesForAudit c.fs := by
    rw [← same.entries] at listed
    obtain ⟨f, mem, entry⟩ := List.mem_map.mp listed
    have path : f.path = file.path := congrArg Prod.fst entry
    have size : f.size = file.size := congrArg Prod.snd entry
    refine List.mem_map.mpr ⟨f, List.mem_filter.mpr ⟨mem, path ▸ isFile⟩, ?_⟩
    rw [path, size]
  have record : s'.getFilesForAudit c.fs (.range streamId s.firstFileIndex 0 length) =
      some (.files (s'.filesForAudit c.fs)) := by
    rw [ClipFiles.getFilesForAudit, if_pos ⟨same.first.symm, rfl⟩, if_neg]
    intro empty
    rw [List.isEmpty_iff.mp empty] at inRecord
    cases inRecord
  refine ⟨s'.filesForAudit c.fs, ?_, inRecord⟩
  unfold Call.request at request
  unfold Call.perform ClipFiles.readFileContents
  rw [request]
  simp only [served, record]
  exact List.mem_cons_self

theorem answers_append (s : ClipFiles) (a b : List Call) :
    answers s (a ++ b) = answers s a ++ answers (run s a) b := by
  induction a generalizing s with
  | nil => rfl
  | cons c a ih =>
    rw [List.cons_append, answers, ih]
    rfl

/-- **Served files are audited** once the peer has begun with the first file: a
record with the file comes with this answer or came with an earlier one. -/
theorem transfers_audited (s : ClipFiles) (earlier : List Call) (c : Call) (file : LocalFile)
    (carries : Carries (run s earlier) c file)
    (begun : ∃ c' ∈ earlier ++ [c], Begins s c' file) :
    ∃ answer ∈ answers s (earlier ++ [c]), Records answer file := by
  obtain ⟨-, fileIdx, -, -, -, isListed, -⟩ := carries
  have listed : file.entry ∈ s.fileList.map LocalFile.entry := by
    rw [← (sameFiles_run s earlier).entries]
    exact List.mem_map_of_mem (List.mem_of_getElem? isListed)
  obtain ⟨c', mem, begins⟩ := begun
  obtain ⟨before, after, split⟩ := List.append_of_mem mem
  refine ⟨(c'.perform (run s before)).2, ?_, records_perform (sameFiles_run s before) listed begins⟩
  rw [split, answers_append]
  exact List.mem_append_right _ List.mem_cons_self

/-- Two files of three bytes. -/
def twoFilesFs : Fs where
  metadata _ := .ok { len := 3, isDir := false }
  readDir _ := .ok []
  openFile _ := .ok ()
  content _ := .ok [1, 2, 3]

def twoFiles : ClipFiles :=
  ((ClipFiles.sync twoFilesFs 3 ["/home/a", "/home/b"] {}).map Prod.fst).getD {}

def secondFile : LocalFile where
  relativeRoot := utf8 "/home"
  path := utf8 "/home/b"
  size := 3
  lastWriteTime := 0
  isDir := false
  perm := 0
  readOnly := false
  hidden := false
  system := false
  archive := false
  normal := true

/-- The request for three bytes from the start of a file. -/
def threeBytes (listIndex : Int) : Call := { fs := twoFilesFs, listIndex, cbRequested := 3 }

theorem transfers_audited_in_order :
    Carries (run twoFiles [threeBytes 0]) (threeBytes 1) { secondFile with handle := some 0 } ∧
      ∃ answer ∈ answers twoFiles [threeBytes 0, threeBytes 1],
        Records answer { secondFile with handle := some 0 } := by
  have carries : Carries (run twoFiles [threeBytes 0]) (threeBytes 1)
      { secondFile with handle := some 0 } :=
    ⟨1, 1, 0, 3, by decide +kernel, by decide +kernel, 1, [1, 2, 3], by decide +kernel, by simp⟩
  refine ⟨carries, transfers_audited twoFiles [threeBytes 0] (threeBytes 1) _ carries
    ⟨threeBytes 0, List.mem_cons_self, 1, 3, by decide +kernel, by decide +kernel, ?_⟩⟩
  exact fun _ _ => .inl (by decide)

/-- A peer that begins with the second file gets its bytes, and no record. -/
theorem unaudited_second_file :
    (ClipFiles.sync twoFilesFs 3 ["/home/a", "/home/b"] {}).map Prod.snd = some .ok ∧
      Carries twoFiles (threeBytes 1) secondFile ∧
      ¬ ∃ answer ∈ answers twoFiles [threeBytes 1], Records answer secondFile := by
  refine ⟨by decide +kernel, ⟨1, 1, 0, 3, by decide +kernel, by decide +kernel, 1, [1, 2, 3],
    by decide +kernel, by simp⟩, ?_⟩
  rintro ⟨answer, mem, files, record, -⟩
  have only : answers twoFiles [threeBytes 1] = [[.ok (.fileContentsResponse 1 1 [1, 2, 3])]] := by
    decide +kernel
  rw [only, List.mem_singleton] at mem
  rw [mem, List.mem_singleton] at record
  cases record

end CamelliaRemote.Clipboard
