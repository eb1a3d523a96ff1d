import CamelliaRemote.Clipboard.Audit
import CamelliaRemote.Lib.Runs

namespace CamelliaRemote.Clipboard
open Codec MachineInt Runs

/-- What happens to `CLIP_FILES`. -/
inductive FilesEvent where
  | sync (fs : Fs) (fuel : Nat) (files : List String)
  | clear
  | request (c : Call)

def ClipFiles.step (s : ClipFiles) : FilesEvent → ClipFiles
  | .sync fs fuel files => ((ClipFiles.sync fs fuel files s).map Prod.fst).getD s
  | .clear => s.clear
  | .request c => (c.perform s).1

def Walk.InPlace (walk : Walk) : Prop := ∀ f ∈ walk.fileList, f.InPlace

variable {fs : Fs} {s : ClipFiles}

theorem inPlace_tryOpen {relativeRoot path : Bytes} {f : LocalFile}
    (h : LocalFile.tryOpen fs relativeRoot path = .ok f) : f.InPlace := by
  unfold LocalFile.tryOpen at h
  split at h
  · cases h
  · cases h
    rfl

theorem inPlace_walkEntries {dir : Bytes} {next : Bytes → Walk → Walked}
    (keeps : ∀ path walk walk', next path walk = some (.ok walk') → walk.InPlace →
      walk'.InPlace) {entries : List (Except String Bytes)} {walk walk' : Walk}
    (h : walkEntries dir next entries walk = some (.ok walk')) (inPlace : walk.InPlace) :
    walk'.InPlace := by
  induction entries generalizing walk with
  | nil =>
    cases h
    exact inPlace
  | cons entry entries ih =>
    cases entry with
    | error e => cases h
    | ok name =>
      rw [walkEntries] at h
      split at h
      · rename_i walk₁ walked
        exact ih h (keeps _ _ _ walked inPlace)
      · rename_i stops
        exact absurd h (stops walk')

theorem inPlace_constrFileLst {relativeRoot : Bytes} {fuel : Nat} {path : Bytes}
    {walk walk' : Walk} (h : constrFileLst fs relativeRoot fuel path walk = some (.ok walk'))
    (inPlace : walk.InPlace) : walk'.InPlace := by
  induction fuel generalizing path walk walk' with
  | zero => cases h
  | succ fuel ih =>
    rw [constrFileLst] at h
    split at h
    · cases h
      exact inPlace
    split at h
    · cases h
    rename_i file opened
    have added : Walk.InPlace ⟨walk.fileList ++ [file], path :: walk.visited⟩ := by
      intro f mem
      rcases List.mem_append.mp mem with old | new
      · exact inPlace f old
      · rw [List.mem_singleton.mp new]
        exact inPlace_tryOpen opened
    dsimp only at h
    split at h
    · cases h
    split at h
    · split at h
      · cases h
      · exact inPlace_walkEntries (fun _ _ _ walked => ih walked) h added
    · cases h
      exact added

theorem inPlace_walkPaths {relativeRoot : Bytes} {fuel : Nat} {paths : List Bytes}
    {walk walk' : Walk} (h : walkPaths fs relativeRoot fuel paths walk = some (.ok walk'))
    (inPlace : walk.InPlace) : walk'.InPlace := by
  induction paths generalizing walk with
  | nil =>
    cases h
    exact inPlace
  | cons path paths ih =>
    rw [walkPaths] at h
    split at h
    · rename_i walk₁ walked
      exact ih h (inPlace_constrFileLst walked inPlace)
    · rename_i stops
      exact absurd h (stops walk')

theorem inPlace_constructFileList {fuel : Nat} {paths : List Bytes} {fileList : List LocalFile}
    (h : constructFileList fs fuel paths = some (.ok fileList)) : ∀ f ∈ fileList, f.InPlace := by
  unfold constructFileList at h
  split at h
  · cases h
  split at h
  · cases h
  rename_i relativeRoot _
  obtain ⟨walked, eq, isList⟩ := Option.map_eq_some_iff.mp h
  cases walked with
  | error e => cases isList
  | ok walk =>
    cases isList
    exact inPlace_walkPaths eq (fun f mem => absurd mem List.not_mem_nil)

theorem inPlace_sync (inPlace : s.InPlace) {fuel : Nat} {files : List String} {s' : ClipFiles}
    {ended : ClipFiles.SyncEnd} (h : ClipFiles.sync fs fuel files s = some (s', ended)) :
    s'.InPlace := by
  unfold ClipFiles.sync at h
  dsimp only at h
  split at h
  · cases h
    exact inPlace
  split at h
  · cases h
  · cases h
    exact inPlace
  · rename_i fileList constructed
    have inPlace := inPlace_constructFileList constructed
    split at h
    · cases h
      exact inPlace
    · cases h
      exact inPlace

theorem inPlace_step (inPlace : s.InPlace) (e : FilesEvent) : (s.step e).InPlace := by
  cases e with
  | sync fs fuel files =>
    rw [ClipFiles.step]
    cases synced : ClipFiles.sync fs fuel files s with
    | none => exact inPlace
    | some result => exact inPlace_sync inPlace synced
  | clear => exact fun f mem => absurd mem List.not_mem_nil
  | request c => exact (reread_perform c s).inPlace inPlace

theorem inPlace_run (events : List FilesEvent) : (Runs.run ClipFiles.step {} events).InPlace := by
  refine invariant (I := ClipFiles.InPlace) (fun s e inPlace _ => inPlace_step inPlace e) ?_
    (along_true _ events)
  exact fun f mem => absurd mem List.not_mem_nil

/-- The size of the buffer for a range. -/
def readSize (size offset length : Nat) : Nat :=
  if size < (offset + length) % 2 ^ 64 then size - offset else length

theorem readSize_eq_min {size offset length : Nat} (fits : offset + length < 2 ^ 64)
    (within : offset ≤ size) :
    readSize size offset length = min (offset + length) size - offset := by
  unfold readSize
  rw [Nat.mod_eq_of_lt fits]
  split <;> omega

theorem readExact_ok {f : LocalFile} {position len : Nat} {data : Bytes}
    (h : f.readExact fs position len = .ok data) :
    ∃ bytes, fs.content f.path = .ok bytes ∧ data = (bytes.drop position).take len ∧
      data.length = len := by
  unfold LocalFile.readExact at h
  split at h
  · cases h
  · rename_i bytes found
    split at h
    · cases h
    · cases h
      refine ⟨bytes, found, rfl, ?_⟩
      rw [List.length_take]
      omega

/-- A read gives the bytes from the offset on. -/
theorem readExactAt_ok {f f' : LocalFile} {len offset : Nat} {data : Bytes}
    (inPlace : f.InPlace) (h : f.readExactAt fs len offset = (f', .ok data)) :
    ∃ bytes, fs.content f.path = .ok bytes ∧ data = (bytes.drop offset).take len ∧
      data.length = len := by
  unfold LocalFile.readExactAt at h
  split at h
  · cases h
  rename_i opened loaded
  have reread := reread_loadHandle loaded
  have samePath : opened.path = f.path :=
    show opened.unread.path = f.unread.path by rw [reread.same]
  have atOffset := reread.inPlace inPlace
  split at h
  · cases h
  rename_i position handle
  have stands : (if offset ≠ opened.offset then offset else position) = offset := by
    rw [LocalFile.InPlace, handle] at atOffset
    split
    · rfl
    · rename_i same
      rw [not_not.mp same]
      exact atOffset
  rw [stands] at h
  split at h
  · cases h
  · rename_i bytes read
    rw [← samePath]
    dsimp only at h
    split at h
    · cases h
      exact readExact_ok read
    · cases h
      exact readExact_ok read

/-- `data` is what the request asks for: the size of the file, or its bytes from the offset to
the end of the range or of the file. -/
def Answers (fs : Fs) (s : ClipFiles) : FileContentsRequest → Bytes → Prop
  | .size _ fileIdx, data => ∃ file, s.fileList[fileIdx]? = some file ∧
    data = toLittleEndian 8 file.size.toNat
  | .range _ fileIdx offset length, data => ∃ file bytes, s.fileList[fileIdx]? = some file ∧
    fs.content file.path = .ok bytes ∧ offset ≤ file.size.toNat ∧
    let stop := min (offset + length) file.size.toNat
    data = (bytes.take stop).drop offset ∧ data.length = stop - offset

/-- A range of a listed file that is read, not refused. -/
def Reads (s : ClipFiles) (c : Call) (file : LocalFile) (offset length : Nat) : Prop :=
  ∃ streamId fileIdx, c.request = .ok (.range streamId fileIdx offset length) ∧
    s.fileList[fileIdx]? = some file ∧ offset ≤ file.size.toNat

/-- The call is served within its bounds. -/
structure ServedInBounds (s : ClipFiles) (c : Call) : Prop where
  noOverflow : ∀ file offset length, Reads s c file offset length → offset + length < 2 ^ 64
  buffer : ∀ file offset length, Reads s c file offset length →
    readSize file.size.toNat offset length ≤ file.size.toNat - offset
  answered : ∃ s' record result, s.readFileContents c.fs c.connId c.streamId c.listIndex c.dwFlags
      c.nPositionLow c.nPositionHigh c.cbRequested = some (s', record ++ [result]) ∧
    ((∃ e, result = .error e ∧ s'.unread = s.unread) ∨
      ∃ request data, c.request = .ok request ∧ Answers c.fs s request data ∧
        result = .ok (.fileContentsResponse 0x1 c.streamId data))

/-- The end of the range is no number of 64 bits, or the range has 2^63 bytes of the file. -/
def TooLong (size offset length : Nat) : Prop :=
  2 ^ 64 ≤ offset + length ∨ 2 ^ 63 ≤ min length (size - offset)

theorem respond_result (fileIdx : Nat) (response : ClipboardFile) :
    (∃ e, (s.respond fs fileIdx response).2 = .error e) ∨
      (s.respond fs fileIdx response).2 = .ok response := by
  unfold ClipFiles.respond
  split
  · rename_i e _
    exact .inl ⟨e, rfl⟩
  · exact .inr rfl

theorem serve_range (connId streamId : Int) {fileIdx offset length : Nat} {file : LocalFile}
    (listed : s.fileList[fileIdx]? = some file) (within : offset ≤ file.size.toNat)
    (small : readSize file.size.toNat offset length < 2 ^ 63) (inPlace : s.InPlace) :
    ∃ s' result, s.serveFileContents fs connId (.range streamId fileIdx offset length) =
        some (s', result) ∧
      ((∃ e, result = .error e) ∨ ∃ bytes data, fs.content file.path = .ok bytes ∧
        data = (bytes.drop offset).take (readSize file.size.toNat offset length) ∧
        data.length = readSize file.size.toNat offset length ∧
        result = .ok (.fileContentsResponse 0x1 streamId data)) := by
  rw [ClipFiles.serveFileContents, listed]
  dsimp only
  rw [if_neg (by omega), if_neg (by rw [readSize] at small; omega)]
  cases read : file.readExactAt fs (readSize file.size.toNat offset length) offset with
  | mk file' result =>
    rw [readSize] at read
    rw [read]
    cases result with
    | error e => exact ⟨_, _, rfl, .inl ⟨e, rfl⟩⟩
    | ok data =>
      obtain ⟨bytes, found, isData, size⟩ :=
        readExactAt_ok (inPlace file (List.mem_of_getElem? listed)) read
      refine ⟨_, _, rfl, ?_⟩
      rcases respond_result fileIdx (.fileContentsResponse 0x1 streamId data) with failed | answered
      · exact .inl failed
      · exact .inr ⟨bytes, data, found, isData, size, answered⟩

/-- A buffer of 2^63 bytes cannot be made. -/
theorem serve_range_panics (connId streamId : Int) {fileIdx offset length : Nat}
    {file : LocalFile} (listed : s.fileList[fileIdx]? = some file)
    (within : offset ≤ file.size.toNat)
    (large : 2 ^ 63 ≤ readSize file.size.toNat offset length) :
    s.serveFileContents fs connId (.range streamId fileIdx offset length) = none := by
  rw [ClipFiles.serveFileContents, listed]
  dsimp only
  rw [if_neg (by omega), if_pos (by rw [readSize] at large; exact large)]

theorem readFileContents_of_request {c : Call} {request : FileContentsRequest} {s' : ClipFiles}
    {result : Except CliprdrError ClipboardFile} (decoded : c.request = .ok request)
    (served : s.serveFileContents c.fs c.connId request = some (s', result)) :
    ∃ record, s.readFileContents c.fs c.connId c.streamId c.listIndex c.dwFlags c.nPositionLow
      c.nPositionHigh c.cbRequested = some (s', record ++ [result]) := by
  unfold ClipFiles.readFileContents
  rw [Call.request] at decoded
  simp only [decoded, served]
  exact ⟨_, rfl⟩

theorem request_cases {c : Call} {request : FileContentsRequest}
    (decoded : c.request = .ok request) :
    (∃ fileIdx, request = .size c.streamId fileIdx) ∨
      ∃ fileIdx offset, request = .range c.streamId fileIdx offset (asU64 c.cbRequested) := by
  unfold Call.request FileContentsRequest.decode at decoded
  split at decoded
  · cases decoded
    exact .inl ⟨_, rfl⟩
  split at decoded
  · cases decoded
    exact .inr ⟨_, _, rfl⟩
  · cases decoded

/-- The bytes that were read are those of the range. -/
theorem answers_range {streamId : Int} {fileIdx offset length : Nat} {file : LocalFile}
    {bytes data : Bytes} (listed : s.fileList[fileIdx]? = some file)
    (within : offset ≤ file.size.toNat) (fits : offset + length < 2 ^ 64)
    (found : fs.content file.path = .ok bytes)
    (isData : data = (bytes.drop offset).take (readSize file.size.toNat offset length))
    (size : data.length = readSize file.size.toNat offset length) :
    Answers fs s (.range streamId fileIdx offset length) data := by
  rw [readSize_eq_min fits within] at isData size
  refine ⟨file, bytes, listed, found, within, ?_, size⟩
  rw [isData, List.take_drop, Nat.add_sub_cancel' (by omega)]

/-- Ranges that are not too long are answered as they should be. -/
theorem answered_of_fits (inPlace : s.InPlace) {c : Call}
    (fits : ∀ file offset length, Reads s c file offset length →
      ¬ TooLong file.size.toNat offset length) :
    ∃ s' record result, s.readFileContents c.fs c.connId c.streamId c.listIndex c.dwFlags
        c.nPositionLow c.nPositionHigh c.cbRequested = some (s', record ++ [result]) ∧
      ((∃ e, result = .error e ∧ s'.unread = s.unread) ∨
        ∃ request data, c.request = .ok request ∧ Answers c.fs s request data ∧
          result = .ok (.fileContentsResponse 0x1 c.streamId data)) := by
  cases decoded : c.request with
  | error e =>
    refine ⟨s, [], .error e, ?_, .inl ⟨e, rfl, rfl⟩⟩
    unfold ClipFiles.readFileContents
    rw [Call.request] at decoded
    rw [decoded]
    rfl
  | ok request =>
    have served : ∃ s' result, s.serveFileContents c.fs c.connId request = some (s', result) ∧
        ((∃ e, result = .error e) ∨ ∃ data, Answers c.fs s request data ∧
          result = .ok (.fileContentsResponse 0x1 c.streamId data)) := by
      rcases request_cases decoded with ⟨fileIdx, rfl⟩ | ⟨fileIdx, offset, rfl⟩
      · rw [ClipFiles.serveFileContents]
        cases listed : s.fileList[fileIdx]? with
        | none => exact ⟨_, _, rfl, .inl ⟨_, rfl⟩⟩
        | some file =>
          refine ⟨_, _, rfl, ?_⟩
          rcases respond_result fileIdx _ with failed | answered
          · exact .inl failed
          · exact .inr ⟨_, ⟨file, listed, rfl⟩, answered⟩
      · cases listed : s.fileList[fileIdx]? with
        | none =>
          rw [ClipFiles.serveFileContents, listed]
          exact ⟨_, _, rfl, .inl ⟨_, rfl⟩⟩
        | some file =>
          by_cases within : offset ≤ file.size.toNat
          · have short := fits file offset (asU64 c.cbRequested) ⟨_, _, decoded, listed, within⟩
            unfold TooLong at short
            have small : readSize file.size.toNat offset (asU64 c.cbRequested) < 2 ^ 63 := by
              rw [readSize_eq_min (by omega) within]
              omega
            obtain ⟨s', result, served, failed | ⟨bytes, data, found, isData, size, answered⟩⟩ :=
              serve_range c.connId c.streamId listed within small inPlace
            · exact ⟨s', result, served, .inl failed⟩
            · exact ⟨s', result, served, .inr ⟨data, answers_range listed within (by omega) found
                isData size, answered⟩⟩
          · rw [ClipFiles.serveFileContents, listed]
            dsimp only
            rw [if_pos (by omega)]
            exact ⟨_, _, rfl, .inl ⟨_, rfl⟩⟩
    obtain ⟨s', result, served, answered⟩ := served
    obtain ⟨record, read⟩ := readFileContents_of_request decoded served
    refine ⟨s', record, result, read, ?_⟩
    rcases answered with ⟨e, failed⟩ | ⟨data, answers, answered⟩
    · exact .inl ⟨e, failed, (reread_serve served).same⟩
    · exact .inr ⟨request, data, rfl, answers, answered⟩

/-- **The answer to a request** in a state with the readers in place. -/
theorem servedInBounds_iff (inPlace : s.InPlace) (c : Call) :
    ServedInBounds s c ↔
      ∀ file offset length, Reads s c file offset length →
        ¬ TooLong file.size.toNat offset length := by
  constructor
  · intro served file offset length reads tooLong
    have fits := served.noOverflow file offset length reads
    obtain ⟨streamId, fileIdx, decoded, listed, within⟩ := reads
    obtain ⟨s', record, result, read, -⟩ := served.answered
    unfold TooLong at tooLong
    have large : 2 ^ 63 ≤ readSize file.size.toNat offset length := by
      rw [readSize_eq_min fits within]
      omega
    have panics := @serve_range_panics c.fs s c.connId streamId _ _ _ _ listed within large
    unfold ClipFiles.readFileContents at read
    rw [Call.request] at decoded
    simp [decoded, panics] at read
  · intro fits
    refine ⟨?_, ?_, answered_of_fits inPlace fits⟩
    · intro file offset length reads
      have := fits file offset length reads
      unfold TooLong at this
      omega
    · intro file offset length reads
      have := fits file offset length reads
      unfold TooLong at this
      rw [readSize_eq_min (by omega) reads.choose_spec.choose_spec.2.2]
      omega

/-- **Served in bounds**: after anything that can happen to the copied files, a request is served
within its bounds unless it reads a range of a file that is too long. -/
theorem served_in_bounds (events : List FilesEvent) (c : Call) :
    ServedInBounds (Runs.run ClipFiles.step {} events) c ↔
      ∀ file offset length, Reads (Runs.run ClipFiles.step {} events) c file offset length →
        ¬ TooLong file.size.toNat offset length :=
  servedInBounds_iff (inPlace_run events) c

/-- The request for -1 bytes from the second byte of a file of three. -/
def minusOneByte : Call :=
  { fs := twoFilesFs, listIndex := 0, nPositionLow := 1, cbRequested := -1 }

theorem minus_one_byte_panics :
    (ClipFiles.readFileContents twoFilesFs 1 twoFiles 1 0 2 1 0 (-1)).isNone ∧
      ¬ ServedInBounds (Runs.run ClipFiles.step {} [.sync twoFilesFs 3 ["/home/a", "/home/b"]])
        minusOneByte := by
  have panics : (ClipFiles.readFileContents twoFilesFs 1 twoFiles 1 0 2 1 0 (-1)).isNone := by
    decide +kernel
  refine ⟨panics, fun served => ?_⟩
  obtain ⟨s', record, result, read, -⟩ := served.answered
  have none : ClipFiles.readFileContents twoFilesFs 1 twoFiles 1 0 2 1 0 (-1) = none :=
    Option.isNone_iff_eq_none.mp panics
  exact absurd (none.symm.trans read) (by simp)

end CamelliaRemote.Clipboard
