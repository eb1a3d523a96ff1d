import CamelliaRemote.Clipboard.LocalFile
import CamelliaRemote.Lib.BufferedReading
import CamelliaRemote.Lib.Runs

/-!
The reader of a served file, `libs/clipboard/src/platform/unix/local_file.rs`. `read_exact_at`
skips the seek when the cached offset is the one asked for, and drops the reader at the end of the
file and after an error. Here each call of the platform has its own answer, so a read may fail
after some of its bytes have been read, and the reader buffers. `LocalFile` is what this looks
like from outside: a position for the reader, and a file system that answers a whole call at once.
-/

namespace CamelliaRemote.Clipboard
open Codec BufferedReading

/-- A file that no call changes; its bytes have positions of type `off_t`. -/
structure DiskFile where
  bytes : Bytes
  addressable : bytes.length < 2 ^ 63

/-- What the platform answers during one call. -/
structure ReaderEnv where
  openFile : Except IoError Unit := .ok ()
  fill : ReadAnswer := .gives 0
  seek : Except IoError Unit := .ok ()
  reads : List ReadAnswer := []

def ioText : IoError → String
  | .interrupted => "operation interrupted"
  | .unexpectedEof => "failed to fill whole buffer"
  | .other text => text

def blockSize : Nat := 4 * 1024 * 1024

/-- The `LocalFile` with its `BufReader`. -/
structure BufferedFile where
  path : Bytes
  isDir : Bool
  size : UInt64
  handle : Option (Reader UInt8) := none
  offset : Nat := 0

namespace BufferedFile

def fileError (f : BufferedFile) (e : IoError) : CliprdrError :=
  .fileError (fromUtf8Lossy f.path) (ioText e)

def loadHandle (file : DiskFile) (env : ReaderEnv) (f : BufferedFile) :
    Except CliprdrError BufferedFile :=
  if !f.isDir && f.handle.isNone then
    match env.openFile with
    | .error e => .error (f.fileError e)
    | .ok () =>
      match Reader.start.fillBuf file.bytes (blockSize * 2) env.fill with
      | .error e => .error (f.fileError e)
      | .ok reader => .ok { f with handle := some reader }
  else .ok f

def invalidateHandle (f : BufferedFile) (e : IoError) : BufferedFile × CliprdrError :=
  ({ f with handle := none, offset := 0 }, f.fileError e)

/-- The seek, if there is one, and the read. -/
def readResult (file : DiskFile) (env : ReaderEnv) (f : BufferedFile) (handle : Reader UInt8)
    (len offset : Nat) : Except IoError (Bytes × Reader UInt8) :=
  if offset ≠ f.offset then
    match env.seek with
    | .error e => .error e
    | .ok () => (handle.seekStart offset).readExact file.bytes (blockSize * 2) env.reads len
  else handle.readExact file.bytes (blockSize * 2) env.reads len

def readExactAt (file : DiskFile) (env : ReaderEnv) (f : BufferedFile) (len : Nat)
    (offset : UInt64) : BufferedFile × Except CliprdrError Bytes :=
  match f.loadHandle file env with
  | .error e => (f, .error e)
  | .ok f =>
    match f.handle with
    | none => (f, .error (.fileError (fromUtf8Lossy f.path) "file handle not found"))
    | some handle =>
      match f.readResult file env handle len offset.toNat with
      | .error e => ((f.invalidateHandle e).1, .error (f.invalidateHandle e).2)
      | .ok (buf, handle) =>
        let newOffset := (offset.toNat + len) % 2 ^ 64
        if f.size.toNat ≤ newOffset then ({ f with handle := none, offset := 0 }, .ok buf)
        else ({ f with handle := some handle, offset := newOffset }, .ok buf)

/-- A call made with the file. -/
inductive ReaderCall where
  | loadHandle (env : ReaderEnv)
  | readExactAt (env : ReaderEnv) (len : Nat) (offset : UInt64)

def step (file : DiskFile) (f : BufferedFile) : ReaderCall → BufferedFile
  | .loadHandle env => (f.loadHandle file env).toOption.getD f
  | .readExactAt env len offset => (f.readExactAt file env len offset).1

/-- The reader is within the file and stands at the cached offset. -/
structure Stands (file : DiskFile) (f : BufferedFile) : Prop where
  closed : f.handle = none → f.offset = 0
  within : ∀ handle, f.handle = some handle → handle.Over file.bytes
  position : ∀ handle, f.handle = some handle → handle.tell = f.offset

variable {file : DiskFile} {f f' : BufferedFile} {env : ReaderEnv}

theorem stands_closed (f : BufferedFile) :
    Stands file { f with handle := none, offset := 0 } :=
  ⟨fun _ => rfl, nofun, nofun⟩

theorem loadHandle_ok (stands : f.Stands file) (h : f.loadHandle file env = .ok f') :
    f'.Stands file ∧ f' = { f with handle := f'.handle } := by
  unfold loadHandle at h
  split at h
  · rename_i closed
    rw [Bool.and_eq_true, Option.isNone_iff_eq_none] at closed
    split at h
    · cases h
    split at h
    · cases h
    · rename_i reader filled
      cases h
      obtain ⟨within, tell⟩ := Reader.fillBuf_ok Reader.over_start filled
      refine ⟨⟨nofun, ?_, ?_⟩, rfl⟩
      · rintro _ ⟨⟩
        exact within
      · rintro _ ⟨⟩
        exact tell.trans (stands.closed closed.2).symm
  · cases h
    exact ⟨stands, rfl⟩

theorem readResult_ok (stands : f.Stands file) {handle handle' : Reader UInt8}
    (opened : f.handle = some handle) {len offset : Nat} {data : Bytes}
    (h : f.readResult file env handle len offset = .ok (data, handle')) :
    data = (file.bytes.drop offset).take len ∧ data.length = len ∧ handle'.Over file.bytes ∧
      handle'.tell = offset + len := by
  unfold readResult at h
  split at h
  · split at h
    · cases h
    · simpa using Reader.readExact_ok (Reader.over_seekStart offset) h
  · rename_i same
    have position := (stands.position handle opened).trans (not_not.mp same).symm
    rw [← position]
    exact Reader.readExact_ok (stands.within handle opened) h

/-- The end of a read is an offset of 64 bits. -/
theorem newOffset_eq {data : Bytes} {len : Nat} {offset : UInt64}
    (isData : data = (file.bytes.drop offset.toNat).take len) (length : data.length = len) :
    (offset.toNat + len) % 2 ^ 64 = offset.toNat + len := by
  apply Nat.mod_eq_of_lt
  have addressable := file.addressable
  have offsetLt := offset.toNat_lt
  rw [isData, List.length_take, List.length_drop] at length
  omega

theorem readExactAt_ok (stands : f.Stands file) {len : Nat} {offset : UInt64} {data : Bytes}
    (h : f.readExactAt file env len offset = (f', .ok data)) :
    f'.Stands file ∧ data = (file.bytes.drop offset.toNat).take len ∧ data.length = len := by
  unfold readExactAt at h
  split at h
  · cases h
  rename_i opened loaded
  obtain ⟨stands, -⟩ := loadHandle_ok stands loaded
  split at h
  · cases h
  rename_i handle isOpen
  split at h
  · cases h
  rename_i buf handle' read
  obtain ⟨isData, length, within, tell⟩ := readResult_ok stands isOpen read
  rw [newOffset_eq isData length] at h
  dsimp only at h
  split at h
  · cases h
    exact ⟨stands_closed opened, isData, length⟩
  · cases h
    refine ⟨⟨nofun, ?_, ?_⟩, isData, length⟩
    · rintro _ ⟨⟩
      exact within
    · rintro _ ⟨⟩
      exact tell

theorem readExactAt_error (stands : f.Stands file) {len : Nat} {offset : UInt64}
    {e : CliprdrError} (h : f.readExactAt file env len offset = (f', .error e)) :
    f'.Stands file := by
  unfold readExactAt at h
  split at h
  · cases h
    exact stands
  rename_i opened loaded
  obtain ⟨stands, -⟩ := loadHandle_ok stands loaded
  split at h
  · cases h
    exact stands
  split at h
  · cases h
    exact stands_closed opened
  · dsimp only at h
    split at h
    · cases h
    · cases h

theorem stands_step (stands : f.Stands file) (c : ReaderCall) : (f.step file c).Stands file := by
  cases c with
  | loadHandle env =>
    rw [step]
    cases loaded : f.loadHandle file env with
    | error e => exact stands
    | ok f' => exact (loadHandle_ok stands loaded).1
  | readExactAt env len offset =>
    rw [step]
    cases read : f.readExactAt file env len offset with
    | mk f' result =>
      cases result with
      | error e => exact readExactAt_error stands read
      | ok data => exact (readExactAt_ok stands read).1

theorem stands_run (stands : f.Stands file) (calls : List ReaderCall) :
    (Runs.run (step file) f calls).Stands file :=
  Runs.invariant (I := Stands file) (fun _ c stands _ => stands_step stands c) stands
    (Runs.along_true f calls)

/-- The file as it is opened for the list of copied files. -/
def opened (path : Bytes) (isDir : Bool) (size : UInt64) : BufferedFile := { path, isDir, size }

/-- **Reads are exact.** After every sequence of calls, however they fail, the cached offset is
the position of the reader, or 0 without one, and the next read that succeeds gives the bytes
of the file from its offset on. -/
theorem reads_exact (file : DiskFile) (path : Bytes) (isDir : Bool) (size : UInt64)
    (calls : List ReaderCall) :
    let f := Runs.run (step file) (opened path isDir size) calls
    ((f.handle = none → f.offset = 0) ∧
      ∀ handle, f.handle = some handle → handle.tell = f.offset) ∧
    ∀ (env : ReaderEnv) (len : Nat) (offset : UInt64) (f' : BufferedFile) (data : Bytes),
      f.readExactAt file env len offset = (f', .ok data) →
        data = (file.bytes.drop offset.toNat).take len ∧ data.length = len := by
  intro f
  have stands : f.Stands file := stands_run (stands_closed (opened path isDir size)) calls
  refine ⟨⟨stands.closed, stands.position⟩, ?_⟩
  intro env len offset f' data h
  exact (readExactAt_ok stands h).2

end BufferedFile

end CamelliaRemote.Clipboard
