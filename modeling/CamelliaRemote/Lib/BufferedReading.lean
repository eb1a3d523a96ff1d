import Mathlib.Data.List.TakeDrop
import Mathlib.Tactic.Common

namespace BufferedReading

inductive IoError where
  | interrupted
  | unexpectedEof
  | other (text : String)
  deriving DecidableEq, Repr

/-- What the platform does with one call of `read`. -/
inductive ReadAnswer where
  | fails (e : IoError)
  /-- At most `n + 1` of the bytes asked for. -/
  | gives (n : Nat)
  deriving DecidableEq, Repr

variable {α : Type*}

/-- What a call of `read` for `len` bytes gives at a position. -/
def given (file : List α) (position len n : Nat) : List α :=
  (file.drop position).take (min (n + 1) len)

structure Reader (α : Type*) where
  /-- Where the platform stands in the file. -/
  position : Nat
  /-- What was read but not handed out. -/
  buffer : List α
  deriving DecidableEq, Repr

namespace Reader

def start : Reader α := ⟨0, []⟩

/-- Where the next byte comes from. -/
def tell (r : Reader α) : Nat := r.position - r.buffer.length

/-- The buffer holds the bytes of the file before the position of the platform. -/
structure Over (file : List α) (r : Reader α) : Prop where
  behind : r.buffer.length ≤ r.position
  buffer : r.buffer <+: file.drop r.tell

/-- `SeekFrom::Start`; nothing that was buffered is used again. -/
def seekStart (_ : Reader α) (offset : Nat) : Reader α := ⟨offset, []⟩

/-- `fill_buf`: an empty buffer is filled by one call. -/
def fillBuf (file : List α) (capacity : Nat) (r : Reader α) (answer : ReadAnswer) :
    Except IoError (Reader α) :=
  if r.buffer.isEmpty then
    match answer with
    | .fails e => .error e
    | .gives n =>
      .ok ⟨r.position + (given file r.position capacity n).length,
        given file r.position capacity n⟩
  else .ok r

/-- One `read` for `len` bytes with an empty buffer. A request that is not smaller than the
buffer goes past it. -/
def readUnbuffered (file : List α) (capacity : Nat) (r : Reader α) (len n : Nat) :
    List α × Reader α :=
  if capacity ≤ len then
    (given file r.position len n, ⟨r.position + (given file r.position len n).length, []⟩)
  else
    ((given file r.position capacity n).take len,
      ⟨r.position + (given file r.position capacity n).length,
        (given file r.position capacity n).drop len⟩)

/-- The loop of `read_exact` once the buffer is empty. An interrupted call is made again; a
platform that gives no further answer has failed. -/
def readLoop (file : List α) (capacity : Nat) :
    List ReadAnswer → Reader α → Nat → Except IoError (List α × Reader α)
  | [], r, len => if len = 0 then .ok ([], r) else .error (.other "no answer")
  | answer :: answers, r, len =>
    if len = 0 then .ok ([], r)
    else
      match answer with
      | .fails .interrupted => readLoop file capacity answers r len
      | .fails e => .error e
      | .gives n =>
        let (bytes, r) := r.readUnbuffered file capacity len n
        if bytes.isEmpty then .error .unexpectedEof
        else
          match readLoop file capacity answers r (len - bytes.length) with
          | .error e => .error e
          | .ok (rest, r) => .ok (bytes ++ rest, r)

/-- `read_exact`: what is buffered goes first. -/
def readExact (file : List α) (capacity : Nat) (answers : List ReadAnswer) (r : Reader α)
    (len : Nat) : Except IoError (List α × Reader α) :=
  match readLoop file capacity answers { r with buffer := r.buffer.drop len }
      (len - r.buffer.length) with
  | .error e => .error e
  | .ok (rest, r') => .ok (r.buffer.take len ++ rest, r')

variable {file : List α} {r : Reader α}

theorem over_start : (start : Reader α).Over file := ⟨Nat.le_refl 0, List.nil_prefix⟩

theorem over_seekStart (offset : Nat) : (r.seekStart offset).Over file :=
  ⟨Nat.zero_le _, List.nil_prefix⟩

@[simp] theorem tell_seekStart (offset : Nat) : (r.seekStart offset).tell = offset :=
  Nat.sub_zero offset

theorem tell_of_empty (empty : r.buffer = []) : r.tell = r.position := by
  rw [tell, empty, List.length_nil, Nat.sub_zero]

theorem prefix_given (file : List α) (position len n : Nat) :
    given file position len n <+: file.drop position := List.take_prefix _ _

theorem length_given_le (file : List α) (position len n : Nat) :
    (given file position len n).length ≤ len := by
  unfold given
  rw [List.length_take]
  omega

/-- What a call gives into an empty buffer stands before the new position. -/
theorem over_filled (file : List α) (position capacity n : Nat) :
    (⟨position + (given file position capacity n).length,
      given file position capacity n⟩ : Reader α).Over file where
  behind := Nat.le_add_left _ _
  buffer := by
    rw [tell, Nat.add_sub_cancel]
    exact prefix_given file position capacity n

/-- Handing out the front of the buffer moves the reader by as much. -/
theorem over_drop (within : r.Over file) (len : Nat) :
    ({ r with buffer := r.buffer.drop len } : Reader α).Over file ∧
      ({ r with buffer := r.buffer.drop len } : Reader α).tell =
        r.tell + min len r.buffer.length := by
  have behind := within.behind
  have moved : ({ r with buffer := r.buffer.drop len } : Reader α).tell =
      r.tell + min len r.buffer.length := by
    simp only [tell, List.length_drop]
    omega
  refine ⟨⟨?_, ?_⟩, moved⟩
  · simp only [List.length_drop]
    omega
  · rw [moved]
    obtain ⟨rest, eq⟩ := within.buffer
    by_cases short : len ≤ r.buffer.length
    · refine ⟨rest, ?_⟩
      rw [Nat.min_eq_left short, ← List.drop_drop, ← eq, List.drop_append_of_le_length short]
    · rw [List.drop_eq_nil_of_le (Nat.le_of_not_le short)]
      exact List.nil_prefix

theorem fillBuf_ok {capacity : Nat} {answer : ReadAnswer} {r' : Reader α} (within : r.Over file)
    (h : r.fillBuf file capacity answer = .ok r') : r'.Over file ∧ r'.tell = r.tell := by
  unfold fillBuf at h
  split at h
  · rename_i empty
    cases answer with
    | fails e => cases h
    | gives n =>
      cases h
      refine ⟨over_filled file r.position capacity n, ?_⟩
      rw [tell_of_empty (List.isEmpty_iff.mp empty), tell, Nat.add_sub_cancel]
  · cases h
    exact ⟨within, rfl⟩

theorem readUnbuffered_spec {capacity len n : Nat} {bytes : List α} {r' : Reader α}
    (empty : r.buffer = []) (h : r.readUnbuffered file capacity len n = (bytes, r')) :
    bytes <+: file.drop r.tell ∧ bytes.length ≤ len ∧ r'.Over file ∧
      r'.tell = r.tell + bytes.length ∧ (r'.buffer = [] ∨ bytes.length = len) := by
  rw [tell_of_empty empty]
  unfold readUnbuffered at h
  split at h
  · cases h
    exact ⟨prefix_given _ _ _ _, length_given_le _ _ _ _, ⟨Nat.zero_le _, List.nil_prefix⟩,
      Nat.sub_zero _, .inl rfl⟩
  · cases h
    obtain ⟨within, moved⟩ := over_drop (over_filled file r.position capacity n) len
    have length : ((given file r.position capacity n).take len).length =
        min len (given file r.position capacity n).length := List.length_take
    refine ⟨(List.take_prefix _ _).trans (prefix_given _ _ _ _), ?_, within, ?_, ?_⟩
    · omega
    · rw [moved, length, tell, Nat.add_sub_cancel]
    · rw [length]
      by_cases short : len ≤ (given file r.position capacity n).length
      · exact .inr (Nat.min_eq_left short)
      · exact .inl (List.drop_eq_nil_of_le (Nat.le_of_not_le short))

/-- Bytes that stand one after the other in the file stand there together. -/
theorem append_eq_take {bytes rest : List α} {position len : Nat}
    (first : bytes <+: file.drop position) (short : bytes.length ≤ len)
    (later : rest = (file.drop (position + bytes.length)).take (len - bytes.length)) :
    bytes ++ rest = (file.drop position).take len := by
  obtain ⟨tail, eq⟩ := first
  rw [later, ← List.drop_drop, ← eq, List.drop_left, List.take_append,
    List.take_of_length_le short]

theorem readLoop_ok {capacity len : Nat} {answers : List ReadAnswer} {bytes : List α}
    {r' : Reader α} (within : r.Over file) (ready : r.buffer = [] ∨ len = 0)
    (h : readLoop file capacity answers r len = .ok (bytes, r')) :
    bytes = (file.drop r.tell).take len ∧ bytes.length = len ∧ r'.Over file ∧
      r'.tell = r.tell + len := by
  induction answers generalizing r len bytes r' with
  | nil =>
    unfold readLoop at h
    split at h
    · rename_i nothing
      subst nothing
      cases h
      exact ⟨rfl, rfl, within, rfl⟩
    · cases h
  | cons answer answers ih =>
    unfold readLoop at h
    split at h
    · rename_i nothing
      subst nothing
      cases h
      exact ⟨rfl, rfl, within, rfl⟩
    · rename_i something
      have empty := ready.resolve_right something
      split at h
      · exact ih within (.inl empty) h
      · cases h
      · rename_i n
        cases read : r.readUnbuffered file capacity len n with
        | mk first between =>
          obtain ⟨stands, short, within', moved, done⟩ := readUnbuffered_spec empty read
          simp only [read] at h
          split at h
          · cases h
          split at h
          · cases h
          · rename_i rest last later
            cases h
            have ready' : between.buffer = [] ∨ len - first.length = 0 :=
              done.imp id fun all => by omega
            obtain ⟨restIs, restLength, within'', moved'⟩ := ih within' ready' later
            refine ⟨append_eq_take stands short (moved ▸ restIs), ?_, within'', ?_⟩
            · rw [List.length_append]
              omega
            · omega

/-- **What `read_exact` hands out** is what stands in the file where the reader does. -/
theorem readExact_ok {capacity len : Nat} {answers : List ReadAnswer} {bytes : List α}
    {r' : Reader α} (within : r.Over file)
    (h : r.readExact file capacity answers len = .ok (bytes, r')) :
    bytes = (file.drop r.tell).take len ∧ bytes.length = len ∧ r'.Over file ∧
      r'.tell = r.tell + len := by
  unfold readExact at h
  split at h
  · cases h
  · rename_i rest last loop
    cases h
    obtain ⟨dropped, moved⟩ := over_drop within len
    have length : (r.buffer.take len).length = min len r.buffer.length := List.length_take
    have ready : r.buffer.drop len = [] ∨ len - r.buffer.length = 0 := by
      by_cases short : len ≤ r.buffer.length
      · exact .inr (Nat.sub_eq_zero_of_le short)
      · exact .inl (List.drop_eq_nil_of_le (Nat.le_of_not_le short))
    obtain ⟨restIs, restLength, within', moved'⟩ := readLoop_ok dropped ready loop
    refine ⟨append_eq_take ((List.take_prefix _ _).trans within.buffer) ?_ ?_, ?_, within', ?_⟩
    · omega
    · rw [restIs, moved, length]
      congr 1
      omega
    · rw [List.length_append]
      omega
    · omega

end Reader

end BufferedReading
