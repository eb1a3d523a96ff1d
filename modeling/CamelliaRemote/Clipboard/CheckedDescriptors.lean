import CamelliaRemote.Lib.CheckedReading
import CamelliaRemote.Clipboard.FileDescription

namespace CamelliaRemote.Clipboard.CheckedDescriptors
open Codec CheckedReading FileDescription

/-- `SystemTime::UNIX_EPOCH + Duration::from_nanos(nanos)`. -/
def afterEpoch (nanos : Nat) : Checked Nat :=
  if nanos / 10 ^ 9 < 2 ^ 63 then pure nanos else throw .overflow

def lastModified (flags lastWriteTime : Nat) : Checked Nat := do
  if flags &&& flagsFdLastWrite ≠ 0 ∧ ldapEpochDelta ≤ lastWriteTime then
    let since ← checkedSub lastWriteTime ldapEpochDelta
    let nanos ← checkedMul 64 since 100
    afterEpoch nanos
  else return 0

/-- `FileDescription::parse_file_descriptor`. -/
def parseFileDescriptor (data : Bytes) (connId : Int) :
    Checked (Except CliprdrError FileDescription) := do
  let flags ← getUintLe data 4
  advance data 32
  let attributes ← getUintLe data 4
  advance data 12
  let perm ← getUintLe data 4
  let lastWriteTime ← getUintLe data 8
  let fileSizeHigh ← getUintLe data 4
  let fileSizeLow ← getUintLe data 4
  let block ← peekBytes data 520
  advance data 520
  match Utf16.decode block with
  | none => return .error .conversionFailure
  | some wstr =>
    if flags &&& flagsFdAttributes = 0 then
      return .error (.invalidRequest "file description must have valid attributes")
    else
      let size ← checkedAdd 64 (fileSizeHigh * 2 ^ 32) fileSizeLow
      let modified ← lastModified flags lastWriteTime
      return .ok {
        connId
        name := trimEndNul (wstr.map fun c => if c = '\\' then '/' else c)
        kind := if attributes &&& 0x10 ≠ 0 then .directory else .file
        atime := modified
        lastModified := modified
        lastMetadataChanged := modified
        creationTime := modified
        size
        perm := unixMode flags attributes (perm % 2 ^ 16) }

/-- The loop over the descriptors, left at the first that is refused. -/
def parseMany (data : Bytes) (connId : Int) :
    Nat → Checked (Except CliprdrError (List FileDescription))
  | 0 => return .ok []
  | count + 1 => do
    match ← parseFileDescriptor data connId with
    | .error e => return .error e
    | .ok desc =>
      match ← parseMany data connId count with
      | .error e => return .error e
      | .ok descs => return .ok (desc :: descs)

/-- What is answered, and for how many descriptions a vector was allocated. -/
structure Parsed where
  result : Except CliprdrError (List FileDescription)
  capacity : Nat

/-- `FileDescription::parse_file_descriptors`. -/
def parseFileDescriptors (pdu : Bytes) (connId : Int) : Checked Parsed := do
  if (← remaining pdu) < 4 then
    return ⟨.error (.invalidRequest "file descriptor request with infficient length"), 0⟩
  else
    let count ← getUintLe pdu 4
    if (← remaining pdu) = 0 ∧ count = 0 then return ⟨.ok [], 0⟩
    else
      let length ← checkedMul 64 592 count
      if (← remaining pdu) ≠ length then
        return ⟨.error (.invalidRequest "file descriptor request with invalid length"), 0⟩
      else
        let result ← parseMany pdu connId count
        return ⟨result, count⟩

/-- A descriptor that is not refused: its name is UTF-16 and its attributes are valid. -/
def Accepted (record : Bytes) : Prop :=
  Utf16.decode ((record.drop 72).take 520) ≠ none ∧ getLe record 0 4 &&& flagsFdAttributes ≠ 0

/-- The write time, where there is one, is a number of nanoseconds in 64 bits. -/
def TimeFits (record : Bytes) : Prop :=
  getLe record 0 4 &&& flagsFdLastWrite ≠ 0 →
    (getLe record 56 8 - ldapEpochDelta) * 100 < 2 ^ 64

instance (record : Bytes) : Decidable (Accepted record) := inferInstanceAs (Decidable (_ ∧ _))

instance (record : Bytes) : Decidable (TimeFits record) := inferInstanceAs (Decidable (_ → _))

/-- The 592 bytes from `start`. -/
def recordAt (data : Bytes) (start : Nat) : Bytes := (data.drop start).take 592

variable {data pdu : Bytes} {connId : Int} {i : Nat}

theorem block_recordAt (data : Bytes) (i : Nat) {start len : Nat} (inside : start + len ≤ 592) :
    ((recordAt data i).drop start).take len = (data.drop (i + start)).take len := by
  rw [recordAt, List.drop_take, List.take_take, List.drop_drop, Nat.min_eq_left (by omega)]

theorem getLe_recordAt (data : Bytes) (i : Nat) {start len : Nat} (inside : start + len ≤ 592) :
    getLe (recordAt data i) start len = ofLittleEndian ((data.drop (i + start)).take len) := by
  rw [getLe, block_recordAt data i inside]

theorem getLe_lt (bytes : Bytes) (start len : Nat) : getLe bytes start len < 256 ^ len := by
  have short : ((bytes.drop start).take len).reverse.length ≤ len := by
    rw [List.length_reverse]
    exact List.length_take_le _ _
  exact (ofBigEndian_lt _).trans_le (Nat.pow_le_pow_right (by omega) short)

theorem afterEpoch_ok {nanos : Nat} (fits : nanos < 2 ^ 64) :
    afterEpoch nanos i = .ok (nanos, i) := by
  rw [afterEpoch, if_pos (by omega)]
  rfl

theorem lastModified_ok {flags time : Nat}
    (fits : flags &&& flagsFdLastWrite ≠ 0 → (time - ldapEpochDelta) * 100 < 2 ^ 64) :
    lastModified flags time i = .ok (writeTime flags time, i) := by
  unfold lastModified writeTime
  by_cases given : flags &&& flagsFdLastWrite ≠ 0 ∧ ldapEpochDelta ≤ time
  · have fits := fits given.1
    rw [if_pos given, if_pos given, bind_of_ok (checkedSub_ok given.2), checkedMul,
      bind_of_ok (fit_ok fits), afterEpoch_ok fits, Nat.mod_eq_of_lt fits]
  · rw [if_neg given, if_neg given]
    rfl

theorem lastModified_overflow {flags time : Nat} (flagged : flags &&& flagsFdLastWrite ≠ 0)
    (late : 2 ^ 64 ≤ (time - ldapEpochDelta) * 100) :
    lastModified flags time i = .error .overflow := by
  have after : ldapEpochDelta ≤ time := by omega
  unfold lastModified
  rw [if_pos ⟨flagged, after⟩, bind_of_ok (checkedSub_ok after), checkedMul]
  exact bind_of_error (fit_overflow late)

/-- A descriptor with all its bytes is parsed to its end, unless its time leaves 64 bits. -/
theorem parseFileDescriptor_eq (connId : Int) (room : i + 592 ≤ data.length) :
    parseFileDescriptor data connId i =
      if Accepted (recordAt data i) → TimeFits (recordAt data i) then
        .ok (FileDescription.parseFileDescriptor (recordAt data i) connId, i + 592)
      else .error .overflow := by
  have at0 := getLe_recordAt data i (show 0 + 4 ≤ 592 by omega)
  have at36 := getLe_recordAt data i (show 36 + 4 ≤ 592 by omega)
  have at52 := getLe_recordAt data i (show 52 + 4 ≤ 592 by omega)
  have at56 := getLe_recordAt data i (show 56 + 8 ≤ 592 by omega)
  have at64 := getLe_recordAt data i (show 64 + 4 ≤ 592 by omega)
  have at68 := getLe_recordAt data i (show 68 + 4 ≤ 592 by omega)
  have name := block_recordAt data i (show 72 + 520 ≤ 592 by omega)
  unfold parseFileDescriptor
  rw [bind_of_ok (getUintLe_ok (by omega)), bind_of_ok (advance_ok (by omega)),
    bind_of_ok (getUintLe_ok (by omega)), bind_of_ok (advance_ok (by omega)),
    bind_of_ok (getUintLe_ok (by omega)), bind_of_ok (getUintLe_ok (by omega)),
    bind_of_ok (getUintLe_ok (by omega)), bind_of_ok (getUintLe_ok (by omega)),
    bind_of_ok (peekBytes_ok (by omega)), bind_of_ok (advance_ok (by omega))]
  simp only [Nat.add_assoc, Nat.reduceAdd]
  rw [Nat.add_zero] at at0
  rw [← at0, ← at36, ← at52, ← at56, ← at64, ← at68, ← name]
  unfold FileDescription.parseFileDescriptor
  by_cases decodes : Utf16.decode (((recordAt data i).drop 72).take 520) = none
  · have refused : ¬ Accepted (recordAt data i) := fun h => h.1 decodes
    rw [if_pos fun accepted => absurd accepted refused]
    simp only [decodes]
    rfl
  obtain ⟨wstr, decoded⟩ := Option.ne_none_iff_exists'.mp decodes
  simp only [decoded]
  by_cases invalid : getLe (recordAt data i) 0 4 &&& flagsFdAttributes = 0
  · have refused : ¬ Accepted (recordAt data i) := fun h => h.2 invalid
    rw [if_pos fun accepted => absurd accepted refused, if_pos invalid, if_pos invalid]
    rfl
  have accepted : Accepted (recordAt data i) := ⟨decodes, invalid⟩
  have high := getLe_lt (recordAt data i) 64 4
  have low := getLe_lt (recordAt data i) 68 4
  have size : getLe (recordAt data i) 64 4 * 2 ^ 32 + getLe (recordAt data i) 68 4 < 2 ^ 64 := by
    omega
  rw [if_neg invalid, if_neg invalid, checkedAdd, bind_of_ok (fit_ok size)]
  by_cases fits : TimeFits (recordAt data i)
  · rw [if_pos fun _ => fits, bind_of_ok (lastModified_ok fits)]
    rfl
  · have late : ¬ (Accepted (recordAt data i) → TimeFits (recordAt data i)) :=
      fun h => fits (h accepted)
    rw [if_neg late]
    unfold TimeFits at fits
    push Not at fits
    exact bind_of_error (lastModified_overflow fits.1 fits.2)

/-- The descriptor at `k` is reached: it and all before it are accepted. -/
def Reached (data : Bytes) (start k : Nat) : Prop :=
  ∀ j ≤ k, Accepted (recordAt data (start + 592 * j))

/-- Every descriptor that is reached has a time that fits. -/
def TimesFit (data : Bytes) (start count : Nat) : Prop :=
  ∀ k < count, Reached data start k → TimeFits (recordAt data (start + 592 * k))

theorem reached_succ {start k : Nat} :
    Reached data start (k + 1) ↔
      Accepted (recordAt data start) ∧ Reached data (start + 592) k := by
  unfold Reached
  constructor
  · intro h
    refine ⟨h 0 (by omega), fun j le => ?_⟩
    have next := h (j + 1) (by omega)
    rwa [show start + 592 * (j + 1) = start + 592 + 592 * j by omega] at next
  · rintro ⟨first, rest⟩ j le
    cases j with
    | zero => exact first
    | succ j =>
      rw [show start + 592 * (j + 1) = start + 592 + 592 * j by omega]
      exact rest j (by omega)

theorem reached_zero {start : Nat} : Reached data start 0 ↔ Accepted (recordAt data start) := by
  unfold Reached
  simp

theorem timesFit_succ {start count : Nat} :
    TimesFit data start (count + 1) ↔
      (Accepted (recordAt data start) → TimeFits (recordAt data start)) ∧
        (Accepted (recordAt data start) → TimesFit data (start + 592) count) := by
  unfold TimesFit
  constructor
  · intro h
    refine ⟨fun accepted => h 0 (by omega) (reached_zero.mpr accepted), ?_⟩
    intro accepted k lt reached
    have next := h (k + 1) (by omega) (reached_succ.mpr ⟨accepted, reached⟩)
    rwa [show start + 592 * (k + 1) = start + 592 + 592 * k by omega] at next
  · rintro ⟨first, rest⟩ k lt reached
    cases k with
    | zero => exact first (reached_zero.mp reached)
    | succ k =>
      obtain ⟨accepted, reached⟩ := reached_succ.mp reached
      rw [show start + 592 * (k + 1) = start + 592 + 592 * k by omega]
      exact rest accepted k (by omega) reached

/-- A descriptor is accepted exactly where the parse of it gives a description. -/
theorem accepted_iff (record : Bytes) (connId : Int) :
    Accepted record ↔ ∃ desc, FileDescription.parseFileDescriptor record connId = .ok desc := by
  unfold Accepted FileDescription.parseFileDescriptor
  cases decoded : Utf16.decode ((record.drop 72).take 520) with
  | none => simp
  | some wstr =>
    by_cases invalid : getLe record 0 4 &&& flagsFdAttributes = 0
    · simp [invalid]
    · simp [invalid]

theorem parseMany_succ (count : Nat) :
    FileDescription.parseMany connId (count + 1) (data.drop i) =
      (FileDescription.parseFileDescriptor (recordAt data i) connId).bind fun desc =>
        (FileDescription.parseMany connId count (data.drop (i + 592))).map (desc :: ·) := by
  rw [FileDescription.parseMany, List.drop_drop]
  rfl

theorem room_succ {count size : Nat} (room : i + 592 * (count + 1) ≤ size) :
    i + 592 ≤ size ∧ i + 592 + 592 * count ≤ size := by
  have split : i + 592 * (count + 1) = i + 592 + 592 * count := by ring
  rw [split] at room
  exact ⟨le_trans (Nat.le_add_right _ _) room, room⟩

/-- With all their bytes the descriptors are parsed as the plain parser does. -/
theorem parseMany_ok (connId : Int) {count : Nat} (room : i + 592 * count ≤ data.length)
    (fits : TimesFit data i count) :
    ∃ n ≤ count,
      parseMany data connId count i =
        .ok (FileDescription.parseMany connId count (data.drop i), i + 592 * n) ∧
      ∀ files, FileDescription.parseMany connId count (data.drop i) = .ok files →
        n = count ∧ files.length = count := by
  induction count generalizing i with
  | zero =>
    refine ⟨0, le_refl _, rfl, ?_⟩
    intro files read
    cases read
    exact ⟨rfl, rfl⟩
  | succ count ih =>
    obtain ⟨first, rest⟩ := timesFit_succ.mp fits
    obtain ⟨inside, beyond⟩ := room_succ room
    have step := parseFileDescriptor_eq connId inside
    rw [if_pos first] at step
    unfold parseMany
    rw [bind_of_ok step, parseMany_succ]
    cases parsed : FileDescription.parseFileDescriptor (recordAt data i) connId with
    | error e =>
      refine ⟨1, by omega, rfl, ?_⟩
      intro files read
      cases read
    | ok desc =>
      have accepted := (accepted_iff (recordAt data i) connId).mpr ⟨desc, parsed⟩
      obtain ⟨n, le, run, whole⟩ := ih beyond (rest accepted)
      cases tail : FileDescription.parseMany connId count (data.drop (i + 592)) with
      | error e =>
        rw [tail] at run
        refine ⟨n + 1, by omega, ?_, ?_⟩
        · change (parseMany data connId count >>= _) (i + 592) = _
          rw [bind_of_ok run, show i + 592 * (n + 1) = i + 592 + 592 * n by omega]
          rfl
        · intro files read
          cases read
      | ok descs =>
        rw [tail] at run
        obtain ⟨rfl, length⟩ := whole descs tail
        refine ⟨n + 1, le_refl _, ?_, ?_⟩
        · change (parseMany data connId n >>= _) (i + 592) = _
          rw [bind_of_ok run, show i + 592 * (n + 1) = i + 592 + 592 * n by omega]
          rfl
        · intro files read
          cases read
          exact ⟨rfl, by rw [List.length_cons, length]⟩

/-- A reached time that leaves 64 bits is the only fault of the loop. -/
theorem parseMany_overflow {count : Nat} (room : i + 592 * count ≤ data.length)
    (late : ¬ TimesFit data i count) : parseMany data connId count i = .error .overflow := by
  induction count generalizing i with
  | zero => exact absurd (fun k lt => absurd lt (Nat.not_lt_zero k)) late
  | succ count ih =>
    obtain ⟨inside, beyond⟩ := room_succ room
    have step := parseFileDescriptor_eq connId inside
    unfold parseMany
    by_cases first : Accepted (recordAt data i) → TimeFits (recordAt data i)
    · have rest : ¬ (Accepted (recordAt data i) → TimesFit data (i + 592) count) :=
        fun rest => late (timesFit_succ.mpr ⟨first, rest⟩)
      push Not at rest
      obtain ⟨accepted, rest⟩ := rest
      obtain ⟨desc, parsed⟩ := (accepted_iff (recordAt data i) connId).mp accepted
      rw [if_pos first, parsed] at step
      rw [bind_of_ok step]
      exact bind_of_error (ih beyond rest)
    · rw [if_neg first] at step
      exact bind_of_error step

/-- How many descriptors the first four bytes announce. -/
def announced (pdu : Bytes) : Nat := getLe pdu 0 4

theorem announced_lt (pdu : Bytes) : announced pdu < 2 ^ 32 := getLe_lt pdu 0 4

theorem getUintLe_announced (long : 4 ≤ pdu.length) :
    getUintLe pdu 4 0 = .ok (announced pdu, 4) := getUintLe_ok (by omega)

/-- With the announced length the loop runs over everything that is left. -/
theorem parse_whole (whole : pdu.length = 4 + 592 * announced pdu) :
    parseFileDescriptors pdu connId 0 =
      (parseMany pdu connId (announced pdu) 4).map fun (result, cursor) =>
        (⟨result, announced pdu⟩, cursor) := by
  have lt := announced_lt pdu
  have long : ¬ pdu.length - 0 < 4 := by omega
  unfold parseFileDescriptors
  rw [bind_of_ok remaining_ok, if_neg long, bind_of_ok (getUintLe_announced (by omega)),
    bind_of_ok remaining_ok]
  by_cases empty : pdu.length - 4 = 0 ∧ announced pdu = 0
  · rw [if_pos empty, empty.2]
    rfl
  · have fits : 592 * announced pdu < 2 ^ 64 := by omega
    have same : ¬ pdu.length - 4 ≠ 592 * announced pdu := by omega
    rw [if_neg empty, checkedMul, bind_of_ok (fit_ok fits), bind_of_ok remaining_ok, if_neg same]
    cases run : parseMany pdu connId (announced pdu) 4 with
    | error fault => exact bind_of_error run
    | ok read => exact bind_of_ok run

/-- Any other length is refused before anything is allocated. -/
theorem parse_other (connId : Int) (other : pdu.length ≠ 4 + 592 * announced pdu) :
    ∃ e cursor, parseFileDescriptors pdu connId 0 = .ok (⟨.error e, 0⟩, cursor) ∧
      cursor ≤ pdu.length ∧ FileDescription.parseFileDescriptors pdu connId = .error e := by
  have lt := announced_lt pdu
  unfold parseFileDescriptors FileDescription.parseFileDescriptors
  rw [bind_of_ok remaining_ok]
  by_cases short : pdu.length < 4
  · rw [if_pos short, if_pos (by omega)]
    exact ⟨_, 0, rfl, Nat.zero_le _, rfl⟩
  · have fits : 592 * announced pdu < 2 ^ 64 := by omega
    have some : ¬ (pdu.length - 4 = 0 ∧ announced pdu = 0) := by omega
    have differs : pdu.length - 4 ≠ 592 * announced pdu := by omega
    rw [if_neg short, if_neg (by omega), bind_of_ok (getUintLe_announced (by omega)),
      bind_of_ok remaining_ok, if_neg some, checkedMul, bind_of_ok (fit_ok fits),
      bind_of_ok remaining_ok, if_pos differs]
    simp only [List.length_drop]
    rw [← announced]
    refine ⟨_, 4, rfl, by omega, ?_⟩
    rw [if_neg some]
    exact if_pos differs

theorem plain_whole (whole : pdu.length = 4 + 592 * announced pdu) :
    FileDescription.parseFileDescriptors pdu connId =
      FileDescription.parseMany connId (announced pdu) (pdu.drop 4) := by
  have long : ¬ pdu.length < 4 := by omega
  unfold FileDescription.parseFileDescriptors
  rw [if_neg long]
  simp only [List.length_drop]
  rw [← announced]
  by_cases empty : pdu.length - 4 = 0 ∧ announced pdu = 0
  · rw [if_pos empty, empty.2]
    rfl
  · have same : ¬ pdu.length - 4 ≠ 592 * announced pdu := by omega
    rw [if_neg empty]
    exact if_neg same

/-- The announced descriptors fit, as far as they are reached. -/
def Timely (pdu : Bytes) : Prop :=
  pdu.length = 4 + 592 * announced pdu → TimesFit pdu 4 (announced pdu)

/-- The parser answers: it reads within the text, allocates for no more
descriptions than the text has room for, and accepts only a text of the announced
length, all of which it has then read. -/
def Safe (pdu : Bytes) (connId : Int) : Prop :=
  ∃ parsed cursor, parseFileDescriptors pdu connId 0 = .ok (parsed, cursor) ∧
    cursor ≤ pdu.length ∧ 592 * parsed.capacity ≤ pdu.length ∧
    ∀ files, parsed.result = .ok files →
      pdu.length = 4 + 592 * announced pdu ∧ files.length = announced pdu ∧
        cursor = pdu.length

/-- Where no time leaves its width, the answer is the plain parser's. -/
theorem safe_of_timely (connId : Int) (timely : Timely pdu) :
    ∃ parsed cursor, parseFileDescriptors pdu connId 0 = .ok (parsed, cursor) ∧
      parsed.result = FileDescription.parseFileDescriptors pdu connId ∧
      cursor ≤ pdu.length ∧ 592 * parsed.capacity ≤ pdu.length ∧
      ∀ files, parsed.result = .ok files →
        pdu.length = 4 + 592 * announced pdu ∧ files.length = announced pdu ∧
          cursor = pdu.length := by
  by_cases whole : pdu.length = 4 + 592 * announced pdu
  · obtain ⟨n, le, run, all⟩ := parseMany_ok connId whole.ge (timely whole)
    have read : 4 + 592 * n ≤ pdu.length := by
      rw [whole]
      exact Nat.add_le_add_left (Nat.mul_le_mul_left _ le) _
    refine ⟨⟨_, announced pdu⟩, 4 + 592 * n, ?_, (plain_whole whole).symm, read, ?_, ?_⟩
    · rw [parse_whole whole, run]
      rfl
    · rw [whole]
      exact Nat.le_add_left _ _
    · intro files accepted
      obtain ⟨rfl, length⟩ := all files accepted
      exact ⟨whole, length, whole.symm⟩
  · obtain ⟨e, cursor, run, le, plain⟩ := parse_other connId whole
    refine ⟨_, cursor, run, plain.symm, le, Nat.zero_le _, ?_⟩
    intro files accepted
    cases accepted

theorem overflow_of_late (late : ¬ Timely pdu) :
    parseFileDescriptors pdu connId 0 = .error .overflow := by
  unfold Timely at late
  push Not at late
  obtain ⟨whole, late⟩ := late
  rw [parse_whole whole, parseMany_overflow whole.ge late]
  rfl

/-- No read of the parser is out of bounds, whatever the text. -/
theorem never_outOfBounds (pdu : Bytes) (connId : Int) :
    parseFileDescriptors pdu connId 0 ≠ .error .outOfBounds := by
  intro fault
  by_cases timely : Timely pdu
  · obtain ⟨parsed, cursor, run, -⟩ := safe_of_timely connId timely
    rw [run] at fault
    cases fault
  · rw [overflow_of_late timely] at fault
    cases fault

/-- **The parser is safe exactly where every write time it comes to, of a descriptor
that is not refused, is a number of nanoseconds in 64 bits.** -/
theorem safe_iff_timely (pdu : Bytes) (connId : Int) : Safe pdu connId ↔ Timely pdu := by
  constructor
  · rintro ⟨parsed, cursor, run, -⟩
    by_contra late
    rw [overflow_of_late late] at run
    cases run
  · intro timely
    obtain ⟨parsed, cursor, run, -, rest⟩ := safe_of_timely connId timely
    exact ⟨parsed, cursor, run, rest⟩

/-- One descriptor with valid attributes and the greatest write time there is. -/
def latePdu : Bytes :=
  toLittleEndian 4 1 ++ toLittleEndian 4 (flagsFdAttributes ||| flagsFdLastWrite) ++
    List.replicate 52 0 ++ List.replicate 8 0xFF ++ List.replicate 528 0

theorem latePdu_not_safe : ¬ Safe latePdu 0 := by
  have fault : (parseFileDescriptors latePdu 0 0).isOk = false := by decide +kernel
  rintro ⟨parsed, cursor, run, -⟩
  rw [run] at fault
  cases fault

end CamelliaRemote.Clipboard.CheckedDescriptors
