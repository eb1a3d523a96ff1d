import CamelliaRemote.Lib.Runs
import CamelliaRemote.Terminal.HelperProtocol

namespace CamelliaRemote.Terminal
open Codec (toLittleEndian ofLittleEndian)

/-- What the service sends. -/
inductive HelperCommand where
  | data (payload : Bytes)
  | resize (rows cols : UInt16)
  deriving DecidableEq, Repr

namespace HelperCommand

def encode : HelperCommand → Bytes
  | .data payload => encodeHelperMessage msgTypeData payload
  | .resize rows cols => encodeResizeMessage rows cols

def action : HelperCommand → PtyAction
  | .data payload => .write payload
  | .resize rows cols => .resize rows cols

def Fits : HelperCommand → Prop
  | .data payload => payload.length ≤ maxPayloadSize
  | .resize _ _ => True

end HelperCommand

/-- Bytes and interruptions. -/
def Smooth (reads : List Read) : Prop :=
  ∀ read ∈ reads, read = .interrupted ∨ ∃ bs, bs ≠ [] ∧ read = .bytes bs

theorem readExactOrEof_smooth {need : Nat} {buf : Bytes} {reads : List Read} (smooth : Smooth reads)
    (enough : need ≤ (arriving reads).length) :
    ∃ buf' rest, readExactOrEof need buf reads = (.full buf', rest) ∧ Smooth rest := by
  induction reads generalizing need buf with
  | nil =>
    obtain rfl : need = 0 := by simpa [arriving] using enough
    exact ⟨buf, [], rfl, smooth⟩
  | cons read reads ih =>
    have later : Smooth reads := fun r mem => smooth r (List.mem_cons_of_mem _ mem)
    cases need with
    | zero => exact ⟨buf, read :: reads, by simp [readExactOrEof], smooth⟩
    | succ need =>
      rcases smooth read List.mem_cons_self with rfl | ⟨bs, some, rfl⟩
      · exact ih later enough
      · unfold readExactOrEof
        rw [if_neg (by simpa using some)]
        rw [arriving, List.length_append] at enough
        by_cases fits : bs.length ≤ need + 1
        · rw [if_pos fits]
          exact ih later (by omega)
        · rw [if_neg fits]
          refine ⟨_, _, rfl, ?_⟩
          intro r mem
          rcases List.mem_cons.mp mem with rfl | mem
          · refine .inr ⟨_, ?_, rfl⟩
            have longer : 0 < (bs.drop (need + 1)).length := by
              rw [List.length_drop]
              omega
            exact List.ne_nil_of_length_pos longer
          · exact later r mem

/-- A read of the first part gives the first part. -/
theorem readExactOrEof_first {first tail : Bytes} {reads : List Read} (smooth : Smooth reads)
    (eq : arriving reads = first ++ tail) :
    ∃ rest, readExactOrEof first.length [] reads = (.full first, rest) ∧ Smooth rest ∧
      arriving rest = tail := by
  have enough : first.length ≤ (arriving reads).length := by
    rw [eq, List.length_append]
    omega
  obtain ⟨buf, rest, read, smoothRest⟩ := @readExactOrEof_smooth _ [] _ smooth enough
  obtain ⟨got, same, length, eq'⟩ := readExactOrEof_full read
  obtain ⟨rfl, rfl⟩ := List.append_inj (eq.symm.trans eq') length.symm
  exact ⟨rest, by rw [read, same, List.nil_append], smoothRest, rfl⟩

/-- A turn of the loop handles the message that comes next. -/
theorem inputTurn_message {env : HelperEnv} {turn : Nat} (running : env.exiting turn = false)
    (payloadBuf : Bytes) {reads : List Read} (smooth : Smooth reads) {msgType : UInt8}
    {payload tail : Bytes} (fits : payload.length ≤ maxPayloadSize)
    (eq : arriving reads = encodeHelperMessage msgType payload ++ tail) :
    let handled := handleMessage (env.writeFails turn) msgType payload.length payload
    ∃ rest payloadBuf', inputTurn env turn payloadBuf reads =
        (handled.1, if handled.2 then some (payloadBuf', rest) else none) ∧
      Smooth rest ∧ arriving rest = tail := by
  have small : payload.length < 256 ^ 4 := by
    unfold maxPayloadSize at fits
    omega
  let header := msgType :: toLittleEndian 4 payload.length
  have split : arriving reads = header ++ (payload ++ tail) := by
    rw [eq, encodeHelperMessage, Nat.mod_eq_of_lt (by simpa using small)]
    simp [header]
  obtain ⟨rest₁, readHeader, smooth₁, arriving₁⟩ := readExactOrEof_first smooth split
  obtain ⟨rest₂, readPayload, smooth₂, arriving₂⟩ := readExactOrEof_first smooth₁ arriving₁
  have five : header.length = msgHeaderSize := by simp [header, msgHeaderSize]
  have announced : ofLittleEndian (header.drop 1) = payload.length :=
    Codec.ofLittleEndian_toLittleEndian small
  rw [five] at readHeader
  let grown := payloadBuf ++ List.replicate (payload.length - payloadBuf.length) 0
  refine ⟨rest₂, payload ++ grown.drop payload.length, ?_, smooth₂, arriving₂⟩
  unfold inputTurn
  simp only [running, readHeader, announced, readPayload_eq]
  rw [if_neg (by simp), if_neg (by omega)]
  simp only [readPayload, handleMessage_buffer]
  rfl

theorem u16FromLeBytes_toLittleEndian (n : UInt16) :
    ∃ lo hi, toLittleEndian 2 n.toNat = [lo, hi] ∧ u16FromLeBytes lo hi = n := by
  have small : n.toNat < 256 ^ 2 := by simpa using n.toNat_lt
  have back := Codec.ofLittleEndian_toLittleEndian small
  match digits : toLittleEndian 2 n.toNat, Codec.length_toLittleEndian 2 n.toNat with
  | [lo, hi], _ =>
    refine ⟨lo, hi, rfl, ?_⟩
    rw [digits] at back
    rw [u16FromLeBytes, back, UInt16.ofNat_toNat]

/-- The helper does what it is told. -/
theorem HelperCommand.handled (command : HelperCommand) :
    ∃ msgType payload, command.encode = encodeHelperMessage msgType payload ∧
      (command.Fits → payload.length ≤ maxPayloadSize) ∧
      handleMessage none msgType payload.length payload = (some command.action, true) := by
  cases command with
  | data payload =>
    refine ⟨msgTypeData, payload, rfl, id, ?_⟩
    rw [handleMessage, if_pos rfl, List.take_length, action]
  | resize rows cols =>
    obtain ⟨r₀, r₁, rowsDigits, rowsBack⟩ := u16FromLeBytes_toLittleEndian rows
    obtain ⟨c₀, c₁, colsDigits, colsBack⟩ := u16FromLeBytes_toLittleEndian cols
    refine ⟨msgTypeResize, _, rfl, ?_, ?_⟩
    · intro _
      simp [maxPayloadSize]
    · rw [rowsDigits, colsDigits]
      simp [handleMessage, msgTypeResize, msgTypeData, resizeOf, rowsBack, colsBack, action]

theorem inputTurn_nothing (env : HelperEnv) (turn : Nat) (payloadBuf : Bytes) {reads : List Read}
    (nothing : arriving reads = []) : inputTurn env turn payloadBuf reads = (none, none) := by
  rcases inputTurn_cases env turn payloadBuf reads with stops | ⟨_, _, _, _, eq, -⟩
  · exact stops
  · simp [nothing, encodeHelperMessage] at eq

/-- The helper is not exiting and the PTY takes what is written. -/
def HelperEnv.Undisturbed (env : HelperEnv) (turn : Nat) : Prop :=
  env.exiting turn = false ∧ env.writeFails turn = none

theorem inputLoop_agrees {env : HelperEnv} {commands : List HelperCommand} {turn : Nat}
    {payloadBuf : Bytes} {reads : List Read} (smooth : Smooth reads)
    (fit : ∀ command ∈ commands, command.Fits)
    (undisturbed : ∀ i, i < commands.length → env.Undisturbed (turn + i))
    (eq : arriving reads = commands.flatMap HelperCommand.encode) :
    inputLoop env turn payloadBuf reads = commands.map HelperCommand.action := by
  induction commands generalizing turn payloadBuf reads with
  | nil =>
    exact inputLoop_stops (inputTurn_nothing env turn payloadBuf eq)
  | cons command commands ih =>
    obtain ⟨msgType, payload, encoded, fits, handled⟩ := command.handled
    obtain ⟨running, takes⟩ : env.Undisturbed turn := undisturbed 0 (by simp)
    rw [List.flatMap_cons, encoded] at eq
    obtain ⟨rest, payloadBuf', turned, smoothRest, arrivingRest⟩ := inputTurn_message running
      payloadBuf smooth (fits (fit command List.mem_cons_self)) eq
    rw [takes, handled] at turned
    rw [inputLoop_goesOn turned, List.map_cons]
    refine congrArg (command.action :: ·) (ih smoothRest ?_ ?_ arrivingRest)
    · exact fun c mem => fit c (List.mem_cons_of_mem _ mem)
    · intro i small
      have next := undisturbed (i + 1) (by simpa using small)
      rwa [Nat.add_assoc, Nat.add_comm 1 i]

/-- The bytes that reach the PTY. -/
def written (actions : List PtyAction) : Bytes :=
  actions.flatMap fun
    | .write data => data
    | .resize _ _ => []

/-- A message with its type. -/
abbrev Frame := UInt8 × Bytes

/-- The payload, if the frame is one of terminal data. -/
def dataOf (frame : Frame) : Bytes := if frame.1 = msgTypeData then frame.2 else []

theorem handleMessage_written (writeFails : Option Nat) (msgType : UInt8) (payload : Bytes) :
    let handled := handleMessage writeFails msgType payload.length payload
    written handled.1.toList <+: dataOf (msgType, payload) ∧
      (handled.2 = true → written handled.1.toList = dataOf (msgType, payload)) := by
  by_cases data : msgType = msgTypeData
  · cases writeFails with
    | none => simp [handleMessage, data, written, dataOf]
    | some n => simp [handleMessage, data, written, dataOf, List.take_prefix]
  · by_cases resizes : msgType = msgTypeResize
    · by_cases long : 4 ≤ payload.length
      · simp [handleMessage, resizes, msgTypeResize, msgTypeData, long, resizeOf, written, dataOf]
      · simp [handleMessage, resizes, msgTypeResize, msgTypeData, long, written, dataOf]
    · simp [handleMessage, data, resizes, written, dataOf]

/-- Frames at the start of the pipe account for all that is written. -/
def Accounts (frames : List Frame) (reads : List Read) (actions : List PtyAction) : Prop :=
  (frames.flatMap fun frame => encodeHelperMessage frame.1 frame.2) <+: arriving reads ∧
    (∀ frame ∈ frames, frame.2.length ≤ maxPayloadSize) ∧
    written actions <+: frames.flatMap dataOf

theorem inputLoop_accounted (env : HelperEnv) (turn : Nat) (payloadBuf : Bytes)
    (reads : List Read) :
    ∃ frames, Accounts frames reads (inputLoop env turn payloadBuf reads) := by
  rcases inputTurn_cases env turn payloadBuf reads with
    stops | ⟨msgType, payload, rest, payloadBuf', eq, fits, turned⟩
  · rw [inputLoop_stops stops]
    exact ⟨[], List.nil_prefix, by simp, List.prefix_refl _⟩
  · obtain ⟨within, whole⟩ := handleMessage_written (env.writeFails turn) msgType payload
    cases goesOn : (handleMessage (env.writeFails turn) msgType payload.length payload).2 with
    | false =>
      rw [inputLoop_stops (by rw [turned, goesOn]; rfl)]
      refine ⟨[(msgType, payload)], ?_, by simpa using fits, by simpa using within⟩
      rw [eq]
      simp
    | true =>
      have shorter : (arriving rest).length < (arriving reads).length :=
        inputTurn_shorter (by rw [turned, goesOn]; rfl)
      obtain ⟨frames, start, fit, accounted⟩ :=
        inputLoop_accounted env (turn + 1) payloadBuf' rest
      rw [inputLoop_goesOn (by rw [turned, goesOn]; rfl)]
      refine ⟨(msgType, payload) :: frames, ?_, ?_, ?_⟩
      · rw [eq, List.flatMap_cons]
        exact (List.prefix_append_right_inj _).mpr start
      · exact List.forall_mem_cons.mpr ⟨fits, fit⟩
      · rw [written, List.flatMap_append, List.flatMap_cons, ← whole goesOn]
        exact (List.prefix_append_right_inj _).mpr accounted
termination_by (arriving reads).length

/-- **The framers agree**: any cut of the encoded commands into reads is decoded into the
commands, and no stream at all makes the loop write other bytes than those of payloads of whole
data frames that passed the size check. -/
theorem helper_pipe_agrees :
    (∀ (env : HelperEnv) (commands : List HelperCommand) (reads : List Read),
      Smooth reads → (∀ command ∈ commands, command.Fits) →
      (∀ turn, turn < commands.length → env.Undisturbed turn) →
      arriving reads = commands.flatMap HelperCommand.encode →
      inputThread env reads = commands.map HelperCommand.action) ∧
    ∀ (env : HelperEnv) (reads : List Read),
      ∃ frames, Accounts frames reads (inputThread env reads) := by
  constructor
  · intro env commands reads smooth fit undisturbed eq
    exact inputLoop_agrees smooth fit (by simpa using undisturbed) eq
  · exact fun env reads => inputLoop_accounted env 0 _ reads

/-- A data message and a resize come in three pieces with an interruption. -/
theorem helper_pipe_agrees_cut :
    inputThread {} [.bytes [1, 2, 0], .interrupted, .bytes [0, 0, 104, 105, 2],
        .bytes [4, 0, 0, 0, 24, 0, 80, 0]] =
      [.write [104, 105], .resize 24 80] :=
  helper_pipe_agrees.1 {} [.data [104, 105], .resize 24 80] _
    (by simp [Smooth]) (by simp [HelperCommand.Fits, maxPayloadSize]) (fun _ _ => ⟨rfl, rfl⟩)
    (by decide)

end CamelliaRemote.Terminal
