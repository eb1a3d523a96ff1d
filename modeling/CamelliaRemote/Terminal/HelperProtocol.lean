import CamelliaRemote.Lib.Codec
import CamelliaRemote.Terminal.OutputBuffer

/-!
The pipe to a terminal helper, `server/terminal_helper.rs`. The service frames what a client types
and its resizes, and the input thread of the helper takes the frames apart again. A read of the
pipe gives some of what has arrived, an interruption or an error; the end of the list of reads is
the end of the pipe.
-/

namespace CamelliaRemote.Terminal
open Codec (toLittleEndian ofLittleEndian)

def msgTypeData : UInt8 := 0x01

def msgTypeResize : UInt8 := 0x02

def msgHeaderSize : Nat := 5

def maxPayloadSize : Nat := 16 * 1024 * 1024

def encodeHelperMessage (msgType : UInt8) (payload : Bytes) : Bytes :=
  [msgType] ++ toLittleEndian 4 (payload.length % 2 ^ 32) ++ payload

def encodeResizeMessage (rows cols : UInt16) : Bytes :=
  encodeHelperMessage msgTypeResize (toLittleEndian 2 rows.toNat ++ toLittleEndian 2 cols.toNat)

/-- What the pipe answers to reads. A read takes no more than it asks for and leaves the rest. -/
inductive Read where
  | interrupted
  | failed (error : String)
  | bytes (bs : Bytes)
  deriving DecidableEq, Repr

/-- All bytes of the pipe. -/
def arriving : List Read → Bytes
  | [] => []
  | .bytes bs :: reads => bs ++ arriving reads
  | _ :: reads => arriving reads

inductive Filled where
  | full (buf : Bytes)
  | eof
  | failed (error : String)
  deriving DecidableEq, Repr

/-- `read_exact_or_eof` with `need` bytes to go, and what is left of the pipe. -/
def readExactOrEof : Nat → Bytes → List Read → Filled × List Read
  | 0, buf, reads => (.full buf, reads)
  | _ + 1, _, [] => (.eof, [])
  | need + 1, buf, .interrupted :: reads => readExactOrEof (need + 1) buf reads
  | _ + 1, _, .failed e :: reads => (.failed e, reads)
  | need + 1, buf, .bytes bs :: reads =>
    if bs.isEmpty then (.eof, reads)
    else if bs.length ≤ need + 1 then readExactOrEof (need + 1 - bs.length) (buf ++ bs) reads
    else (.full (buf ++ bs.take (need + 1)), .bytes (bs.drop (need + 1)) :: reads)

inductive PtyAction where
  | write (data : Bytes)
  | resize (rows cols : UInt16)
  deriving DecidableEq, Repr

/-- What the loop meets in its turns: whether the helper is about to exit, and the number of
bytes after which writing to the PTY fails. -/
structure HelperEnv where
  exiting : Nat → Bool := fun _ => false
  writeFails : Nat → Option Nat := fun _ => none

def u16FromLeBytes (lo hi : UInt8) : UInt16 := UInt16.ofNat (ofLittleEndian [lo, hi])

/-- The rows and columns at the start of the buffer. -/
def resizeOf (payloadBuf : Bytes) : PtyAction :=
  .resize (u16FromLeBytes (payloadBuf.getD 0 0) (payloadBuf.getD 1 0))
    (u16FromLeBytes (payloadBuf.getD 2 0) (payloadBuf.getD 3 0))

/-- One message in the buffer. The second result says whether the loop goes on. -/
def handleMessage (writeFails : Option Nat) (msgType : UInt8) (payloadLen : Nat)
    (payloadBuf : Bytes) : Option PtyAction × Bool :=
  if msgType = msgTypeData then
    match writeFails with
    | none => (some (.write (payloadBuf.take payloadLen)), true)
    | some n => (some (.write ((payloadBuf.take payloadLen).take n)), false)
  else if msgType = msgTypeResize then
    (if 4 ≤ payloadLen then some (resizeOf payloadBuf) else none, true)
  else (none, false)

/-- One turn of the loop: what it does to the PTY, and the payload buffer and the rest of the
pipe if it goes on. -/
def inputTurn (env : HelperEnv) (turn : Nat) (payloadBuf : Bytes) (reads : List Read) :
    Option PtyAction × Option (Bytes × List Read) :=
  if env.exiting turn then (none, none)
  else
    match readExactOrEof msgHeaderSize [] reads with
    | (.full header, reads) =>
      let msgType := header.headD 0
      let payloadLen := ofLittleEndian (header.drop 1)
      if maxPayloadSize < payloadLen then (none, none)
      else
        let payloadBuf := payloadBuf ++ List.replicate (payloadLen - payloadBuf.length) 0
        match if 0 < payloadLen then readExactOrEof payloadLen [] reads else (.full [], reads) with
        | (.full payload, reads) =>
          let payloadBuf := payload ++ payloadBuf.drop payloadLen
          let (action, goesOn) :=
            handleMessage (env.writeFails turn) msgType payloadLen payloadBuf
          (action, if goesOn then some (payloadBuf, reads) else none)
        | _ => (none, none)
    | _ => (none, none)

theorem readExactOrEof_full {need : Nat} {buf buf' : Bytes} {reads rest : List Read}
    (h : readExactOrEof need buf reads = (.full buf', rest)) :
    ∃ got, buf' = buf ++ got ∧ got.length = need ∧ arriving reads = got ++ arriving rest := by
  induction reads generalizing need buf with
  | nil =>
    cases need with
    | zero =>
      obtain ⟨rfl, rfl⟩ := by simpa [readExactOrEof] using h
      exact ⟨[], by simp⟩
    | succ need => simp [readExactOrEof] at h
  | cons read reads ih =>
    cases need with
    | zero =>
      obtain ⟨rfl, rfl⟩ := by simpa [readExactOrEof] using h
      exact ⟨[], by simp⟩
    | succ need =>
      cases read with
      | interrupted => exact ih h
      | failed e => simp [readExactOrEof] at h
      | bytes bs =>
        unfold readExactOrEof at h
        split at h
        · simp at h
        · split at h
          · rename_i fits
            obtain ⟨got, rfl, length, eq⟩ := ih h
            refine ⟨bs ++ got, by simp, ?_, by simp [arriving, eq]⟩
            rw [List.length_append]
            omega
          · rename_i longer
            obtain ⟨rfl, rfl⟩ := by simpa using h
            refine ⟨bs.take (need + 1), rfl, ?_, ?_⟩
            · rw [List.length_take]
              omega
            · rw [arriving, arriving, ← List.append_assoc, List.take_append_drop]

/-- The header of a message, taken apart. -/
theorem encode_header {header payload : Bytes} (length : header.length = msgHeaderSize)
    (announced : payload.length = ofLittleEndian (header.drop 1)) :
    header ++ payload = encodeHelperMessage (header.headD 0) payload := by
  cases header with
  | nil => simp [msgHeaderSize] at length
  | cons msgType digits =>
    have four : digits.length = 4 := by simpa [msgHeaderSize] using length
    have small : payload.length < 2 ^ 32 := by
      rw [announced]
      have bound := Codec.ofBigEndian_lt digits.reverse
      rw [List.length_reverse, four] at bound
      exact bound
    have back := Codec.toBigEndian_ofBigEndian digits.reverse
    rw [List.length_reverse, four] at back
    rw [encodeHelperMessage, Nat.mod_eq_of_lt small, announced]
    simp only [List.drop_succ_cons, List.drop_zero, List.headD_cons, toLittleEndian,
      ofLittleEndian, back, List.reverse_reverse, List.cons_append, List.nil_append]

/-- The message does not depend on what the payload buffer held before. -/
theorem handleMessage_buffer (writeFails : Option Nat) (msgType : UInt8) (payload old : Bytes) :
    handleMessage writeFails msgType payload.length (payload ++ old) =
      handleMessage writeFails msgType payload.length payload := by
  unfold handleMessage
  rw [List.take_left, List.take_length]
  by_cases resizes : 4 ≤ payload.length
  · have same : resizeOf (payload ++ old) = resizeOf payload := by
      have within : ∀ i, i < 4 → (payload ++ old).getD i 0 = payload.getD i 0 := by
        intro i small
        rw [List.getD_eq_getElem?_getD, List.getD_eq_getElem?_getD,
          List.getElem?_append_left (by omega)]
      rw [resizeOf, resizeOf, within 0 (by omega), within 1 (by omega), within 2 (by omega),
        within 3 (by omega)]
    rw [same]
  · rw [if_neg resizes, if_neg resizes]

theorem readPayload_eq (payloadLen : Nat) (reads : List Read) :
    (if 0 < payloadLen then readExactOrEof payloadLen [] reads else (.full [], reads)) =
      readExactOrEof payloadLen [] reads := by
  cases payloadLen with
  | zero => simp [readExactOrEof]
  | succ n => rfl

/-- A turn of the loop stops without a word or handles one whole message of the pipe. -/
theorem inputTurn_cases (env : HelperEnv) (turn : Nat) (payloadBuf : Bytes) (reads : List Read) :
    inputTurn env turn payloadBuf reads = (none, none) ∨
      ∃ msgType payload rest payloadBuf',
        arriving reads = encodeHelperMessage msgType payload ++ arriving rest ∧
        payload.length ≤ maxPayloadSize ∧
        let handled := handleMessage (env.writeFails turn) msgType payload.length payload
        inputTurn env turn payloadBuf reads =
          (handled.1, if handled.2 then some (payloadBuf', rest) else none) := by
  unfold inputTurn
  split
  · exact .inl rfl
  · split
    · rename_i header rest₁ readHeader
      obtain ⟨got, same, length, eq⟩ := readExactOrEof_full readHeader
      obtain rfl : header = got := same
      simp only [readPayload_eq]
      split
      · exact .inl rfl
      · rename_i notTooLarge
        split
        · rename_i payload rest₂ readPayload
          obtain ⟨got', same', announced, eq'⟩ := readExactOrEof_full readPayload
          obtain rfl : payload = got' := same'
          let grown := payloadBuf ++ List.replicate (payload.length - payloadBuf.length) 0
          refine .inr ⟨header.headD 0, payload, rest₂, payload ++ grown.drop payload.length,
            ?_, by omega, ?_⟩
          · rw [← encode_header length announced, eq, eq', List.append_assoc]
          · rw [← announced, handleMessage_buffer]
        · exact .inl rfl
    · exact .inl rfl

theorem inputTurn_shorter {env : HelperEnv} {turn : Nat} {payloadBuf payloadBuf' : Bytes}
    {reads rest : List Read} {action : Option PtyAction}
    (h : inputTurn env turn payloadBuf reads = (action, some (payloadBuf', rest))) :
    (arriving rest).length < (arriving reads).length := by
  rcases inputTurn_cases env turn payloadBuf reads with none | ⟨_, payload, rest', _, eq, -, turned⟩
  · simp [h] at none
  · rw [h] at turned
    have goesOn := (Prod.mk.inj turned).2
    split at goesOn
    · obtain ⟨-, rfl⟩ := Prod.mk.inj (Option.some.inj goesOn)
      rw [eq]
      simp only [encodeHelperMessage, List.length_append, List.length_singleton]
      omega
    · simp at goesOn

/-- The loop of the input thread, which ends when the pipe does. -/
def inputLoop (env : HelperEnv) (turn : Nat) (payloadBuf : Bytes) (reads : List Read) :
    List PtyAction :=
  match h : inputTurn env turn payloadBuf reads with
  | (action, none) => action.toList
  | (action, some (payloadBuf', rest)) =>
    have := inputTurn_shorter h
    action.toList ++ inputLoop env (turn + 1) payloadBuf' rest
termination_by (arriving reads).length

theorem inputLoop_stops {env : HelperEnv} {turn : Nat} {payloadBuf : Bytes} {reads : List Read}
    {action : Option PtyAction} (turned : inputTurn env turn payloadBuf reads = (action, none)) :
    inputLoop env turn payloadBuf reads = action.toList := by
  unfold inputLoop
  split
  · rename_i turned'
    obtain ⟨rfl, -⟩ := Prod.mk.inj (turned.symm.trans turned')
    rfl
  · rename_i turned'
    simp [turned] at turned'

theorem inputLoop_goesOn {env : HelperEnv} {turn : Nat} {payloadBuf payloadBuf' : Bytes}
    {reads rest : List Read} {action : Option PtyAction}
    (turned : inputTurn env turn payloadBuf reads = (action, some (payloadBuf', rest))) :
    inputLoop env turn payloadBuf reads =
      action.toList ++ inputLoop env (turn + 1) payloadBuf' rest := by
  rw [inputLoop]
  split
  · rename_i turned'
    simp [turned] at turned'
  · rename_i turned'
    obtain ⟨rfl, next⟩ := Prod.mk.inj (turned.symm.trans turned')
    obtain ⟨rfl, rfl⟩ := Prod.mk.inj (Option.some.inj next)
    rfl

/-- What the input thread of `run_terminal_helper` does to the PTY. -/
def inputThread (env : HelperEnv) (reads : List Read) : List PtyAction :=
  inputLoop env 0 (List.replicate 4096 0) reads

end CamelliaRemote.Terminal
