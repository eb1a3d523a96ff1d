import CamelliaRemote.Lib.Runs
import CamelliaRemote.Terminal.OutputBuffer

namespace CamelliaRemote.Terminal

def channelBufferSize : Nat := 500

def compressThreshold : Nat := 512

def defaultReconnectBufferBytes : Nat := 8 * 1024

def maxSigwinchPhaseAttempts : Nat := 3

/-- The compression of the protocol crate: what is compressed comes back. -/
structure Compression where
  compress : Bytes → Bytes
  decompress : Bytes → Bytes
  decompress_compress : ∀ data, decompress (compress data) = data

/-- A compression that never shrinks its input, as on short inputs. -/
def Compression.stored : Compression := ⟨id, id, fun _ => rfl⟩

inductive SigwinchPhase where
  | idle
  | tempResize (retries : Nat)
  | restore (retries : Nat)
  deriving DecidableEq, Repr

inductive SigwinchAction where
  | tempResize
  | restore
  deriving DecidableEq, Repr

/-- One attempt of the current phase, if it has attempts left. -/
def SigwinchPhase.attempt : SigwinchPhase → SigwinchPhase × Option SigwinchAction
  | .idle => (.idle, none)
  | .tempResize 0 => (.idle, none)
  | .tempResize (retries + 1) => (.tempResize retries, some .tempResize)
  | .restore 0 => (.idle, none)
  | .restore (retries + 1) => (.restore retries, some .restore)

/-- How the phase goes on after the resize of an attempt. -/
def SigwinchPhase.resized (phase : SigwinchPhase) (action : Option SigwinchAction)
    (resizeOk : Bool) : SigwinchPhase :=
  match action, resizeOk with
  | some .tempResize, true => .restore maxSigwinchPhaseAttempts
  | some .restore, true => .idle
  | _, _ => phase

inductive SessionState where
  | closed
  | active (pendingBuffer : Option Bytes) (sigwinch : SigwinchPhase)
  deriving DecidableEq, Repr

/-- The shell as `try_wait` sees it. -/
inductive Child where
  | running
  | exited (code : Int)
  deriving DecidableEq, Repr

structure TerminalSession where
  /-- The chunks in the output channel, oldest first. -/
  queue : List Bytes := []
  outputBuffer : OutputBuffer := {}
  state : SessionState := .closed
  child : Option Child := none
  readerFinished : Bool := false
  closedMessageSent : Bool := false
  deriving DecidableEq, Repr

structure TerminalData where
  terminalId : Int
  data : Bytes
  compressed : Bool := false
  deriving DecidableEq, Repr

def createTerminalDataResponse (z : Compression) (terminalId : Int) (data : Bytes) :
    TerminalData :=
  if compressThreshold < data.length ∧ (z.compress data).length < data.length then
    { terminalId, data := z.compress data, compressed := true }
  else { terminalId, data }

/-- The output bytes a data response carries. -/
def TerminalData.payload (z : Compression) (d : TerminalData) : Bytes :=
  if d.compressed then z.decompress d.data else d.data

theorem createTerminalDataResponse_payload (z : Compression) (terminalId : Int) (data : Bytes) :
    (createTerminalDataResponse z terminalId data).payload z = data := by
  unfold createTerminalDataResponse
  split <;> simp [TerminalData.payload, z.decompress_compress]

namespace TerminalSession

/-- A session as `handle_open` first makes it. -/
def opened : TerminalSession :=
  { state := .active none .idle, child := some .running }

/-- `try_send_output` of the reader thread; a full channel drops the chunk. -/
def trySend (s : TerminalSession) (data : Bytes) : TerminalSession :=
  if s.queue.length < channelBufferSize then { s with queue := s.queue ++ [data] } else s

/-- Whether the shell is seen to have ended: the reader thread is finished, or
`try_wait` says so. -/
def hasEnded (s : TerminalSession) (waitFails : Bool) : Bool :=
  s.readerFinished ||
    match s.child with
    | some (.exited _) => !waitFails
    | _ => false

/-- Whether this poll is the one that announces the end. -/
def shouldSendClosed (s : TerminalSession) (waitFails : Bool) : Bool :=
  !s.closedMessageSent && s.hasEnded waitFails

/-- The state after a poll, and the replay it takes out. -/
def takePending (state : SessionState) (resizeOk : Bool) : SessionState × Option Bytes :=
  match state with
  | .closed => (.closed, none)
  | .active pendingBuffer sigwinch =>
    let (phase, action) := sigwinch.attempt
    (.active none (phase.resized action resizeOk), pendingBuffer)

/-- The section of `read_outputs` that holds the lock of the session. -/
def poll (s : TerminalSession) (arrivals : List Bytes) (waitFails resizeOk : Bool) :
    TerminalSession :=
  { s with
    queue := []
    outputBuffer := s.outputBuffer.appendAll (s.queue ++ arrivals)
    state := (takePending s.state resizeOk).1
    closedMessageSent := s.closedMessageSent || s.shouldSendClosed waitFails }

/-- The chunks that section sends: the replay, then what it received. -/
def pollChunks (s : TerminalSession) (arrivals : List Bytes) : List Bytes :=
  match s.state with
  | .closed => []
  | .active pendingBuffer _ =>
    (match pendingBuffer with
      | some buffer => if buffer.isEmpty then [] else [buffer]
      | none => []) ++ (s.queue ++ arrivals)

def pollResponses (z : Compression) (s : TerminalSession) (terminalId : Int)
    (arrivals : List Bytes) : List TerminalData :=
  (s.pollChunks arrivals).map (createTerminalDataResponse z terminalId)

/-- `handle_open` of an existing terminal. -/
def reconnect (s : TerminalSession) (arrivals : List Bytes) : TerminalSession :=
  let reconnectBacklog := (s.queue ++ arrivals).take channelBufferSize
  let outputBuffer := s.outputBuffer.appendAll reconnectBacklog
  let buffer := outputBuffer.getRecent defaultReconnectBufferBytes
  { s with
    queue := (s.queue ++ arrivals).drop channelBufferSize
    outputBuffer
    state := .active (if buffer.isEmpty then none else some buffer)
      (.tempResize maxSigwinchPhaseAttempts) }

/-- What `reset_status` does to a session. -/
def resetStatus (s : TerminalSession) : TerminalSession := { s with state := .closed }

def shellExits (s : TerminalSession) (code : Int) : TerminalSession :=
  { s with child := s.child.map fun _ => .exited code }

def finishReader (s : TerminalSession) : TerminalSession := { s with readerFinished := true }

/-- The child is taken and handed to the zombie reaper. -/
def takeChild (s : TerminalSession) : TerminalSession := { s with child := none }

end TerminalSession

/-- What happens to one session: the sections that hold its lock, the reader
thread, and its shell. -/
inductive SessionEvent where
  | send (data : Bytes)
  | poll (terminalId : Int) (arrivals : List Bytes) (waitFails resizeOk : Bool)
  | reset
  | reconnect (arrivals : List Bytes)
  | shellExits (code : Int)
  | finishReader
  | takeChild
  deriving DecidableEq, Repr

def TerminalSession.step (s : TerminalSession) : SessionEvent → TerminalSession
  | .send data => s.trySend data
  | .poll _ arrivals waitFails resizeOk => s.poll arrivals waitFails resizeOk
  | .reset => s.resetStatus
  | .reconnect arrivals => s.reconnect arrivals
  | .shellExits code => s.shellExits code
  | .finishReader => s.finishReader
  | .takeChild => s.takeChild

end CamelliaRemote.Terminal
