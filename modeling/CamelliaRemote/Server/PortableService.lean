import CamelliaRemote.Lib.Runs
import Mathlib.Algebra.Ring.Int.Defs
import Mathlib.Algebra.Ring.Nat

/-!
The IPC token of the portable service, `src/server/portable_service.rs`. A launch makes a shared
memory with a token in it, and then sets the token that the IPC server accepts, in two sections. A
handshake consumes the token and gives it back if it fails. A step is one section under the locks.
`STARTING` is also reset by the IPC connection, by failed handshakes and by the watchdog of a
launch, at any time.
-/

namespace CamelliaRemote.PortableService
open Runs

/-- The characters of a string that may be a token. -/
abbrev IpcToken := List Char

def byteLen (token : IpcToken) : Nat := (token.map fun c => c.utf8Size).sum

def ipcTokenLen : Nat := 64

def isLowerHexDigit (c : Char) : Bool := ('0' ≤ c && c ≤ '9') || ('a' ≤ c && c ≤ 'f')

def isValidPortableServiceIpcToken (token : IpcToken) : Bool :=
  byteLen token = ipcTokenLen && token.all isLowerHexDigit

/-- Two strings of the right length whose bytes do not differ. -/
def constantTimeIpcTokenEq (expected candidate : IpcToken) : Bool :=
  byteLen expected = ipcTokenLen && byteLen candidate = ipcTokenLen && expected = candidate

inductive Stage where
  | idle
  | begun
  | cleared
  | created (token : IpcToken) (name : String)
  | armed
  | failing
  | failed
  deriving DecidableEq

/-- A handshake that has consumed the token, before its end. -/
structure Handshake where
  consumedToken : IpcToken
  consumedTokenShmemName : Option String
  deriving DecidableEq

structure Runtime where
  starting : Bool := false
  token : Option IpcToken := none
  /-- `SHMEM`, with its token slot. -/
  shmem : Option (Option IpcToken) := none
  name : Option String := none
  launches : Nat → Stage := fun _ => .idle
  next : Nat := 0
  handshakes : List Handshake := []
  /-- The tokens that were made, each with the shared memory it was made for. -/
  made : List (IpcToken × String) := []
  succeeded : List IpcToken := []

inductive RunResult where
  | started
  | notRun
  | noExe
  deriving DecidableEq

inductive Event where
  /-- What the call has read of `RUNNING`, and whether a process is there. -/
  | start (running hasRunningProcess : Bool)
  | clear (launch : Nat)
  /-- The section under `SHMEM`: the token and the name that were made, unless it fails
  before the shared memory exists. -/
  | createShmem (launch : Nat) (made : Option (IpcToken × String))
  | setRuntimeIpcToken (launch : Nat)
  | runProcess (launch : Nat) (result : RunResult)
  | endFailed (launch : Nat)
  | consume (candidate : IpcToken)
  | handshakeDone (h : Handshake)
  | restore (h : Handshake)
  | shutdown
  | resetStarting
  deriving DecidableEq

namespace Runtime
variable (s : Runtime)

def setStage (launch : Nat) (stage : Stage) : Runtime :=
  { s with launches := Function.update s.launches launch stage }

/-- `STARTING` without a process counts as stale. -/
def start (running hasRunningProcess : Bool) : Runtime :=
  let stale := s.starting && !running && !hasRunningProcess
  let starting := s.starting && !stale
  if starting || running then { s with starting }
  else { s.setStage s.next .begun with starting := true, next := s.next + 1 }

def clearRuntimeShmemState : Runtime := { s with token := none, shmem := none, name := none }

def createShmem (launch : Nat) (token : IpcToken) (name : String) : Runtime :=
  let made := { s with name := some name, made := s.made ++ [(token, name)] }
  if isValidPortableServiceIpcToken token then
    { made.setStage launch (.created token name) with shmem := some (some token) }
  else { made.setStage launch .failing with shmem := some none }

def accepts (candidate : IpcToken) : Bool :=
  s.token.any fun expected => constantTimeIpcTokenEq expected candidate

def consumeRuntimeIpcTokenIfMatch (candidate : IpcToken) : Runtime :=
  if s.accepts candidate then
    { s with
      token := none
      shmem := s.shmem.map fun _ => none
      handshakes := s.handshakes ++ [⟨candidate, s.name⟩] }
  else s

def restoreRuntimeIpcTokenAfterFailedHandshake (token : IpcToken) (expected : Option String) :
    Runtime :=
  let forgotten := { s with token := if s.token = some token then none else s.token }
  if s.token.any (· ≠ token) then s
  else if s.name ≠ expected then forgotten
  else
    match s.shmem with
    | some _ =>
      if isValidPortableServiceIpcToken token then
        { s with shmem := some (some token), token := some token }
      else forgotten
    | none => forgotten

def step : Event → Runtime
  | .start running hasRunningProcess => s.start running hasRunningProcess
  | .clear launch =>
    match s.launches launch with
    | .begun => s.clearRuntimeShmemState.setStage launch .cleared
    | .failing => s.clearRuntimeShmemState.setStage launch .failed
    | _ => s
  | .createShmem launch made =>
    match s.launches launch, made with
    | .cleared, some (token, name) => s.createShmem launch token name
    | .cleared, none => s.setStage launch .failed
    | _, _ => s
  | .setRuntimeIpcToken launch =>
    match s.launches launch with
    | .created token _ => { s.setStage launch .armed with token := some token }
    | _ => s
  | .runProcess launch result =>
    match s.launches launch, result with
    | .armed, .started => s.setStage launch .idle
    | .armed, .notRun => s.setStage launch .failing
    | .armed, .noExe => s.setStage launch .failed
    | _, _ => s
  | .endFailed launch =>
    match s.launches launch with
    | .failed => { s.setStage launch .idle with starting := false }
    | _ => s
  | .consume candidate => s.consumeRuntimeIpcTokenIfMatch candidate
  | .handshakeDone h =>
    if h ∈ s.handshakes then
      { s with
        handshakes := s.handshakes.erase h
        succeeded := s.succeeded ++ [h.consumedToken] }
    else s
  | .restore h =>
    if h ∈ s.handshakes then
      { s with handshakes := s.handshakes.erase h }.restoreRuntimeIpcTokenAfterFailedHandshake
        h.consumedToken h.consumedTokenShmemName
    else s
  | .shutdown => s.clearRuntimeShmemState
  | .resetStarting => { s with starting := false }

abbrev after (es : List Event) : Runtime := Runs.run step {} es

def Fresh : Event → Prop
  | .createShmem _ (some (token, name)) =>
    token ∉ s.made.map Prod.fst ∧ name ∉ s.made.map Prod.snd
  | _ => True

/-- The token is one-time and follows its shared memory. -/
structure TokenSafe : Prop where
  /-- A token whose handshake succeeded is not accepted again. -/
  once : ∀ token ∈ s.succeeded, s.accepts token = false
  /-- Giving a token back leaves a newer one, and the shared memory, as they are. -/
  newer : ∀ h current, s.token = some current → current ≠ h.consumedToken →
    (s.step (.restore h)).token = some current ∧ (s.step (.restore h)).shmem = s.shmem
  /-- A token that is given back is that of the current shared memory. -/
  current : ∀ h ∈ s.handshakes, (s.step (.restore h)).token = some h.consumedToken →
    ∃ name, s.name = some name ∧ (h.consumedToken, name) ∈ s.made
  /-- While no call is in progress the slot holds the token. -/
  slot : (∀ launch, s.launches launch = .idle) → ∀ token, s.token = some token →
    s.shmem = some (some token)

/-- A token is consumed only while the slot holds it, and set only while the shared memory
it was made with is the current one. -/
def InOrder : Event → Prop
  | .consume candidate => s.accepts candidate = true → s.shmem = some (some candidate)
  | .setRuntimeIpcToken launch =>
    ∀ token name, s.launches launch = .created token name → s.name = some name
  | _ => True

end Runtime

end CamelliaRemote.PortableService
