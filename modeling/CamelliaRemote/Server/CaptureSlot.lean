import CamelliaRemote.Lib.Runs
import Mathlib.Algebra.Ring.Int.Defs

/-!
The capture slot of the portable service, `src/server/portable_service.rs`. The portable service
writes a frame into the shared memory and increases a counter; the client that finds the counter
changed acknowledges it, and then reads. After the first frame the service waits for the
acknowledgement. Each access to the shared memory is a step, and a capturer is not created again.
A frame goes by its number; its bytes are not modelled.
-/

namespace CamelliaRemote.CaptureSlot
open Runs

/-- The `i32` at the writing pointer and the one at the reading pointer. -/
structure Counter where
  iw : Int
  ir : Int
  deriving DecidableEq

namespace Counter

def i32Max : Int := 2 ^ 31 - 1

/-- `counter_ready` acknowledges what it finds. -/
def counterReady (counter : Counter) : Bool × Counter :=
  if counter.ir ≠ counter.iw then (true, { counter with ir := counter.iw })
  else (false, counter)

def counterEqual (counter : Counter) : Bool := counter.iw = counter.ir

/-- Both values are read at the writing pointer. -/
def increaseCounter (counter : Counter) : Counter :=
  let iw := counter.iw
  let ir := counter.iw
  let iwPlus1 := if iw = i32Max then 0 else iw + 1
  { iw := iwPlus1, ir := if ir = iwPlus1 then iw else counter.ir }

theorem increaseCounter_ne (counter : Counter) :
    (if counter.iw = i32Max then 0 else counter.iw + 1) ≠ counter.iw := by
  unfold i32Max
  split <;> omega

@[simp] theorem increaseCounter_ir (counter : Counter) :
    counter.increaseCounter.ir = counter.ir :=
  if_neg (counter.increaseCounter_ne).symm

end Counter

structure FrameInfo where
  length : Nat := 0
  width : Nat := 0
  height : Nat := 0
  deriving DecidableEq

/-- The shared memory, and the size that the `CapturerPortable` was made with. -/
structure Config where
  shmemLen : Nat
  addrCaptureFrame : Nat
  width : Nat
  height : Nat

inductive FrameError where
  | invalidData
  | wouldBlock
  | other
  deriving DecidableEq

namespace Config
variable (c : Config)

def frameCapacity : Nat := c.shmemLen - c.addrCaptureFrame

def isValidCaptureFrameLength (frameLen : Nat) : Bool := 0 < frameLen && frameLen ≤ c.frameCapacity

/-- What `frame` makes of the info: the length of the frame that it gives out. -/
def checkInfo (info : FrameInfo) : Except FrameError Nat :=
  if !c.isValidCaptureFrameLength info.length then .error .invalidData
  else if info.width ≠ c.width ∨ info.height ≠ c.height then .error .wouldBlock
  else .ok info.length

end Config

/-- Where the loop of `run_capture` is. -/
inductive Service where
  | testing
  | capturing
  | captured (info : FrameInfo)
  | wroteInfo
  | wroteFrame
  | wroteWouldBlock
  | exited
  deriving DecidableEq

/-- A frame is captured whose bytes are not in the slot yet. -/
def Service.holds : Service → Bool
  | .captured _ | .wroteInfo => true
  | _ => false

/-- Where the client is: outside of `frame` and of the frame that it gave, past a successful
`counter_ready`, or with a frame in use. -/
inductive Client where
  | outside
  | ready
  | inUse
  deriving DecidableEq

structure State where
  counter : Counter
  /-- `ADDR_CAPTURE_FRAME_INFO`, with the number of the frame it is of. -/
  info : Nat × FrameInfo := (0, {})
  /-- The frame whose bytes were last written at `ADDR_CAPTURE_FRAME`. -/
  frame : Nat := 0
  wouldblock : Bool := true
  service : Service := .testing
  firstFrameCaptured : Bool := false
  /-- The number of frames that were captured. -/
  captured : Nat := 0
  client : Client := .outside
  /-- The frame whose bytes were in the slot at the last successful `counter_ready`. -/
  acknowledged : Nat := 0
  /-- The frames that the client has read from since then. -/
  read : List Nat := []
  /-- Whether the info, or the frame, was written since then. -/
  infoReplaced : Bool := false
  frameReplaced : Bool := false

inductive Event where
  /-- `counter_equal`, which the first frame does without. -/
  | test
  | capture (info : FrameInfo)
  | captureFailed (wouldBlock : Bool)
  | writeInfo
  | writeFrame
  | writeWouldBlock
  | increaseCounter
  /-- A call of `frame`, up to `counter_ready`. -/
  | counterReady
  | readInfo
  /-- The frame that `frame` gave is used. -/
  | useFrame
  deriving DecidableEq

namespace State
variable (c : Config) (s : State)

def test : State :=
  if s.firstFrameCaptured && !s.counter.counterEqual then s else { s with service := .capturing }

/-- A frame that does not fit ends the service. -/
def capture (info : FrameInfo) : State :=
  if info.length > c.frameCapacity then { s with service := .exited }
  else { s with service := .captured info, captured := s.captured + 1 }

def counterReady : State :=
  if s.counter.counterReady.1 then
    { s with
      counter := s.counter.counterReady.2
      client := .ready
      acknowledged := s.frame
      read := []
      infoReplaced := false
      frameReplaced := false }
  else { s with client := .outside, read := [] }

/-- What `frame` returns when the counter is not ready. -/
def notReady : FrameError := if s.wouldblock then .wouldBlock else .other

def readInfo : State :=
  { s with
    client := if (c.checkInfo s.info.2).isOk then .inUse else .outside
    read := s.read ++ [s.info.1] }

/-- A side goes on from where it is. -/
def step (e : Event) : State :=
  match e, s.service, s.client with
  | .test, .testing, _ => s.test
  | .capture info, .capturing, _ => s.capture c info
  | .captureFailed wouldBlock, .capturing, _ =>
    { s with service := .testing, wouldblock := s.wouldblock || wouldBlock }
  | .writeInfo, .captured info, _ =>
    { s with service := .wroteInfo, info := (s.captured, info), infoReplaced := true }
  | .writeFrame, .wroteInfo, _ =>
    { s with service := .wroteFrame, frame := s.captured, frameReplaced := true }
  | .writeWouldBlock, .wroteFrame, _ => { s with service := .wroteWouldBlock, wouldblock := true }
  | .increaseCounter, .wroteWouldBlock, _ =>
    { s with
      service := .testing
      counter := s.counter.increaseCounter
      firstFrameCaptured := true }
  | .counterReady, _, _ => s.counterReady
  | .readInfo, _, .ready => s.readInfo c
  | .useFrame, _, .inUse => { s with read := s.read ++ [s.frame] }
  | _, _, _ => s

/-- Both counters have the value `count`. -/
def start (count : Int) : State := { counter := ⟨count, count⟩ }

abbrev after (count : Int) (events : List Event) : State := Runs.run (step c) (start count) events

/-- What the client has read since `counter_ready` belongs to one frame. -/
def OneFrame : Prop := ∀ a ∈ s.read, ∀ b ∈ s.read, a = b

/-- What the client reads belongs to the frame that it has acknowledged. -/
def ReadsAcknowledged : Event → Prop
  | .readInfo => s.client = .ready → s.info.1 = s.acknowledged
  | .useFrame => s.client = .inUse → s.frame = s.acknowledged
  | _ => True

/-- The client reads the info before the service writes another one, and uses the frame
before the service writes another one. -/
def InTime : Event → Prop
  | .readInfo => s.client = .ready → s.infoReplaced = false
  | .useFrame => s.client = .inUse → s.frameReplaced = false
  | _ => True

instance : ∀ e, Decidable (s.InTime e)
  | .readInfo => inferInstanceAs (Decidable (s.client = .ready → s.infoReplaced = false))
  | .useFrame => inferInstanceAs (Decidable (s.client = .inUse → s.frameReplaced = false))
  | .test | .capture _ | .captureFailed _ | .writeInfo | .writeFrame | .writeWouldBlock
  | .increaseCounter | .counterReady => .isTrue trivial

/-- The service writes into a slot that was acknowledged, and what was not replaced is of
the frame that was. -/
structure Inv : Prop where
  first : s.firstFrameCaptured = false → s.counter.iw = s.counter.ir
  equal : s.service ≠ .testing → s.counter.iw = s.counter.ir
  whole : s.service ≠ .wroteInfo → s.info.1 = s.frame
  halfway : s.service = .wroteInfo → s.info.1 = s.captured
  placed : s.frame ≤ s.captured
  held : s.service.holds = true → s.frame < s.captured
  acknowledged : s.acknowledged ≤ s.frame
  infoKept : s.infoReplaced = false → s.client ≠ .outside → s.info.1 = s.acknowledged
  frameKept : s.frameReplaced = false → s.client ≠ .outside → s.frame = s.acknowledged
  infoReplaced : s.infoReplaced = true → s.acknowledged < s.info.1
  frameReplaced : s.frameReplaced = true → s.acknowledged < s.frame

variable {c s}

theorem inv_start (count : Int) : Inv (start count) := by
  constructor <;> simp [start, Service.holds]

theorem Inv.test (inv : Inv s) (here : s.service = .testing) : Inv s.test := by
  unfold State.test
  split
  · exact inv
  · rename_i goes
    refine { inv with
      equal := fun _ => ?_
      whole := fun _ => inv.whole (by simp [here])
      halfway := fun h => by cases h
      held := fun h => by cases h }
    cases captured : s.firstFrameCaptured with
    | false => exact inv.first captured
    | true => simpa [captured, Counter.counterEqual] using goes

theorem Inv.capture (inv : Inv s) (here : s.service = .capturing) (info : FrameInfo) :
    Inv (s.capture c info) := by
  have equal := inv.equal (by simp [here])
  have whole := inv.whole (by simp [here])
  unfold State.capture
  split
  · exact { inv with
      equal := fun _ => equal
      whole := fun _ => whole
      halfway := fun h => by cases h
      held := fun h => by cases h }
  · exact { inv with
      equal := fun _ => equal
      whole := fun _ => whole
      halfway := fun h => by cases h
      placed := Nat.le_succ_of_le inv.placed
      held := fun _ => Nat.lt_succ_of_le inv.placed }

theorem Inv.captureFailed (inv : Inv s) (here : s.service = .capturing) (wouldblock : Bool) :
    Inv { s with service := .testing, wouldblock } :=
  { inv with
    equal := fun h => absurd rfl h
    whole := fun _ => inv.whole (by simp [here])
    halfway := fun h => by cases h
    held := fun h => by cases h }

theorem Inv.writeInfo (inv : Inv s) {info : FrameInfo} (here : s.service = .captured info) :
    Inv { s with service := .wroteInfo, info := (s.captured, info), infoReplaced := true } := by
  have held := inv.held (by simp [here, Service.holds])
  exact { inv with
    equal := fun _ => inv.equal (by simp [here])
    whole := fun h => absurd rfl h
    halfway := fun _ => rfl
    held := fun _ => held
    infoKept := fun h => by cases h
    infoReplaced := fun _ => Nat.lt_of_le_of_lt inv.acknowledged held }

theorem Inv.writeFrame (inv : Inv s) (here : s.service = .wroteInfo) :
    Inv { s with service := .wroteFrame, frame := s.captured, frameReplaced := true } := by
  have held := inv.held (by simp [here, Service.holds])
  have newer := Nat.lt_of_le_of_lt inv.acknowledged held
  exact { inv with
    equal := fun _ => inv.equal (by simp [here])
    whole := fun _ => inv.halfway here
    halfway := fun h => by cases h
    placed := Nat.le_refl _
    held := fun h => by cases h
    acknowledged := Nat.le_of_lt newer
    frameKept := fun h => by cases h
    frameReplaced := fun _ => newer }

theorem Inv.writeWouldBlock (inv : Inv s) (here : s.service = .wroteFrame) :
    Inv { s with service := .wroteWouldBlock, wouldblock := true } :=
  { inv with
    equal := fun _ => inv.equal (by simp [here])
    whole := fun _ => inv.whole (by simp [here])
    halfway := fun h => by cases h
    held := fun h => by cases h }

theorem Inv.increaseCounter (inv : Inv s) (here : s.service = .wroteWouldBlock) :
    Inv { s with
      service := .testing
      counter := s.counter.increaseCounter
      firstFrameCaptured := true } :=
  { inv with
    first := fun h => by cases h
    equal := fun h => absurd rfl h
    whole := fun _ => inv.whole (by simp [here])
    halfway := fun h => by cases h
    held := fun h => by cases h }

/-- The slot is whole when the counter is ready. -/
theorem Inv.counterReady (inv : Inv s) : Inv s.counterReady := by
  unfold State.counterReady Counter.counterReady
  by_cases ready : s.counter.ir ≠ s.counter.iw
  · have testing : s.service = .testing :=
      Classical.byContradiction fun busy => ready (inv.equal busy).symm
    rw [if_pos ready]
    exact { inv with
      first := fun _ => rfl
      equal := fun _ => rfl
      acknowledged := Nat.le_refl _
      infoKept := fun _ _ => inv.whole (by simp [testing])
      frameKept := fun _ _ => rfl
      infoReplaced := fun h => by cases h
      frameReplaced := fun h => by cases h }
  · rw [if_neg ready]
    exact { inv with
      infoKept := fun _ h => absurd rfl h
      frameKept := fun _ h => absurd rfl h }

theorem Inv.readInfo (inv : Inv s) (here : s.client = .ready) : Inv (s.readInfo c) :=
  { inv with
    infoKept := fun kept _ => inv.infoKept kept (by simp [here])
    frameKept := fun kept _ => inv.frameKept kept (by simp [here]) }

theorem Inv.useFrame (inv : Inv s) : Inv { s with read := s.read ++ [s.frame] } := { inv with }

/-- **Every step keeps the invariant.** -/
theorem Inv.step (inv : Inv s) (e : Event) : Inv (s.step c e) := by
  unfold State.step
  split
  case h_1 here => exact inv.test here
  case h_2 here => exact inv.capture here _
  case h_3 here => exact inv.captureFailed here _
  case h_4 here => exact inv.writeInfo here
  case h_5 here => exact inv.writeFrame here
  case h_6 here => exact inv.writeWouldBlock here
  case h_7 here => exact inv.increaseCounter here
  case h_8 => exact inv.counterReady
  case h_9 here => exact inv.readInfo here
  case h_10 => exact inv.useFrame
  case h_11 => exact inv

/-- A read gives the frame that was acknowledged exactly if that was not replaced. -/
theorem Inv.readsAcknowledged_iff (inv : Inv s) (e : Event) :
    s.ReadsAcknowledged e ↔ s.InTime e := by
  cases e with
  | readInfo =>
    refine forall_congr' fun ready => ?_
    cases replaced : s.infoReplaced with
    | false => simpa using inv.infoKept replaced (by simp [ready])
    | true => simpa using Nat.ne_of_gt (inv.infoReplaced replaced)
  | useFrame =>
    refine forall_congr' fun using' => ?_
    cases replaced : s.frameReplaced with
    | false => simpa using inv.frameKept replaced (by simp [using'])
    | true => simpa using Nat.ne_of_gt (inv.frameReplaced replaced)
  | _ => rfl

theorem run_inv (count : Int) (events : List Event) : Inv (after c count events) := by
  have anything : Runs.Along (step c) (fun _ _ => True) (start count) events :=
    Runs.along_true _ _
  exact Runs.invariant (fun _ e inv _ => inv.step e) (inv_start count) anything

/-- **Every read is of the frame that was acknowledged** exactly in the runs that read in
time. -/
theorem acknowledged_iff (count : Int) (events : List Event) :
    Runs.Along (step c) ReadsAcknowledged (start count) events ↔
      Runs.Along (step c) InTime (start count) events := by
  induction events using List.reverseRecOn with
  | nil => exact Iff.rfl
  | append_singleton events e ih =>
    rw [Runs.along_snoc, Runs.along_snoc, ih]
    exact and_congr_right fun _ => (run_inv count events).readsAcknowledged_iff e

theorem read_step {e : Event} (reads : s.ReadsAcknowledged e)
    (same : ∀ a ∈ s.read, a = s.acknowledged) :
    ∀ a ∈ (s.step c e).read, a = (s.step c e).acknowledged := by
  have added {frame : Nat} (own : frame = s.acknowledged) :
      ∀ a ∈ s.read ++ [frame], a = s.acknowledged := by
    intro a mem
    rcases List.mem_append.mp mem with old | new
    · exact same a old
    · rw [List.mem_singleton.mp new, own]
  unfold State.step
  split
  case h_1 => unfold State.test; split <;> exact same
  case h_2 => unfold State.capture; split <;> exact same
  case h_8 =>
    unfold State.counterReady
    split <;> exact fun a mem => by cases mem
  case h_9 here => exact added (reads here)
  case h_10 here => exact added (reads here)
  all_goals exact same

/-- **What the client uses after one `counter_ready` belongs to one frame**, in every run
that reads in time. -/
theorem one_frame {count : Int} {events : List Event}
    (inTime : Runs.Along (step c) InTime (start count) events) :
    OneFrame (after c count events) := by
  have same : ∀ a ∈ (after c count events).read, a = (after c count events).acknowledged :=
    Runs.invariant (I := fun s => ∀ a ∈ s.read, a = s.acknowledged)
      (fun _ _ same reads => read_step reads same) (fun a mem => by cases mem)
      ((acknowledged_iff count events).mpr inTime)
  exact fun a ha b hb => (same a ha).trans (same b hb).symm

/-- A frame of two by two pixels goes into the slot. -/
def published : List Event :=
  [.test, .capture ⟨16, 2, 2⟩, .writeInfo, .writeFrame, .writeWouldBlock, .increaseCounter]

/-- The service writes the info of the next frame after the acknowledgement. -/
def replaced : List Event :=
  published ++
    [Event.counterReady, .test, .capture ⟨16, 2, 2⟩, .writeInfo, .readInfo, .useFrame]

def smallConfig : Config := { shmemLen := 64, addrCaptureFrame := 48, width := 2, height := 2 }

theorem two_frames :
    ¬ ∀ (c : Config) (count : Int) (events : List Event), OneFrame (after c count events) := by
  intro all
  exact absurd (all smallConfig 0 replaced 2 (by decide) 1 (by decide)) (by decide)

/-- The next frame is captured while the first is in use, and published and read after it. -/
def twice : List Event :=
  published ++
    [Event.counterReady, .readInfo, .test, .capture ⟨16, 2, 2⟩, .useFrame, .writeInfo, .writeFrame,
      .writeWouldBlock, .increaseCounter, .counterReady, .readInfo, .useFrame]

theorem published_one_frame :
    (after smallConfig 0 twice).read = [2, 2] ∧ OneFrame (after smallConfig 0 twice) :=
  ⟨by decide, one_frame (by decide)⟩

end State
end CamelliaRemote.CaptureSlot
