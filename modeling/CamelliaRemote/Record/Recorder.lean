import CamelliaRemote.Lib.Runs
import CamelliaRemote.Lib.UnixPath
import CamelliaRemote.Video.Encoder

/-!
The recorder, `libs/scrap/src/common/record.rs`. A frame comes with what the outside gives: the
clock in nanoseconds, how the making of a directory and of a file ends, and whether the muxer
takes the frame. A file keeps what its muxer was handed and how its group of messages went on.
-/

namespace CamelliaRemote.Record
open Video (CodecFormat)

def minSecs : Nat := 1

/-- `char::is_control`. -/
def isControl (c : Char) : Bool := c.toNat < 32 || 127 ≤ c.toNat && c.toNat < 160

def sanitizeFilenameComponent (value : String) : String :=
  value.map fun c =>
    if isControl c || c ∈ ['<', '>', ':', '"', '/', '\\', '|', '?', '*'] then '_' else c

/-- `tx` is whether there is a receiver, `hwcodec` the feature. -/
structure RecorderContext where
  server : Bool
  id : String
  dir : String
  displayIdx : Nat
  camera : Bool
  tx : Bool
  hwcodec : Bool
  deriving DecidableEq

structure RecorderContext2 where
  filename : String
  width : Nat
  height : Nat
  format : CodecFormat
  deriving DecidableEq

/-- `to_string` and `to_lowercase`. -/
def formatText : CodecFormat → String
  | .vp8 => "vp8"
  | .vp9 => "vp9"
  | .av1 => "av1"
  | .h264 => "h264"
  | .h265 => "h265"
  | .unknown => "unknown"

def isWebm (format : CodecFormat) : Bool := format = .vp9 || format = .vp8 || format = .av1

/-- What `set_filename` gives at a time. -/
def filename (ctx : RecorderContext) (stamp : String) (format : CodecFormat) : String :=
  let file := (if ctx.server then "incoming" else "outgoing") ++ "_" ++
    sanitizeFilenameComponent ctx.id ++ stamp ++
    (if ctx.camera then "camera" else "display") ++ s!"{ctx.displayIdx}_" ++ formatText format ++
    if isWebm format then ".webm" else ".mp4"
  String.ofList (UnixPath.join ctx.dir.toList file.toList)

structure EncodedVideoFrame where
  data : List UInt8
  key : Bool
  pts : Int
  deriving DecidableEq

inductive RecordState where
  | newFile (filename : String)
  | newFrame
  | writeTail
  | removeFile
  deriving DecidableEq

/-- What a check meets. -/
structure Env where
  now : Nat
  stamp : String
  dirMade : Except String Unit
  created : Except String Unit

/-- A frame of a message, with the answer of the muxer. -/
structure Seen where
  frame : EncodedVideoFrame
  env : Env
  taken : Bool

inductive FrameUnion where
  | vp8s (frames : List Seen)
  | vp9s (frames : List Seen)
  | av1s (frames : List Seen)
  | h264s (frames : List Seen)
  | h265s (frames : List Seen)
  | other

def FrameUnion.format : FrameUnion → CodecFormat
  | .vp8s _ => .vp8
  | .vp9s _ => .vp9
  | .av1s _ => .av1
  | .h264s _ => .h264
  | .h265s _ => .h265
  | .other => .unknown

/-- A call of `write_frame`. -/
structure Call where
  frame : FrameUnion
  w : Nat
  h : Nat
  env : Env

/-- What a muxer was handed, with the call that it came from. -/
structure Handed where
  frame : EncodedVideoFrame
  w : Nat
  h : Nat
  format : CodecFormat
  taken : Bool
  deriving DecidableEq

/-- The time that the muxer of a webm file is given, `pts as u64 * 1_000_000`. -/
def Handed.timestamp (x : Handed) : Nat := (x.frame.pts % 2 ^ 64).toNat * 1000000 % 2 ^ 64

/-- `WebmRecorder` or `HwRecorder`. -/
structure Inner where
  ctx2 : RecorderContext2
  key : Bool := false
  written : Bool := false
  start : Nat
  handed : List Handed := []
  newFrames : Nat := 0

/-- A file whose recorder has been dropped. -/
structure RecordingFile where
  ctx2 : RecorderContext2
  handed : List Handed
  newFrames : Nat
  tail : RecordState

/-- The message of `drop`. -/
def Inner.tail (i : Inner) (now : Nat) : RecordState :=
  if !i.written || (now - i.start) / 10 ^ 9 < minSecs then .removeFile else .writeTail

/-- `write_video` of the two recorders. -/
def Inner.writeVideo (i : Inner) (x : Seen) (w h : Nat) (format : CodecFormat) : Inner :=
  let i := if x.frame.key then { i with key := true } else i
  if i.key then
    { i with
      handed := i.handed ++ [⟨x.frame, w, h, format, x.taken⟩]
      written := i.written || x.taken }
  else i

structure Recorder where
  ctx : RecorderContext
  inner : Option Inner := none
  ctx2 : Option RecorderContext2 := none
  pts : Option Int := none
  checkFailed : Bool := false
  sent : List RecordState := []
  closed : List RecordingFile := []

namespace Recorder

variable (r : Recorder)

def sendState (state : RecordState) : Recorder :=
  if r.ctx.tx then { r with sent := r.sent ++ [state] } else r

/-- `inner = None`. -/
def dropInner (now : Nat) : Recorder :=
  match r.inner with
  | some i =>
    let file : RecordingFile := ⟨i.ctx2, i.handed, i.newFrames, i.tail now⟩
    sendState { r with inner := none, closed := r.closed ++ [file] } (i.tail now)
  | none => r

/-- What `check` does for a file of its own. -/
def renew (env : Env) (w h : Nat) (format : CodecFormat) : Recorder × Option String :=
  match env.dirMade with
  | .error e => (r, some e)
  | .ok () =>
    let ctx2 : RecorderContext2 := ⟨filename r.ctx env.stamp format, w, h, format⟩
    (dropInner { r with ctx2 := some ctx2 } env.now, none)

def create (env : Env) (ctx2 : RecorderContext2) (format : CodecFormat) :
    Recorder × Option String :=
  match r.inner with
  | some _ => (r, none)
  | none =>
    if isWebm format || r.ctx.hwcodec then
      match env.created with
      | .error e => (r, some e)
      | .ok () =>
        let i : Inner := { ctx2, start := env.now }
        (sendState { r with inner := some i, pts := none } (.newFile ctx2.filename), none)
    else (r, some "unsupported codec type")

def check (env : Env) (w h : Nat) (format : CodecFormat) : Recorder × Option String :=
  let renewed :=
    match r.ctx2 with
    | some ctx2 =>
      if ctx2.width ≠ w ∨ ctx2.height ≠ h ∨ ctx2.format ≠ format then r.renew env w h format
      else (r, none)
    | none => r.renew env w h format
  match renewed with
  | (r, some e) => (r, some e)
  | (r, none) =>
    match r.ctx2 with
    | some ctx2 => r.create env ctx2 format
    | none => (r, some "ctx2 is None")

/-- A check that fails is the last one. -/
def failed (e : String) : Recorder × Option String := ({ r with checkFailed := true }, some e)

def checkPts (env : Env) (pts : Int) (key : Bool) (w h : Nat) (format : CodecFormat) :
    Recorder × Option String :=
  if r.pts.isNone && !key then (r, some "first frame is not key frame")
  else
    let oldPts := r.pts
    let r := { r with pts := some pts }
    if pts < oldPts.getD 0 then
      let r := { r.dropInner env.now with ctx2 := none }
      match r.check env w h format with
      | (r, some e) => r.failed e
      | (r, none) => ({ r with pts := some pts }, none)
    else (r, none)

def writeFrames (w h : Nat) (format : CodecFormat) :
    Recorder → List Seen → Recorder × Option String
  | r, [] => (r, none)
  | r, x :: frames =>
    match r.checkPts x.env x.frame.pts x.frame.key w h format with
    | (r, some e) => (r, some e)
    | (r, none) =>
      writeFrames w h format
        { r with inner := r.inner.map fun i => i.writeVideo x w h format } frames

/-- The message of a frame that is through. -/
def newFrame : Recorder :=
  sendState { r with inner := r.inner.map fun i => { i with newFrames := i.newFrames + 1 } }
    .newFrame

def writeAll (frames : List Seen) (w h : Nat) (format : CodecFormat) : Recorder × Option String :=
  match writeFrames w h format r frames with
  | (r, some e) => (r, some e)
  | (r, none) => (r.newFrame, none)

def writeFrame (call : Call) : Recorder × Option String :=
  if r.checkFailed then (r, some "check failed")
  else
    let format := call.frame.format
    if format = .unknown then (r, some "unsupported frame type")
    else
      match r.check call.env call.w call.h format with
      | (r, some e) => r.failed e
      | (r, none) =>
        match call.frame with
        | .vp8s frames => r.writeAll frames call.w call.h format
        | .vp9s frames => r.writeAll frames call.w call.h format
        | .av1s frames => r.writeAll frames call.w call.h format
        | .h264s frames =>
          if r.ctx.hwcodec then r.writeAll frames call.w call.h format
          else (r, some "unsupported frame type")
        | .h265s frames =>
          if r.ctx.hwcodec then r.writeAll frames call.w call.h format
          else (r, some "unsupported frame type")
        | .other => (r, some "unsupported frame type")

def step (call : Call) : Recorder := (r.writeFrame call).1

def new (ctx : RecorderContext) : Recorder := { ctx }

def after (ctx : RecorderContext) (calls : List Call) : Recorder := Runs.run step (new ctx) calls

end Recorder

/-- What the muxer of a file of this size and format was handed. -/
structure Playable (ctx2 : RecorderContext2) (handed : List Handed) : Prop where
  same : ∀ x ∈ handed, x.w = ctx2.width ∧ x.h = ctx2.height ∧ x.format = ctx2.format
  first : ∀ x, handed.head? = some x → x.frame.key
  ordered : handed.Pairwise fun x y => x.frame.pts ≤ y.frame.pts

/-- What is asked of a file, and of its muxer: that it takes what it is handed first. -/
structure Recorded (f : RecordingFile) : Prop extends Playable f.ctx2 f.handed where
  times : f.handed.Pairwise fun x y => 0 ≤ x.frame.pts → y.frame.pts ≤ 10 ^ 13 →
    x.timestamp ≤ y.timestamp
  firstTaken : (∀ x, f.handed.head? = some x → x.taken) →
    ∀ x, (f.handed.filter Handed.taken).head? = some x → x.frame.key
  tail : f.tail = .writeTail ∨ f.tail = .removeFile

/-- The messages of a file, from its beginning. -/
def Inner.group (i : Inner) : List RecordState :=
  .newFile i.ctx2.filename :: List.replicate i.newFrames .newFrame

def RecordingFile.group (f : RecordingFile) : List RecordState :=
  .newFile f.ctx2.filename :: List.replicate f.newFrames .newFrame ++ [f.tail]

structure Sound (r : Recorder) : Prop where
  closed : ∀ f ∈ r.closed, Playable f.ctx2 f.handed ∧ (f.tail = .writeTail ∨ f.tail = .removeFile)
  current : ∀ i, r.inner = some i → Playable i.ctx2 i.handed ∧ r.ctx2 = some i.ctx2 ∧
    (i.key → i.handed ≠ []) ∧ ∀ x ∈ i.handed, ∃ p, r.pts = some p ∧ x.frame.pts ≤ p
  messages : r.sent = if r.ctx.tx then
    r.closed.flatMap RecordingFile.group ++ (r.inner.elim [] Inner.group) else []

/-- There is a file for frames of this size and format. -/
def Ready (r : Recorder) (w h : Nat) (format : CodecFormat) : Prop :=
  ∃ i, r.inner = some i ∧ i.ctx2.width = w ∧ i.ctx2.height = h ∧ i.ctx2.format = format

namespace Recorder

variable {r : Recorder} {env : Env} {w h now : Nat} {format : CodecFormat} {pts : Int} {key : Bool}
  {e : String}

theorem sent_sendState {state : RecordState} :
    (r.sendState state).sent = if r.ctx.tx then r.sent ++ [state] else r.sent := by
  unfold sendState
  split <;> rfl

theorem sendState_rest {state : RecordState} : (r.sendState state).ctx = r.ctx ∧
    (r.sendState state).inner = r.inner ∧ (r.sendState state).ctx2 = r.ctx2 ∧
      (r.sendState state).pts = r.pts ∧ (r.sendState state).closed = r.closed := by
  unfold sendState
  split <;> exact ⟨rfl, rfl, rfl, rfl, rfl⟩

/-- Without a file nothing else is bound. -/
theorem sound_of_none (sound : Sound r) (none' : r.inner = none) {ctx2 : Option RecorderContext2}
    {pts : Option Int} {checkFailed : Bool} :
    Sound { r with ctx2 := ctx2, pts := pts, checkFailed := checkFailed } := by
  refine ⟨sound.closed, fun i is => ?_, sound.messages⟩
  rw [show r.inner = some i from is] at none'
  cases none'

theorem sound_failed (sound : Sound r) : Sound (r.failed e).1 :=
  ⟨sound.closed, sound.current, sound.messages⟩

theorem inner_dropInner : (r.dropInner now).inner = none := by
  unfold dropInner
  split
  · rw [sendState_rest.2.1]
  · assumption

theorem dropInner_ctx2 {ctx2 : Option RecorderContext2} :
    dropInner { r with ctx2 := ctx2 } now = { r.dropInner now with ctx2 := ctx2 } := by
  unfold dropInner sendState
  dsimp only
  split
  · split <;> rfl
  · rfl

theorem dropInner_pts {pts : Option Int} :
    dropInner { r with pts := pts } now = { r.dropInner now with pts := pts } := by
  unfold dropInner sendState
  dsimp only
  split
  · split <;> rfl
  · rfl

theorem sound_dropInner (sound : Sound r) : Sound (r.dropInner now) := by
  unfold dropInner
  split
  · rename_i i is
    obtain ⟨playable, -, -, -⟩ := sound.current i is
    constructor
    · intro f mem
      rw [sendState_rest.2.2.2.2] at mem
      obtain old | new := List.mem_append.mp mem
      · exact sound.closed f old
      · obtain rfl := List.mem_singleton.mp new
        refine ⟨playable, ?_⟩
        unfold Inner.tail
        split
        · exact .inr rfl
        · exact .inl rfl
    · intro j js
      rw [sendState_rest.2.1] at js
      cases js
    · have messages := sound.messages
      rw [is] at messages
      rw [sent_sendState, sendState_rest.1, sendState_rest.2.1, sendState_rest.2.2.2.2, messages]
      split <;> simp [RecordingFile.group, Inner.group]
  · exact sound

/-- There is a context for frames of this size and format. -/
def Fits (r : Recorder) (w h : Nat) (format : CodecFormat) : Prop :=
  ∃ ctx2, r.ctx2 = some ctx2 ∧ ctx2.width = w ∧ ctx2.height = h ∧ ctx2.format = format

/-- The file there is has no frames. -/
def Fresh (r : Recorder) : Prop := ∀ i, r.inner = some i → i.handed = []

/-- What `check` gives: a file if there is no error, and a new one if there was none. -/
structure Checked (r : Recorder) (w h : Nat) (format : CodecFormat)
    (made : Recorder × Option String) : Prop where
  sound : Sound made.1
  ready : made.2 = none → Ready made.1 w h format
  fresh : r.inner = none → made.1.Fresh

theorem fresh_of_none (none' : r.inner = none) : r.Fresh := by
  intro i is
  rw [is] at none'
  cases none'

theorem create_checked (sound : Sound r) (fits : r.Fits w h format) {ctx2 : RecorderContext2}
    (is : r.ctx2 = some ctx2) : Checked r w h format (r.create env ctx2 format) := by
  obtain ⟨same, found, shape⟩ := fits
  obtain rfl : ctx2 = same := Option.some.inj (is.symm.trans found)
  unfold create
  split
  · rename_i i there
    obtain ⟨-, its, -⟩ := sound.current i there
    obtain rfl : ctx2 = i.ctx2 := Option.some.inj (is.symm.trans its)
    exact ⟨sound, fun _ => ⟨i, there, shape⟩, fresh_of_none⟩
  rename_i absent
  split
  · split
    · exact ⟨sound, nofun, fresh_of_none⟩
    refine ⟨⟨fun f mem => ?_, fun i its => ?_, ?_⟩, fun _ => ⟨_, sendState_rest.2.1, shape⟩,
      fun _ i its => ?_⟩
    · rw [sendState_rest.2.2.2.2] at mem
      exact sound.closed f mem
    · rw [sendState_rest.2.1] at its
      obtain rfl := Option.some.inj its
      rw [sendState_rest.2.2.1, sendState_rest.2.2.2.1]
      refine ⟨⟨?_, ?_, List.Pairwise.nil⟩, is, ?_, ?_⟩ <;> simp
    · have messages := sound.messages
      rw [absent] at messages
      rw [sent_sendState, sendState_rest.1, sendState_rest.2.1, sendState_rest.2.2.2.2, messages]
      split <;> simp [Inner.group]
    · rw [sendState_rest.2.1] at its
      obtain rfl := Option.some.inj its
      rfl
  · exact ⟨sound, nofun, fresh_of_none⟩

theorem renew_spec (sound : Sound r) : Sound (r.renew env w h format).1 ∧
    (r.inner = none → (r.renew env w h format).1.inner = none) ∧
    ((r.renew env w h format).2 = none → (r.renew env w h format).1.Fits w h format) := by
  unfold renew
  split
  · exact ⟨sound, id, nofun⟩
  · dsimp only
    rw [dropInner_ctx2]
    exact ⟨sound_of_none (sound_dropInner sound) inner_dropInner, fun _ => inner_dropInner,
      fun _ => ⟨_, rfl, rfl, rfl, rfl⟩⟩

/-- What a check does with the recorder that it has made fit. -/
theorem fitted_cases (made : Recorder × Option String) (env : Env) (format : CodecFormat)
    {result : Recorder × Option String} :
    (match made with
      | (r, some e) => (r, some e)
      | (r, none) =>
        match r.ctx2 with
        | some ctx2 => r.create env ctx2 format
        | none => (r, some "ctx2 is None")) = result →
      (∃ e, made.2 = some e ∧ result = made) ∨
        made.2 = none ∧
          ((∃ ctx2, made.1.ctx2 = some ctx2 ∧ result = made.1.create env ctx2 format) ∨
            made.1.ctx2 = none ∧ result = (made.1, some "ctx2 is None")) := by
  rintro rfl
  obtain ⟨made, error⟩ := made
  cases error with
  | some e => exact .inl ⟨e, rfl, rfl⟩
  | none =>
    refine .inr ⟨rfl, ?_⟩
    cases is : made.ctx2 with
    | some ctx2 => exact .inl ⟨ctx2, rfl, by simp only [is]⟩
    | none => exact .inr ⟨rfl, by simp only [is]⟩

/-- A check renews a recorder that does not fit, and then makes its file. -/
theorem check_cases (r : Recorder) (env : Env) (w h : Nat) (format : CodecFormat) :
    ∃ made : Recorder × Option String,
      (made = r.renew env w h format ∨ made = (r, none) ∧ r.Fits w h format) ∧
        ((∃ e, made.2 = some e ∧ r.check env w h format = made) ∨
          made.2 = none ∧
            ((∃ ctx2, made.1.ctx2 = some ctx2 ∧
                r.check env w h format = made.1.create env ctx2 format) ∨
              made.1.ctx2 = none ∧
                r.check env w h format = (made.1, some "ctx2 is None"))) := by
  refine ⟨_, ?_, fitted_cases _ env format rfl⟩
  split
  · rename_i ctx2 is
    split
    · exact .inl rfl
    · rename_i same
      exact .inr ⟨rfl, ctx2, is, by tauto⟩
  · exact .inl rfl

theorem check_checked (sound : Sound r) : Checked r w h format (r.check env w h format) := by
  obtain ⟨made, renewed, ended⟩ := r.check_cases env w h format
  obtain ⟨sound, kept, fits⟩ : Sound made.1 ∧ (r.inner = none → made.1.inner = none) ∧
      (made.2 = none → made.1.Fits w h format) := by
    rcases renewed with rfl | ⟨rfl, fits⟩
    · exact renew_spec sound
    · exact ⟨sound, id, fun _ => fits⟩
  rcases ended with ⟨e, failed, eq⟩ | ⟨done, ⟨ctx2, is, eq⟩ | ⟨absent, -⟩⟩
  · rw [eq]
    exact ⟨sound, by simp [failed], fun absent => fresh_of_none (kept absent)⟩
  · rw [eq]
    have created : Checked made.1 w h format (made.1.create env ctx2 format) :=
      create_checked sound (fits done) is
    exact ⟨created.sound, created.ready, fun absent => created.fresh (kept absent)⟩
  · obtain ⟨ctx2, is, -⟩ := fits done
    rw [absent] at is
    cases is

/-- The file that the next frame goes to, and that it is not before any frame there. -/
theorem checkPts_spec (sound : Sound r) (ready : Ready r w h format) :
    Sound (r.checkPts env pts key w h format).1 ∧
      ((r.checkPts env pts key w h format).2 = none →
        Ready (r.checkPts env pts key w h format).1 w h format ∧
          (r.checkPts env pts key w h format).1.pts = some pts) := by
  unfold checkPts
  split
  · exact ⟨sound, nofun⟩
  dsimp only
  split
  · have dropped : Sound { dropInner { r with pts := some pts } env.now with ctx2 := none } := by
      rw [dropInner_pts]
      exact sound_of_none (sound_dropInner sound) inner_dropInner
    have checked : Checked _ w h format (check _ env w h format) := check_checked dropped
    have fresh := checked.fresh inner_dropInner
    generalize check _ env w h format = made at checked fresh
    obtain ⟨made, error⟩ := made
    cases error with
    | some e => exact ⟨sound_failed checked.sound, nofun⟩
    | none =>
      refine ⟨⟨checked.sound.closed, fun i is => ?_, checked.sound.messages⟩, fun _ =>
        ⟨checked.ready rfl, rfl⟩⟩
      obtain ⟨playable, its, key, -⟩ := checked.sound.current i is
      refine ⟨playable, its, key, fun x mem => ?_⟩
      rw [fresh i is] at mem
      cases mem
  · rename_i later
    refine ⟨⟨sound.closed, fun i is => ?_, sound.messages⟩, fun _ => ⟨ready, rfl⟩⟩
    obtain ⟨playable, its, key, before⟩ := sound.current i is
    refine ⟨playable, its, key, fun x mem => ?_⟩
    obtain ⟨p, old, le⟩ := before x mem
    rw [old, Option.getD_some] at later
    exact ⟨pts, rfl, by omega⟩

theorem writeVideo_shape {i : Inner} {x : Seen} : (i.writeVideo x w h format).ctx2 = i.ctx2 ∧
    (i.writeVideo x w h format).newFrames = i.newFrames := by
  unfold Inner.writeVideo
  dsimp only
  split <;> split <;> exact ⟨rfl, rfl⟩

theorem playable_writeVideo {i : Inner} {x : Seen} (playable : Playable i.ctx2 i.handed)
    (begun : i.key → i.handed ≠ []) (width : i.ctx2.width = w) (height : i.ctx2.height = h)
    (sort : i.ctx2.format = format) (before : ∀ y ∈ i.handed, y.frame.pts ≤ x.frame.pts) :
    Playable i.ctx2 (i.writeVideo x w h format).handed ∧
      ((i.writeVideo x w h format).key → (i.writeVideo x w h format).handed ≠ []) ∧
      ∀ y ∈ (i.writeVideo x w h format).handed, y.frame.pts ≤ x.frame.pts := by
  have handed : (i.key ∨ x.frame.key) → Playable i.ctx2
      (i.handed ++ [⟨x.frame, w, h, format, x.taken⟩]) := by
    intro key
    constructor
    · intro y mem
      obtain old | new := List.mem_append.mp mem
      · exact playable.same y old
      · obtain rfl := List.mem_singleton.mp new
        exact ⟨width.symm, height.symm, sort.symm⟩
    · intro y head
      cases first : i.handed with
      | nil =>
        rw [first] at head begun
        obtain rfl := Option.some.inj head
        exact key.resolve_left fun its => begun its rfl
      | cons z rest =>
        rw [first] at head
        exact playable.first y (by rw [first]; exact head)
    · rw [List.pairwise_append]
      refine ⟨playable.ordered, List.pairwise_singleton _ _, fun y mem z new => ?_⟩
      obtain rfl := List.mem_singleton.mp new
      exact before y mem
  unfold Inner.writeVideo
  by_cases key : i.key ∨ x.frame.key
  · have on : (if x.frame.key then { i with key := true } else i).key = true ∧
        (if x.frame.key then { i with key := true } else i).handed = i.handed := by
      split
      · exact ⟨rfl, rfl⟩
      · rename_i plain
        exact ⟨key.resolve_right plain, rfl⟩
    simp only [on.1, on.2, if_true]
    refine ⟨handed key, fun _ => List.append_ne_nil_of_right_ne_nil _ (List.cons_ne_nil _ _), ?_⟩
    intro y mem
    obtain old | new := List.mem_append.mp mem
    · exact before y old
    · obtain rfl := List.mem_singleton.mp new
      exact Int.le_refl _
  · obtain ⟨off, plain⟩ := not_or.mp key
    simp only [if_neg plain, if_neg off]
    exact ⟨playable, fun on => absurd on off, before⟩

/-- A file begins with a key frame, since nothing is handed on before one has come. -/
theorem sound_writeVideo (sound : Sound r) (ready : Ready r w h format) {x : Seen}
    (is : r.pts = some x.frame.pts) :
    Sound { r with inner := r.inner.map fun i => i.writeVideo x w h format } ∧
      Ready { r with inner := r.inner.map fun i => i.writeVideo x w h format } w h format := by
  obtain ⟨i, there, width, height, sort⟩ := ready
  obtain ⟨playable, its, begun, before⟩ := sound.current i there
  have messages := sound.messages
  have earlier : ∀ y ∈ i.handed, y.frame.pts ≤ x.frame.pts := by
    intro y mem
    obtain ⟨p, same, le⟩ := before y mem
    obtain rfl : p = x.frame.pts := Option.some.inj (same.symm.trans is)
    exact le
  obtain ⟨playable, begun, after⟩ :=
    playable_writeVideo playable begun width height sort earlier
  rw [there]
  refine ⟨⟨sound.closed, ?_, ?_⟩, _, rfl, ?_⟩
  · rintro _ ⟨⟩
    rw [writeVideo_shape.1]
    exact ⟨playable, its, begun, fun y mem => ⟨_, is, after y mem⟩⟩
  · rw [there] at messages
    simpa [Inner.group, writeVideo_shape.1, writeVideo_shape.2] using messages
  · rw [writeVideo_shape.1]
    exact ⟨width, height, sort⟩

theorem writeFrames_spec (frames : List Seen) (sound : Sound r) (ready : Ready r w h format) :
    Sound (writeFrames w h format r frames).1 ∧ ((writeFrames w h format r frames).2 = none →
      Ready (writeFrames w h format r frames).1 w h format) := by
  induction frames generalizing r with
  | nil => exact ⟨sound, fun _ => ready⟩
  | cons x frames ih =>
    obtain ⟨checked, gives⟩ : Sound (r.checkPts x.env x.frame.pts x.frame.key w h format).1 ∧ _ :=
      checkPts_spec sound ready
    unfold writeFrames
    generalize r.checkPts x.env x.frame.pts x.frame.key w h format = made at checked gives
    obtain ⟨made, error⟩ := made
    cases error with
    | some e => exact ⟨checked, nofun⟩
    | none =>
      obtain ⟨ready, pts⟩ := gives rfl
      obtain ⟨written, ready⟩ := sound_writeVideo checked ready pts
      exact ih written ready

theorem sound_newFrame (sound : Sound r) (ready : Ready r w h format) : Sound r.newFrame := by
  obtain ⟨i, there, -⟩ := ready
  obtain ⟨playable, its, begun, before⟩ := sound.current i there
  have messages := sound.messages
  unfold newFrame
  rw [there] at messages ⊢
  constructor
  · intro f mem
    rw [sendState_rest.2.2.2.2] at mem
    exact sound.closed f mem
  · intro j js
    rw [sendState_rest.2.1] at js
    obtain rfl := Option.some.inj js
    rw [sendState_rest.2.2.1, sendState_rest.2.2.2.1]
    exact ⟨playable, its, begun, before⟩
  · rw [sent_sendState, sendState_rest.1, sendState_rest.2.1, sendState_rest.2.2.2.2, messages]
    split <;> simp [Inner.group, List.replicate_succ']

theorem sound_writeAll (frames : List Seen) (sound : Sound r) (ready : Ready r w h format) :
    Sound (r.writeAll frames w h format).1 := by
  obtain ⟨written, gives⟩ := writeFrames_spec frames sound ready
  unfold writeAll
  generalize writeFrames w h format r frames = made at written gives
  obtain ⟨made, error⟩ := made
  cases error with
  | some e => exact written
  | none => exact sound_newFrame written (gives rfl)

theorem sound_step (sound : Sound r) (call : Call) : Sound (r.step call) := by
  have checked : Checked r call.w call.h call.frame.format
      (r.check call.env call.w call.h call.frame.format) := check_checked sound
  unfold step writeFrame
  split
  · exact sound
  dsimp only
  split
  · exact sound
  generalize r.check call.env call.w call.h call.frame.format = made at checked
  obtain ⟨made, error⟩ := made
  cases error with
  | some e => exact sound_failed checked.sound
  | none =>
    have all : ∀ frames, Sound (made.writeAll frames call.w call.h call.frame.format).1 :=
      fun frames => sound_writeAll frames checked.sound (checked.ready rfl)
    dsimp only
    split
    · exact all _
    · exact all _
    · exact all _
    · split
      · exact all _
      · exact checked.sound
    · split
      · exact all _
      · exact checked.sound
    · exact checked.sound

theorem ctx_dropInner : (r.dropInner now).ctx = r.ctx := by
  unfold dropInner
  split
  · rw [sendState_rest.1]
  · rfl

theorem ctx_renew : (r.renew env w h format).1.ctx = r.ctx := by
  unfold renew
  split
  · rfl
  · exact ctx_dropInner

theorem ctx_create {ctx2 : RecorderContext2} : (r.create env ctx2 format).1.ctx = r.ctx := by
  unfold create
  split
  · rfl
  split
  · split
    · rfl
    · exact sendState_rest.1
  · rfl

theorem ctx_check : (r.check env w h format).1.ctx = r.ctx := by
  obtain ⟨made, renewed, ended⟩ := r.check_cases env w h format
  have same : made.1.ctx = r.ctx := by
    rcases renewed with rfl | ⟨rfl, -⟩
    · exact ctx_renew
    · rfl
  rcases ended with ⟨e, -, eq⟩ | ⟨-, ⟨ctx2, -, eq⟩ | ⟨-, eq⟩⟩
  · rw [eq]
    exact same
  · rw [eq]
    exact ctx_create.trans same
  · rw [eq]
    exact same

theorem ctx_checkPts : (r.checkPts env pts key w h format).1.ctx = r.ctx := by
  unfold checkPts
  split
  · rfl
  dsimp only
  split
  · have same : (check { dropInner { r with pts := some pts } env.now with ctx2 := none }
        env w h format).1.ctx = r.ctx := ctx_check.trans ctx_dropInner
    generalize check _ env w h format = made at same
    obtain ⟨made, error⟩ := made
    cases error with
    | some e => exact same
    | none => exact same
  · rfl

theorem ctx_writeFrames (frames : List Seen) :
    (writeFrames w h format r frames).1.ctx = r.ctx := by
  induction frames generalizing r with
  | nil => rfl
  | cons x frames ih =>
    have same : (r.checkPts x.env x.frame.pts x.frame.key w h format).1.ctx = r.ctx := ctx_checkPts
    unfold writeFrames
    generalize r.checkPts x.env x.frame.pts x.frame.key w h format = made at same
    obtain ⟨made, error⟩ := made
    cases error with
    | some e => exact same
    | none => exact ih.trans same

theorem ctx_writeAll (frames : List Seen) : (r.writeAll frames w h format).1.ctx = r.ctx := by
  have same : (writeFrames w h format r frames).1.ctx = r.ctx := ctx_writeFrames frames
  unfold writeAll
  generalize writeFrames w h format r frames = made at same
  obtain ⟨made, error⟩ := made
  cases error with
  | some e => exact same
  | none => exact sendState_rest.1.trans same

theorem ctx_step (call : Call) : (r.step call).ctx = r.ctx := by
  have same : (r.check call.env call.w call.h call.frame.format).1.ctx = r.ctx := ctx_check
  unfold step writeFrame
  split
  · rfl
  dsimp only
  split
  · rfl
  generalize r.check call.env call.w call.h call.frame.format = made at same
  obtain ⟨made, error⟩ := made
  cases error with
  | some e => exact same
  | none =>
    dsimp only
    split
    · exact (ctx_writeAll _).trans same
    · exact (ctx_writeAll _).trans same
    · exact (ctx_writeAll _).trans same
    · split
      · exact (ctx_writeAll _).trans same
      · exact same
    · split
      · exact (ctx_writeAll _).trans same
      · exact same
    · exact same

theorem after_spec (ctx : RecorderContext) (calls : List Call) :
    Sound (after ctx calls) ∧ (after ctx calls).ctx = ctx := by
  have keep : ∀ (r : Recorder) (call : Call), Sound r ∧ r.ctx = ctx → True →
      Sound (r.step call) ∧ (r.step call).ctx = ctx :=
    fun r call ⟨sound, same⟩ _ => ⟨sound_step sound call, (ctx_step call).trans same⟩
  have start : Sound (new ctx) ∧ (new ctx).ctx = ctx := by
    refine ⟨⟨by simp [new], by simp [new], ?_⟩, rfl⟩
    simp [new]
  exact Runs.invariant keep start (Runs.along_true _ calls)

theorem timestamp_le {x y : Handed} (le : x.frame.pts ≤ y.frame.pts) (low : 0 ≤ x.frame.pts)
    (high : y.frame.pts ≤ 10 ^ 13) : x.timestamp ≤ y.timestamp := by
  have exact' : ∀ z : Handed, 0 ≤ z.frame.pts → z.frame.pts ≤ 10 ^ 13 →
      z.timestamp = z.frame.pts.toNat * 1000000 := by
    intro z low high
    rw [Handed.timestamp, Int.emod_eq_of_lt low (by omega), Nat.mod_eq_of_lt (by omega)]
  rw [exact' x low (by omega), exact' y (by omega) high]
  omega

theorem recorded_of_playable {f : RecordingFile} (playable : Playable f.ctx2 f.handed)
    (tail : f.tail = .writeTail ∨ f.tail = .removeFile) : Recorded f := by
  refine ⟨playable, playable.ordered.imp fun le low high => timestamp_le le low high, ?_, tail⟩
  intro taken x first
  cases handed : f.handed with
  | nil => simp [handed] at first
  | cons y rest =>
    rw [handed] at first taken
    rw [List.filter_cons_of_pos (taken y rfl)] at first
    obtain rfl := Option.some.inj first
    exact playable.first y (by rw [handed]; rfl)

/-- **Every file can be played and its messages stay together**: whatever frames come, the
muxer of a file is handed frames of one size and format, a key frame first and none back in
time, and the messages are one group for each file, from its beginning to its tail. -/
theorem files_recorded (ctx : RecorderContext) (calls : List Call) (now : Nat) :
    let dropped := (after ctx calls).dropInner now
    (∀ f ∈ dropped.closed, Recorded f) ∧
      dropped.sent = if ctx.tx then dropped.closed.flatMap RecordingFile.group else [] := by
  obtain ⟨sound, same⟩ := after_spec ctx calls
  have dropped : Sound ((after ctx calls).dropInner now) := sound_dropInner sound
  refine ⟨fun f mem => ?_, ?_⟩
  · obtain ⟨playable, tail⟩ := dropped.closed f mem
    exact recorded_of_playable playable tail
  · rw [dropped.messages, inner_dropInner, ctx_dropInner, same, Option.elim_none,
      List.append_nil]

def quietEnv (now : Nat) : Env := ⟨now, "", .ok (), .ok ()⟩

/-- A key frame that the muxer refuses, and a delta frame that it takes. -/
def refusedKey : Call where
  frame := .vp9s [⟨⟨[1], true, 0⟩, quietEnv 0, false⟩, ⟨⟨[2], false, 1⟩, quietEnv 0, true⟩]
  w := 640
  h := 480
  env := quietEnv 0

/-- The recorder counts the refused key frame as seen, and what the kept file begins with is
the delta frame. -/
theorem refused_key_frame :
    ¬ ∀ (ctx : RecorderContext) (calls : List Call) (now : Nat),
      ∀ f ∈ ((after ctx calls).dropInner now).closed, f.tail = .writeTail →
        ∀ x, (f.handed.filter Handed.taken).head? = some x → x.frame.key := by
  intro h
  let ctx : RecorderContext := ⟨true, "a", "/r", 0, false, true, false⟩
  let dropped := (after ctx [refusedKey]).dropInner (2 * 10 ^ 9)
  have file : dropped.closed.map (fun f => (f.tail, (f.handed.filter Handed.taken).head?)) =
      [(.writeTail, some ⟨⟨[2], false, 1⟩, 640, 480, .vp9, true⟩)] := by
    decide +kernel
  obtain ⟨f, mem, is⟩ : ∃ f ∈ dropped.closed, (f.tail, (f.handed.filter Handed.taken).head?) =
      (.writeTail, some ⟨⟨[2], false, 1⟩, 640, 480, .vp9, true⟩) := by
    apply List.mem_map.mp
    rw [file]
    exact List.mem_singleton_self _
  obtain ⟨tail, first⟩ := Prod.mk.inj is
  exact absurd (h ctx [refusedKey] (2 * 10 ^ 9) f mem tail _ first) (by decide)

end Recorder

end CamelliaRemote.Record
