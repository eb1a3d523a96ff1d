import CamelliaRemote.Lib.EntryList
import CamelliaRemote.Lib.Runs
import Mathlib.Logic.Function.Basic
import Mathlib.Algebra.Ring.Int.Defs
import Mathlib.Algebra.Ring.Nat

/-!
The video worker, `flutter/web/js/src/runtime/video_worker.ts`. A message, the end of a
`createDecoder`, a call of a decoder and a render callback are the events; what waits for the end
of a creation goes on in it, in the order in which it came. Decoders, creations, chunks and frames
are numbered as they come. What the worker reports is left out, with the tables that are only for
that.
-/

namespace CamelliaRemote.Web.VideoWorker

inductive CodecType where
  | vp9
  | av1
  | h264
  | h265
  deriving DecidableEq

/-- `decoderKey`, of which the beginning is the display. -/
structure DecoderKey where
  display : Int
  codec : CodecType
  deriving DecidableEq

structure VideoDecoder where
  key : DecoderKey
  isOpen : Bool
  deriving DecidableEq

/-- A message to decode; `pts` is a number, or none if it is not finite. -/
structure Chunk where
  number : Nat
  isKey : Bool
  data : List UInt8
  pts : Option Rat
  deriving DecidableEq

/-- What a chunk meets: the queue of the decoder, the clock, and whether `decode` throws. -/
structure Meets where
  queueSize : Nat
  now : Int
  throws : Bool
  deriving DecidableEq

/-- A `createDecoder` that has not ended, with the chunks that wait for it, the one that
started it first. -/
structure Creation where
  number : Nat
  key : DecoderKey
  chunks : List Chunk
  deriving DecidableEq

inductive Outcome where
  | noConfig
  | configureFailed
  | decoder
  deriving DecidableEq

inductive Reason where
  | noSurface
  | inactive
  | noDecoder
  | empty
  | needsKey
  | firstOverflow
  | overflow
  /-- `EncodedVideoChunk` throws. -/
  | unbuilt
  deriving DecidableEq

/-- What became of a chunk, and the errors of the decoders. -/
inductive Entry where
  | passed (chunk : Nat) (key : DecoderKey) (isKey : Bool) (decoder : Nat) (timestamp : Int)
      (ok : Bool)
  | dropped (chunk : Nat) (key : DecoderKey) (reason : Reason)
  | error (decoder : Nat)
  deriving DecidableEq

inductive RenderQuality where
  | low
  | balanced
  | best
  | custom
  deriving DecidableEq

structure Overflow where
  count : Nat
  at' : Int
  deriving DecidableEq

structure Worker where
  decoders : List (DecoderKey × Nat) := []
  decoderBooting : DecoderKey → Option Nat := fun _ => none
  decoderNeedsKeyFrame : DecoderKey → Option Bool := fun _ => none
  decoderLastPts : DecoderKey → Option Int := fun _ => none
  overflowState : DecoderKey → Option Overflow := fun _ => none
  pendingFrames : List (Int × Nat) := []
  renderScheduled : Int → Bool := fun _ => false
  surface : Bool := false
  isClosed : Bool := false
  renderQuality : RenderQuality := .balanced
  customQuality : Int := 100
  customFps : Int := 60
  activeDisplay : Option Int := none
  /-- The decoders there have been. -/
  created : List VideoDecoder := []
  started : Nat := 0
  creations : List Creation := []
  /-- The callbacks that are scheduled. -/
  renders : List Int := []
  /-- The frames there have been, by their displays. -/
  frames : List Int := []
  /-- The calls of `close` on frames. -/
  closes : List Nat := []
  arrivals : List DecoderKey := []
  log : List Entry := []

inductive Event where
  | attachSurface (context : Bool)
  | detachSurface
  | setPolicy (renderQuality : RenderQuality) (customQuality customFps : Option Rat)
  | setActiveDisplay (display : Int) (reset : Bool)
  | decode (codec : CodecType) (display : Int) (data : List UInt8) (isKey : Bool)
      (pts : Option Rat) (meets : Meets)
  | close
  /-- The end of a creation. -/
  | creation (number : Nat) (outcome : Outcome) (meets : Nat → Meets)
  | decoderError (decoder : Nat)
  | output (decoder : Nat)
  | render (callback : Nat)

def deleteWhere {α β : Type} (m : α → Option β) (p : α → Bool) : α → Option β :=
  fun k => if p k then none else m k

def clampNumber (value minValue maxValue : Rat) : Rat :=
  if value < minValue then minValue else if maxValue < value then maxValue else value

/-- `Math.round`. -/
def round (value : Rat) : Int := (value + 1 / 2).floor

def decodeQueueDropThreshold (quality : RenderQuality) (customQuality customFps : Int) : Int :=
  match quality with
  | .low => 13
  | .best => 20
  | .custom =>
    let qualityAdj := clampNumber (round (((customQuality : Rat) - 100) / 100)) (-3) 6
    let fpsAdj := clampNumber (round ((60 - (customFps : Rat)) / 30)) (-2) 2
    round (clampNumber (22 + qualityAdj + fpsAdj) 15 30)
  | .balanced => 16

def triggerOverflows : Nat := 2

def overflowWindowMs : Int := 1800

/-- The greatest timestamp of an `EncodedVideoChunk`. -/
def maxTimestamp : Int := 2 ^ 53 - 1

def normalizeDisplay (display : Int) : Option Int := if display < 0 then none else some display

namespace Worker

variable (s : Worker)

def shouldRenderDisplay (display : Int) : Bool :=
  s.activeDisplay = none || normalizeDisplay display = s.activeDisplay

def setPolicy (renderQuality : RenderQuality) (customQuality customFps : Option Rat) : Worker :=
  let positive := fun value : Option Rat => value.filter fun n => 0 < n
  { s with
    renderQuality
    customQuality := ((positive customQuality).map fun n =>
      round (clampNumber n 10 2000)).getD s.customQuality
    customFps := ((positive customFps).map fun n =>
      round (clampNumber n 5 120)).getD s.customFps }

/-- `close` of some decoders; it throws for those that are closed, which is ignored. -/
def closeDecoders (decoders : List Nat) : Worker :=
  { s with
    created := s.created.mapIdx fun i decoder =>
      if i ∈ decoders then { decoder with isOpen := false } else decoder }

/-- The loops of `clearDisplayCodecState` and `clearInactiveDisplayState`. -/
def clearKeys (p : DecoderKey → Bool) : Worker :=
  { s.closeDecoders ((s.decoders.filter fun entry => p entry.1).map Prod.snd) with
    decoders := EntryList.delete s.decoders p
    decoderBooting := deleteWhere s.decoderBooting p
    decoderNeedsKeyFrame := deleteWhere s.decoderNeedsKeyFrame p
    decoderLastPts := deleteWhere s.decoderLastPts p
    overflowState := deleteWhere s.overflowState p }

def clearDisplayCodecState (display : Int) (keepCodec : Option CodecType) : Worker :=
  s.clearKeys fun key => key.display = display && some key.codec ≠ keepCodec

def setNeedsKeyFrame (key : DecoderKey) (needs : Bool) : Worker :=
  { s with
    decoderNeedsKeyFrame := Function.update s.decoderNeedsKeyFrame key (some needs) }

def setOverflow (key : DecoderKey) (overflow : Option Overflow) : Worker :=
  { s with overflowState := Function.update s.overflowState key overflow }

def write (entry : Entry) : Worker := { s with log := s.log ++ [entry] }

def coolDownBackpressureState (key : DecoderKey) (now : Int) : Worker :=
  match s.overflowState key with
  | none => s
  | some state =>
    if state.count ≤ 1 then s.setOverflow key none
    else s.setOverflow key (some ⟨state.count - 1, now⟩)

/-- The overflows of the queue that came soon after each other, with one now. -/
def overflowCount (key : DecoderKey) (now : Int) : Nat :=
  match s.overflowState key with
  | some prev => if now - prev.at' < overflowWindowMs then prev.count + 1 else 1
  | none => 1

/-- What is after the test for a key frame. -/
def checkQueue (key : DecoderKey) (meets : Meets) : Worker × Option Reason :=
  let dropThreshold := decodeQueueDropThreshold s.renderQuality s.customQuality s.customFps
  if (meets.queueSize : Int) ≤ dropThreshold then (s.coolDownBackpressureState key meets.now, none)
  else if s.overflowCount key meets.now < triggerOverflows then
    (s.setOverflow key (some ⟨s.overflowCount key meets.now, meets.now⟩), some .firstOverflow)
  else ((s.setOverflow key none).setNeedsKeyFrame key true, some .overflow)

def shouldDropFrame (key : DecoderKey) (isKey : Bool) (meets : Meets) :
    Worker × Option Reason :=
  if s.decoderNeedsKeyFrame key ≠ some false then
    if !isKey then (s, some .needsKey)
    else ((s.setNeedsKeyFrame key false).setOverflow key none, none)
  else if isKey then (s.setOverflow key none, none)
  else s.checkQueue key meets

def normalizeTimestamp (key : DecoderKey) (pts : Option Rat) : Worker × Int :=
  let last := s.decoderLastPts key
  let next := (pts.map Rat.floor).getD 0
  let next := if next < 0 then (last.map (· + 1)).getD 0 else next
  let next :=
    match last with
    | some last => if next ≤ last then last + 1 else next
    | none => next
  ({ s with decoderLastPts := Function.update s.decoderLastPts key (some next) }, next)

/-- `decode` throws if the decoder is closed. -/
def throws (decoder : Nat) (meets : Meets) : Bool :=
  meets.throws || !(s.created[decoder]?.elim false VideoDecoder.isOpen)

/-- What `decodeVideo` does with a chunk that is not dropped. -/
def pass (key : DecoderKey) (decoder : Nat) (chunk : Chunk) (meets : Meets) : Worker :=
  let (s, timestamp) := s.normalizeTimestamp key chunk.pts
  if maxTimestamp < timestamp then s.write (.dropped chunk.number key .unbuilt)
  else if s.throws decoder meets then
    (s.setNeedsKeyFrame key true).write
      (.passed chunk.number key chunk.isKey decoder timestamp false)
  else s.write (.passed chunk.number key chunk.isKey decoder timestamp true)

/-- `decodeVideo` once it has its decoder. -/
def decodeChunk (key : DecoderKey) (decoder : Nat) (chunk : Chunk) (meets : Meets) : Worker :=
  if chunk.data.isEmpty then s.write (.dropped chunk.number key .empty)
  else
    match s.shouldDropFrame key chunk.isKey meets with
    | (s, some reason) => s.write (.dropped chunk.number key reason)
    | (s, none) => s.pass key decoder chunk meets

def start (key : DecoderKey) (chunk : Chunk) : Worker :=
  let s := s.clearDisplayCodecState key.display (some key.codec)
  { s with
    decoderBooting := Function.update s.decoderBooting key (some s.started)
    started := s.started + 1
    creations := s.creations ++ [⟨s.started, key, [chunk]⟩] }

/-- The chunk waits for the creation `number`. -/
def wait (number : Nat) (chunk : Chunk) : Worker :=
  { s with
    creations := s.creations.map fun c =>
      if c.number = number then { c with chunks := c.chunks ++ [chunk] } else c }

def arrive (key : DecoderKey) : Worker := { s with arrivals := s.arrivals ++ [key] }

def decodeVideo (codec : CodecType) (display : Int) (data : List UInt8) (isKey : Bool)
    (pts : Option Rat) (meets : Meets) : Worker :=
  let key : DecoderKey := ⟨display, codec⟩
  let chunk : Chunk := ⟨s.arrivals.length, isKey, data, pts⟩
  let s := s.arrive key
  if !s.surface then s.write (.dropped chunk.number key .noSurface)
  else if !s.shouldRenderDisplay display then s.write (.dropped chunk.number key .inactive)
  else
    match EntryList.get s.decoders key with
    | some decoder => s.decodeChunk key decoder chunk meets
    | none =>
      match s.decoderBooting key with
      | some number => s.wait number chunk
      | none => s.start key chunk

def dropAll (key : DecoderKey) (chunks : List Chunk) : Worker :=
  { s with log := s.log ++ chunks.map fun chunk => .dropped chunk.number key .noDecoder }

def decodeAll (key : DecoderKey) (decoder : Nat) (meets : Nat → Meets) :
    Worker → List Chunk → Worker
  | s, [] => s
  | s, chunk :: chunks =>
    decodeAll key decoder meets (s.decodeChunk key decoder chunk (meets chunk.number)) chunks

/-- The creation is over, and is no more looked for. -/
def finishCreation (c : Creation) : Worker :=
  { s with
    creations := s.creations.filter fun other => other.number ≠ c.number
    decoderBooting := Function.update s.decoderBooting c.key none }

def addDecoder (key : DecoderKey) (isOpen : Bool) : Worker :=
  { s with created := s.created ++ [⟨key, isOpen⟩] }

/-- What `createDecoder` does with a decoder that is configured. -/
def configured (key : DecoderKey) : Worker :=
  { (s.addDecoder key true).setNeedsKeyFrame key true with
    decoderLastPts := Function.update s.decoderLastPts key none }

def register (key : DecoderKey) (decoder : Nat) : Worker :=
  { s with decoders := EntryList.set s.decoders key decoder }

/-- The end of `createDecoder`, and what `getDecoder` and `decodeVideo` do then. -/
def endCreation (c : Creation) (outcome : Outcome) (meets : Nat → Meets) : Worker :=
  let s := s.finishCreation c
  match outcome with
  | .noConfig => s.dropAll c.key c.chunks
  | .configureFailed => (s.addDecoder c.key false).dropAll c.key c.chunks
  | .decoder =>
    let decoder := s.created.length
    let s := s.configured c.key
    if s.shouldRenderDisplay c.key.display then
      decodeAll c.key decoder meets (s.register c.key decoder) c.chunks
    else
      decodeAll c.key decoder meets
        ((s.closeDecoders [decoder]).dropAll c.key (c.chunks.take 1)) (c.chunks.drop 1)

def creation (number : Nat) (outcome : Outcome) (meets : Nat → Meets) : Worker :=
  match s.creations.find? fun c => c.number = number with
  | some c => s.endCreation c outcome meets
  | none => s

/-- The `error` of a decoder, which is closed by then. -/
def decoderError (decoder : Nat) : Worker :=
  match s.created[decoder]? with
  | some d => ((s.closeDecoders [decoder]).setNeedsKeyFrame d.key true).write (.error decoder)
  | none => s

def closeFrames (frames : List Nat) : Worker := { s with closes := s.closes ++ frames }

def schedule (display : Int) : Worker :=
  if s.renderScheduled display then s
  else
    { s with
      renderScheduled := Function.update s.renderScheduled display true
      renders := s.renders ++ [display] }

def handleFrame (display : Int) : Worker :=
  let frame := s.frames.length
  let s := { s with frames := s.frames ++ [display] }
  if !s.shouldRenderDisplay display then s.closeFrames [frame]
  else
    let s := s.closeFrames (EntryList.get s.pendingFrames display).toList
    let s := { s with pendingFrames := EntryList.set s.pendingFrames display frame }
    s.schedule display

def output (decoder : Nat) : Worker :=
  match s.created[decoder]? with
  | some d => s.handleFrame d.key.display
  | none => s

/-- A callback, and `renderFrame`, which closes its frame however it ends. -/
def render (callback : Nat) : Worker :=
  match s.renders[callback]? with
  | some display =>
    let s := { s with
      renders := s.renders.eraseIdx callback
      renderScheduled := Function.update s.renderScheduled display false }
    match EntryList.get s.pendingFrames display with
    | some frame =>
      { s with pendingFrames := EntryList.delete s.pendingFrames (· = display) }.closeFrames [frame]
    | none => s
  | none => s

/-- `clearPendingFrame` for the displays that there is a frame of. -/
def clearPendingFrames (p : Int → Bool) : Worker :=
  { s with
    pendingFrames := EntryList.delete s.pendingFrames p
    renderScheduled := fun display =>
      s.renderScheduled display && !(p display && (EntryList.get s.pendingFrames display).isSome)
    closes := s.closes ++ (s.pendingFrames.filter fun entry => p entry.1).map Prod.snd }

/-- `clearPendingFrame`. -/
def clearPendingFrame (display : Int) : Worker :=
  { s.clearPendingFrames (· = display) with
    renderScheduled := Function.update s.renderScheduled display false }

def clearInactiveDisplayState (targetDisplay : Int) : Worker :=
  (s.clearPendingFrames (· ≠ targetDisplay)).clearKeys fun key => key.display ≠ targetDisplay

def resetDisplayState (display : Int) : Worker :=
  (s.clearPendingFrame display).clearDisplayCodecState display none

def setActiveDisplay (display : Int) (reset : Bool) : Worker :=
  let s := { s with activeDisplay := normalizeDisplay display }
  match s.activeDisplay with
  | none => s
  | some normalized =>
    let s := s.clearInactiveDisplayState normalized
    if reset then s.resetDisplayState normalized else s

def closeWorker : Worker :=
  let s := s.closeDecoders (s.decoders.map Prod.snd)
  { s.closeFrames (s.pendingFrames.map Prod.snd) with
    isClosed := true
    decoders := []
    decoderBooting := fun _ => none
    decoderNeedsKeyFrame := fun _ => none
    decoderLastPts := fun _ => none
    overflowState := fun _ => none
    pendingFrames := []
    renderScheduled := fun _ => false
    surface := false }

/-- A message, which a closed worker ignores. -/
def message (handled : Worker) : Worker := if s.isClosed then s else handled

def step : Event → Worker
  | .attachSurface context => s.message { s with surface := context }
  | .detachSurface => s.message { s with surface := false }
  | .setPolicy renderQuality customQuality customFps =>
    s.message (s.setPolicy renderQuality customQuality customFps)
  | .setActiveDisplay display reset => s.message (s.setActiveDisplay display reset)
  | .decode codec display data isKey pts meets =>
    s.message (s.decodeVideo codec display data isKey pts meets)
  | .close => s.message s.closeWorker
  | .creation number outcome meets => s.creation number outcome meets
  | .decoderError decoder => s.decoderError decoder
  | .output decoder => s.output decoder
  | .render callback => s.render callback

end Worker

def after (events : List Event) : Worker := Runs.run Worker.step {} events

end CamelliaRemote.Web.VideoWorker
