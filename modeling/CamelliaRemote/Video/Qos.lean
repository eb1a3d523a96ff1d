import CamelliaRemote.Lib.Runs
import CamelliaRemote.Lib.TreeMaps
import Mathlib.Algebra.Ring.Int.Defs
import Mathlib.Algebra.Ring.Nat

/-!
Quality of service of the video, `server/video_qos.rs`. One frame rate for all viewers, from what
each of them asks for and how its network does. Instants are milliseconds. What an operation finds
outside is `Env`; a map is gone through in an order of its own.
-/

namespace CamelliaRemote.Qos
open Std (ExtTreeMap)

def fpsDefault : Nat := 30
def minFps : Nat := 1
def maxFps : Nat := 120
def initFps : Nat := 15

def brBest : Float32 := 2.2
def brBalanced : Float32 := 1.0
def brSpeed : Float32 := 0.6
def brMax : Float32 := 40.0
def brMin : Float32 := 0.2
def brMinHighResolution : Float32 := 0.1
def maxBrMultiple : Float32 := 1.0

def historyDelayLen : Nat := 2
def adjustRatioInterval : Nat := 3
def dynamicScreenThreshold : Nat := 2
def delayThreshold150ms : Nat := 150

/-- `Ord::clamp`. -/
def clamp (n low high : Nat) : Nat := if n < low then low else if high < n then high else n

/-- `f32::clamp`. -/
def clampF (v low high : Float32) : Float32 := if v < low then low else if high < v then high else v

inductive Quality where
  | best
  | balanced
  | low
  | custom (ratio : Float32)

def Quality.ratio : Quality → Float32
  | .best => brBest
  | .balanced => brBalanced
  | .low => brSpeed
  | .custom v => v

structure RttCalculator where
  minRtt : Option Nat := none
  windowMinRtt : Option Nat := none
  smoothedRtt : Option Nat := none
  samples : List Nat := []

def windowSamples : Nat := 60
def minSamples : Nat := 10
def alpha : Float32 := 0.5

/-- The mean of the two minima. -/
def smoothed (minRtt windowMin : Nat) : Nat :=
  ((1.0 - alpha) * minRtt.toFloat32 + alpha * windowMin.toFloat32).toUInt32.toNat

def RttCalculator.update (r : RttCalculator) (delay : Nat) : RttCalculator :=
  let minRtt := match r.minRtt with
    | some rtt => if delay < rtt then delay else rtt
    | none => delay
  let samples := (if windowSamples ≤ r.samples.length then r.samples.tail else r.samples) ++ [delay]
  let windowMinRtt := samples.min?
  let smoothedRtt :=
    match windowMinRtt with
    | some windowMin =>
      if windowSamples ≤ samples.length then some (smoothed minRtt windowMin) else r.smoothedRtt
    | none => r.smoothedRtt
  { minRtt := some minRtt, windowMinRtt, smoothedRtt, samples }

def RttCalculator.getRtt (r : RttCalculator) : Option Nat :=
  match r.smoothedRtt with
  | some rtt => some rtt
  | none => if minSamples ≤ r.samples.length then r.minRtt else none

structure UserDelay where
  responseDelayed : Bool := false
  delayHistory : List Nat := []
  fps : Option Nat := none
  rttCalculator : RttCalculator := {}
  quickIncreaseFpsCount : Nat := 0
  increaseFpsCount : Nat := 0

def UserDelay.addDelay (d : UserDelay) (delay : Nat) : UserDelay :=
  { d with
    rttCalculator := d.rttCalculator.update delay
    delayHistory :=
      (if historyDelayLen < d.delayHistory.length then d.delayHistory.tail else d.delayHistory) ++
        [delay] }

/-- The sum is one of 32 bits. -/
def UserDelay.avgDelay (d : UserDelay) : Nat :=
  let len := d.delayHistory.length
  if 0 < len then
    let avg := d.delayHistory.sum % 2 ^ 32 / len
    match d.rttCalculator.getRtt with
    | some rtt => if rtt < avg then avg - rtt else avg
    | none => avg
  else delayThreshold150ms

structure UserData where
  /-- What the viewer's decoding allows. -/
  autoAdjustFps : Option Nat := none
  /-- What the user asked for. -/
  customFps : Option Nat := none
  /-- When it was chosen, and what. -/
  quality : Option (Int × Quality) := none
  delay : UserDelay := {}
  record : Bool := false

structure DisplayData where
  sendCounter : Nat := 0
  supportChangingQuality : Bool := false

abbrev Users := ExtTreeMap Int UserData

abbrev Displays := ExtTreeMap String DisplayData

structure VideoQoS where
  fps : Nat := fpsDefault
  ratio : Float32 := brBalanced
  users : Users := ∅
  displays : Displays := ∅
  bitrateStore : Nat := 0
  adjustRatioInstant : Nat
  abrConfig : Bool := true
  newUserInstant : Nat

def VideoQoS.default (now : Nat) : VideoQoS := { adjustRatioInstant := now, newUserInstant := now }

structure Env where
  now : Nat
  /-- The option `enable-abr`. -/
  enableAbr : String := ""
  linux : Bool := false
  getTime : Int := 0
  /-- The order in which the users are gone through. -/
  iter : List UserData → List UserData := id
  iter_perm : ∀ us, (iter us).Perm us := by intro us; exact .refl us
  /-- The rate over the delay in units of 150 ms, rounded up. -/
  devideFps : Nat → Nat → Nat := fun fps avgDelay =>
    (fps.toFloat32 / (avgDelay.toFloat32 / delayThreshold150ms.toFloat32)).ceil.toUInt32.toNat

def VideoQoS.inVbrState (q : VideoQoS) : Bool :=
  q.abrConfig && (TreeMaps.values q.displays).all (·.supportChangingQuality)

def userFps (u : UserData) : Nat :=
  let fps := u.customFps.getD fpsDefault
  match u.autoAdjustFps with
  | some auto => if fps = 0 || auto < fps then auto else fps
  | none => fps

def VideoQoS.highestFps (q : VideoQoS) : Nat :=
  let fps := (((TreeMaps.values q.users).map userFps).filter (minFps ≤ ·)).min?.getD fpsDefault
  clamp fps minFps maxFps

/-- `Iterator::max_by`: the last of the latest. -/
def latest (choices : List (Int × Quality)) : Option (Int × Quality) :=
  choices.foldl (fun best choice =>
    match best with
    | none => some choice
    | some b => if b.1 ≤ choice.1 then some choice else some b) none

def VideoQoS.latestQuality (q : VideoQoS) (env : Env) : Quality :=
  ((latest ((env.iter (TreeMaps.values q.users)).filterMap (·.quality))).getD (0, .balanced)).2

def VideoQoS.adjustFps (q : VideoQoS) (env : Env) : VideoQoS :=
  let users := TreeMaps.values q.users
  let fps := (users.map fun u => u.delay.fps.getD initFps).min?.getD initFps
  let fps :=
    if users.any (·.delay.responseDelayed) then if minFps + 1 < fps then minFps + 1 else fps
    else fps
  let fps :=
    if (env.now - q.newUserInstant) / 1000 < 1 then if initFps < fps then initFps else fps
    else fps
  { q with fps := clamp fps minFps q.highestFps }

/-- What the least ratio is for a quality. -/
def leastRatio (quality : Quality) (ratio1mbps : Option Float32) : Float32 :=
  let atMost (least : Float32) : Float32 :=
    match ratio1mbps with
    | some ratio => if ratio < least then ratio else least
    | none => least
  match quality with
  | .best => max (atMost (brBest / 2.5)) brMin
  | .balanced => max (atMost (min (brBalanced / 2.0) 0.4)) brMinHighResolution
  | .low => brMinHighResolution
  | .custom _ => brMinHighResolution

/-- The ratio for the worst delay. -/
def delayedRatio (ratio : Float32) (dynamicScreen : Bool) (maxDelay : Nat) : Float32 :=
  if maxDelay < 50 then if dynamicScreen then ratio * 1.15 else ratio
  else if maxDelay < 100 then if dynamicScreen then ratio * 1.1 else ratio
  else if maxDelay < delayThreshold150ms then if dynamicScreen then ratio * 1.05 else ratio
  else if maxDelay < 200 then ratio * 0.95
  else if maxDelay < 300 then ratio * 0.9
  else if maxDelay < 500 then ratio * 0.85
  else ratio * 0.8

def VideoQoS.adjustRatio (q : VideoQoS) (env : Env) (dynamicScreen : Bool) : VideoQoS :=
  if !q.inVbrState then q
  else
    match ((TreeMaps.values q.users).map (·.delay.avgDelay)).max? with
    | none => q
    | some maxDelay =>
      let target := q.latestQuality env
      let bitrate := q.bitrateStore
      let ratio1mbps :=
        if 0 < bitrate then some (max (q.ratio * 1000.0 / bitrate.toFloat32) brMinHighResolution)
        else none
      let least := leastRatio target ratio1mbps
      let most := target.ratio * maxBrMultiple
      let v := delayedRatio q.ratio dynamicScreen maxDelay
      let v :=
        if 0 < bitrate then
          let added := ((bitrate + 150) % 2 ^ 32).toFloat32 * q.ratio / bitrate.toFloat32
          if added < v && q.ratio < added && brSpeed ≤ q.ratio then added else v
        else v
      { q with ratio := clampF v least most, adjustRatioInstant := env.now }

def VideoQoS.onConnectionOpen (q : VideoQoS) (env : Env) (id : Int) : VideoQoS :=
  { q with
    users := q.users.insert id {}
    abrConfig := env.enableAbr != "N"
    newUserInstant := env.now }

def VideoQoS.onConnectionClose (q : VideoQoS) (env : Env) (id : Int) : VideoQoS :=
  let users := q.users.erase id
  if users.isEmpty then .default env.now else { q with users }

def VideoQoS.userCustomFps (q : VideoQoS) (id : Int) (fps : Nat) : VideoQoS :=
  if fps < minFps || maxFps < fps then q
  else { q with users := q.users.modify id fun u => { u with customFps := some fps } }

def VideoQoS.userAutoAdjustFps (q : VideoQoS) (id : Int) (fps : Nat) : VideoQoS :=
  if fps < minFps || maxFps < fps then q
  else { q with users := q.users.modify id fun u => { u with autoAdjustFps := some fps } }

/-- The values of `ImageQuality`, else hundredths in bits 8 to 19. -/
def convertQuality (q : Int) : Quality :=
  if q = 3 then .balanced
  else if q = 2 then .low
  else if q = 4 then .best
  else .custom (clampF (((q >>> (8 : Nat)) % 4096 * 2).toNat.toFloat32 / 100.0) brMin brMax)

def VideoQoS.userImageQuality (q : VideoQoS) (env : Env) (id imageQuality : Int) : VideoQoS :=
  let quality := some (env.getTime, convertQuality imageQuality)
  if q.users.contains id then
    let q := { q with users := q.users.modify id fun u => { u with quality } }
    { q with ratio := (q.latestQuality env).ratio }
  else q

def VideoQoS.userRecord (q : VideoQoS) (id : Int) (v : Bool) : VideoQoS :=
  { q with users := q.users.modify id fun u => { u with record := v } }

/-- The least rate and the rate to come back to, for a ratio. -/
def fpsFor (targetRatio : Float32) : Nat × Nat :=
  if brBest ≤ targetRatio then (8, 16)
  else if brBalanced ≤ targetRatio then (10, 20)
  else (12, 24)

/-- What a network delay does to a user, where `fps` is the rate of all. -/
def UserDelay.network (d : UserDelay) (env : Env) (fps highestFps : Nat) (target : Nat × Nat)
    (delay : Nat) : UserDelay :=
  let (least, normal) := target
  let oldAvgDelay := d.avgDelay
  let d := d.addDelay (max delay 10)
  let avgDelay := max d.avgDelay 10
  let devideFps := env.devideFps fps avgDelay
  let dividendMs := delayThreshold150ms * least
  let (quick, fps) :=
    if avgDelay < 50 then
      let quick := d.quickIncreaseFpsCount + 1
      if 3 ≤ quick then (0, max least (fps + 5))
      else (quick, max least (fps + if fps < normal then 1 else 0))
    else if avgDelay < 100 then
      (d.quickIncreaseFpsCount,
        max least (fps + if avgDelay < oldAvgDelay then if fps < normal then 1 else 0 else 0))
    else if avgDelay < delayThreshold150ms then (d.quickIncreaseFpsCount, max least fps)
    else if avgDelay < 200 then (d.quickIncreaseFpsCount, max least devideFps)
    else if avgDelay < 300 then (d.quickIncreaseFpsCount, min least devideFps)
    else if avgDelay < 600 then (d.quickIncreaseFpsCount, dividendMs / avgDelay)
    else (d.quickIncreaseFpsCount, min (dividendMs / avgDelay) devideFps)
  let increase := if avgDelay < delayThreshold150ms then d.increaseFpsCount + 1 else 0
  let (increase, fps) := if 3 ≤ increase then (0, fps + 1) else (increase, fps)
  { d with
    quickIncreaseFpsCount := if 50 < avgDelay then 0 else quick
    increaseFpsCount := increase
    fps := some (clamp fps minFps highestFps) }

def VideoQoS.userNetworkDelay (q : VideoQoS) (env : Env) (id : Int) (delay : Nat) : VideoQoS :=
  let highestFps := q.highestFps
  let target := fpsFor (q.latestQuality env).ratio
  let adjustRatio := q.users[id]?.any (·.delay.fps.isNone)
  let users := q.users.modify id fun u =>
    { u with delay := u.delay.network env q.fps highestFps target delay }
  let q := { q with users }.adjustFps env
  if adjustRatio && !env.linux then q.adjustRatio env false else q

/-- The time in milliseconds has 128 bits, a delay has 32. -/
def VideoQoS.userDelayResponseElapsed (q : VideoQoS) (env : Env) (id : Int) (elapsed : Nat) :
    VideoQoS :=
  if q.users.contains id then
    let delayed : Bool := 2000 < elapsed
    let users := q.users.modify id fun u =>
      let delay := { u.delay with responseDelayed := delayed }
      { u with delay := if delayed then delay.addDelay (elapsed % 2 ^ 32) else delay }
    if delayed then { q with users }.adjustFps env else { q with users }
  else q

def VideoQoS.newDisplay (q : VideoQoS) (name : String) : VideoQoS :=
  { q with displays := q.displays.insert name {} }

def VideoQoS.removeDisplay (q : VideoQoS) (name : String) : VideoQoS :=
  { q with displays := q.displays.erase name }

def VideoQoS.setSupportChangingQuality (q : VideoQoS) (name : String) (support : Bool) : VideoQoS :=
  { q with
    displays := q.displays.modify name fun d => { d with supportChangingQuality := support } }

def VideoQoS.updateDisplayData (q : VideoQoS) (env : Env) (name : String) (sendCounter : Nat) :
    VideoQoS :=
  let displays := q.displays.modify name fun d =>
    { d with sendCounter := d.sendCounter + sendCounter }
  let q := { q with displays }.adjustFps env
  if q.inVbrState then
    if adjustRatioInterval ≤ (env.now - q.adjustRatioInstant) / 1000 then
      let dynamicScreen := (TreeMaps.values q.displays).any fun d =>
        adjustRatioInterval * dynamicScreenThreshold ≤ d.sendCounter
      let displays := q.displays.map fun _ d => { d with sendCounter := 0 }
      { q with displays }.adjustRatio env dynamicScreen
    else q
  else { q with ratio := (q.latestQuality env).ratio }

def VideoQoS.storeBitrate (q : VideoQoS) (bitrate : Nat) : VideoQoS :=
  { q with bitrateStore := bitrate }

/-- `ratio` puts a ratio out of range back before it is read. -/
def VideoQoS.readRatio (q : VideoQoS) : VideoQoS :=
  if q.ratio < brMinHighResolution || brMax < q.ratio then { q with ratio := brBalanced } else q

inductive Op where
  | onConnectionOpen (id : Int)
  | onConnectionClose (id : Int)
  | userCustomFps (id : Int) (fps : Nat)
  | userAutoAdjustFps (id : Int) (fps : Nat)
  | userImageQuality (id imageQuality : Int)
  | userRecord (id : Int) (v : Bool)
  | userNetworkDelay (id : Int) (delay : Nat)
  | userDelayResponseElapsed (id : Int) (elapsed : Nat)
  | newDisplay (name : String)
  | removeDisplay (name : String)
  | setSupportChangingQuality (name : String) (support : Bool)
  | updateDisplayData (name : String) (sendCounter : Nat)
  | storeBitrate (bitrate : Nat)
  | readRatio

def step (q : VideoQoS) (e : Op × Env) : VideoQoS :=
  match e.1 with
  | .onConnectionOpen id => q.onConnectionOpen e.2 id
  | .onConnectionClose id => q.onConnectionClose e.2 id
  | .userCustomFps id fps => q.userCustomFps id fps
  | .userAutoAdjustFps id fps => q.userAutoAdjustFps id fps
  | .userImageQuality id imageQuality => q.userImageQuality e.2 id imageQuality
  | .userRecord id v => q.userRecord id v
  | .userNetworkDelay id delay => q.userNetworkDelay e.2 id delay
  | .userDelayResponseElapsed id elapsed => q.userDelayResponseElapsed e.2 id elapsed
  | .newDisplay name => q.newDisplay name
  | .removeDisplay name => q.removeDisplay name
  | .setSupportChangingQuality name support => q.setSupportChangingQuality name support
  | .updateDisplayData name sendCounter => q.updateDisplayData e.2 name sendCounter
  | .storeBitrate bitrate => q.storeBitrate bitrate
  | .readRatio => q.readRatio

/-- The operations that end in `adjust_fps`. -/
def adjusts (q : VideoQoS) : Op → Bool
  | .userNetworkDelay _ _ | .updateDisplayData _ _ => true
  | .userDelayResponseElapsed id elapsed => q.users.contains id && decide (2000 < elapsed)
  | _ => false

end CamelliaRemote.Qos
