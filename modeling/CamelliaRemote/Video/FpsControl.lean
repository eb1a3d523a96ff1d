import CamelliaRemote.Video.Qos

/-!
The frame rate a viewer asks for, `fps_control` of `src/client/io_loop.rs`. Once a second a viewer
compares how fast each display decodes with how long its queue is, and may report a cap for the
host's frame rate or ask for a fresh picture. The decoding speed comes from `fps_calculate` of
`src/client.rs`, which the decoder thread of a display calls for each frame. Queue lengths and
counted frames are part of the tick; instants are in milliseconds, and the time of a decoding in
nanoseconds.
-/

namespace CamelliaRemote.AutoFps

/-- The variables of a decoder thread that `fps_calculate` changes. -/
structure Calculation where
  skipBeginning : Nat := 0
  count : Nat := 0
  duration : Nat := 0

structure FpsControl where
  refreshTimes : Nat := 0
  lastRefreshInstant : Option Nat := none
  idleCounter : Nat := 0
  inactiveCounter : Nat := 0

structure VideoThread where
  display : Nat
  decodeFps : Option Nat := none
  calculation : Calculation := {}
  fpsControl : FpsControl := {}

structure Viewer where
  videoThreads : List VideoThread := []
  customFps : Option Nat := none
  lastAutoFps : Option Nat := none

/-- What a tick finds: whether the connection is direct, and for each display the frames
of the last second and the length of its queue. -/
structure Tick where
  now : Nat
  direct : Bool := true
  realFps : Nat → Nat := fun _ => 0
  queueLen : Nat → Nat := fun _ => 0

/-- The capacity of a queue. -/
def videoQueueSize : Nat := 120

def inactiveThreshold : Nat := 15

def fpsCalculate (t : VideoThread) (formatChanged : Bool) (elapsed : Nat) : VideoThread :=
  let c := if formatChanged then {} else t.calculation
  if c.skipBeginning < 3 then
    { t with calculation := { c with skipBeginning := c.skipBeginning + 1 } }
  else
    let duration := c.duration + elapsed
    let count := c.count + 1
    let ms := duration / 1000000
    let decodeFps := if count % 10 = 0 && 0 < ms then some (count * 1000 / ms) else t.decodeFps
    let c := if 30 ≤ count then { c with count := 0, duration := 0 } else { c with count, duration }
    { t with decodeFps, calculation := c }

def countInactive (tick : Tick) (t : VideoThread) : VideoThread :=
  { t with fpsControl := { t.fpsControl with
      inactiveCounter :=
        if tick.realFps t.display = 0 then t.fpsControl.inactiveCounter + 1 else 0 } }

/-- What the user asked for, if it is a sensible rate. -/
def checkedCustomFps (customFps : Option Nat) : Nat :=
  let fps := customFps.getD 30
  if fps < 5 || 120 < fps then 30 else fps

def VideoThread.active (t : VideoThread) : Bool :=
  t.fpsControl.inactiveCounter < inactiveThreshold

/-- The slowest active display. A display that has not been measured is below all others. -/
def minDecodeFps (threads : List VideoThread) : Option Nat :=
  let fps := (threads.filter (·.active)).map (·.decodeFps)
  if none ∈ fps then none else (fps.filterMap id).min?

def limitedFps (direct : Bool) (minDecodeFps customFps : Nat) : Nat :=
  let limited := if direct then minDecodeFps * 9 / 10 else minDecodeFps * 4 / 5
  if customFps < limited then customFps else limited

/-- Whether the display wants fewer or more frames. -/
def fpsTrending (len lastAutoFps limited : Nat) (t : VideoThread) : VideoThread × Option Bool :=
  match t.decodeFps with
  | none => (t, none)
  | some decodeFps =>
    let ctl := t.fpsControl
    let idle (n : Nat) : VideoThread := { t with fpsControl := { ctl with idleCounter := n } }
    if inactiveThreshold < ctl.inactiveCounter then (t, none)
    else if 1 < len && limited < lastAutoFps || max 1 (decodeFps / 2) < len then
      (idle 0, some false)
    else if len ≤ 1 then
      (idle (ctl.idleCounter + 1),
        if 3 < ctl.idleCounter + 1 && lastAutoFps + 3 ≤ limited then some true else none)
    else (idle 0, none)

/-- The cap to report, if it is due and not the one reported last. -/
def autoFps (lastAutoFps : Option Nat) (limited maxQueueLen : Nat)
    (trendings : List (Option Bool)) : Option Nat :=
  let shouldDecrease := some false ∈ trendings
  let shouldIncrease := ¬shouldDecrease ∧ some true ∈ trendings
  if lastAutoFps.isNone ∨ shouldDecrease ∨ shouldIncrease then
    let auto := if shouldDecrease ∧ limited < maxQueueLen then limited / 2 else limited
    let auto := if auto < 1 then 1 else auto
    if some auto = lastAutoFps then none else some auto
  else none

def wantsRefresh (tick : Tick) (minDecodeFps : Nat) (t : VideoThread) : Bool :=
  let ctl := t.fpsControl
  let tolerable := min minDecodeFps (videoQueueSize / 2)
  ctl.refreshTimes < 20 && (tolerable < tick.queueLen t.display &&
    (ctl.refreshTimes = 0 || ctl.lastRefreshInstant.any fun i => 10 < (tick.now - i) / 1000))

def refresh (tick : Tick) (minDecodeFps : Nat) (t : VideoThread) : VideoThread :=
  if wantsRefresh tick minDecodeFps t then
    { t with fpsControl := { t.fpsControl with
        refreshTimes := t.fpsControl.refreshTimes + 1
        lastRefreshInstant := some tick.now } }
  else t

/-- What a tick sends to the host. -/
structure Sent where
  autoAdjustFps : Option Nat := none
  refreshVideo : List Nat := []
  deriving DecidableEq

def Viewer.fpsControl (v : Viewer) (tick : Tick) : Viewer × Sent :=
  let threads := v.videoThreads.map (countInactive tick)
  let customFps := checkedCustomFps v.customFps
  let maxQueueLen := (threads.map fun t => tick.queueLen t.display).max?.getD 0
  match minDecodeFps threads with
  | none => ({ v with videoThreads := threads }, {})
  | some minFps =>
    let limited := limitedFps tick.direct minFps customFps
    let trended := threads.map fun t =>
      fpsTrending (tick.queueLen t.display) (v.lastAutoFps.getD customFps) limited t
    let auto := autoFps v.lastAutoFps limited maxQueueLen (trended.map (·.2))
    let threads := trended.map (·.1)
    ({ v with
        videoThreads := threads.map (refresh tick minFps)
        lastAutoFps := auto <|> v.lastAutoFps },
      ⟨auto, (threads.filter (wantsRefresh tick minFps)).map (·.display)⟩)

/-- The first frame of a display starts its decoder thread. -/
def Viewer.onVideoFrame (v : Viewer) (display : Nat) : Viewer :=
  if v.videoThreads.any (·.display = display) then v
  else { v with videoThreads := v.videoThreads ++ [{ display }] }

/-- The decoder thread of a display has handled a frame. -/
def Viewer.onDecoded (v : Viewer) (display : Nat) (formatChanged : Bool) (elapsed : Nat) :
    Viewer :=
  { v with
    videoThreads := v.videoThreads.map fun t =>
      if t.display = display then fpsCalculate t formatChanged elapsed else t }

/-- `set_custom_fps`: the rate becomes a `usize`. -/
def Viewer.setCustomFps (v : Viewer) (fps : Int) : Viewer :=
  { v with customFps := some (fps % 2 ^ 64).toNat }

variable {v : Viewer} {tick : Tick} {threads : List VideoThread}

theorem checkedCustomFps_le (customFps : Option Nat) : checkedCustomFps customFps ≤ 120 := by
  unfold checkedCustomFps
  simp only [Bool.or_eq_true, decide_eq_true_eq]
  split <;> omega

theorem limitedFps_le (direct : Bool) (minFps customFps : Nat) :
    limitedFps direct minFps customFps ≤ customFps ∧
      10 * limitedFps direct minFps customFps ≤ 9 * minFps := by
  unfold limitedFps
  cases direct <;> simp only [Bool.false_eq_true, if_true, if_false] <;> split <;> omega

theorem autoFps_le {lastAutoFps : Option Nat} {limited maxQueueLen n : Nat}
    {trendings : List (Option Bool)}
    (reports : autoFps lastAutoFps limited maxQueueLen trendings = some n) :
    1 ≤ n ∧ (n = 1 ∨ n ≤ limited) ∧ some n ≠ lastAutoFps := by
  unfold autoFps at reports
  simp only at reports
  split at reports
  · generalize cut : (if some false ∈ trendings ∧ limited < maxQueueLen then limited / 2
      else limited) = auto at reports
    have most : auto ≤ limited := by
      rw [← cut]
      split <;> omega
    generalize raised : (if auto < 1 then 1 else auto) = cap at reports
    have bounds : 1 ≤ cap ∧ (cap = 1 ∨ cap ≤ limited) := by
      rw [← raised]
      split <;> omega
    split at reports <;> rename_i new
    · cases reports
    · simp only [Option.some.injEq] at reports
      subst reports
      exact ⟨bounds.1, bounds.2, new⟩
  · cases reports

/-- The minimum is one of a measured display, and no active display is slower. -/
theorem minDecodeFps_le {minFps : Nat} (found : minDecodeFps threads = some minFps)
    {t : VideoThread} (mem : t ∈ threads) (active : t.active = true) :
    ∃ fps, t.decodeFps = some fps ∧ minFps ≤ fps := by
  unfold minDecodeFps at found
  simp only at found
  split at found <;> rename_i measured
  · cases found
  have isIn : t.decodeFps ∈ (threads.filter (·.active)).map (·.decodeFps) :=
    List.mem_map_of_mem (List.mem_filter.mpr ⟨mem, active⟩)
  cases fps : t.decodeFps with
  | none => exact absurd (fps ▸ isIn) measured
  | some n =>
    refine ⟨n, rfl, ?_⟩
    have isMin := List.min?_eq_some_iff.mp found
    exact isMin.2 n (List.mem_filterMap.mpr ⟨some n, fps ▸ isIn, rfl⟩)

/-- **What a tick reports** is a rate from 1 to 120 that was not reported last; it is 1, or
within what the user asked for and nine tenths of what any active display decodes. -/
theorem reported {n : Nat} (reports : (v.fpsControl tick).2.autoAdjustFps = some n) :
    (1 ≤ n ∧ n ≤ 120) ∧ some n ≠ v.lastAutoFps ∧ (v.fpsControl tick).1.lastAutoFps = some n ∧
      (n = 1 ∨ n ≤ checkedCustomFps v.customFps ∧
        ∀ t ∈ v.videoThreads, (countInactive tick t).active = true →
          ∃ fps, t.decodeFps = some fps ∧ 10 * n ≤ 9 * fps) := by
  unfold Viewer.fpsControl at reports ⊢
  simp only at reports ⊢
  split at reports <;> rename_i minFps found
  · cases reports
  simp only at reports ⊢
  obtain ⟨least, most, new⟩ := autoFps_le reports
  obtain ⟨custom, decodes⟩ := limitedFps_le tick.direct minFps (checkedCustomFps v.customFps)
  have small := checkedCustomFps_le v.customFps
  refine ⟨⟨least, by omega⟩, new, by rw [reports]; rfl, ?_⟩
  refine most.imp_right fun below => ⟨Nat.le_trans below custom, fun t mem active => ?_⟩
  obtain ⟨fps, decoded, slowest⟩ := minDecodeFps_le found (List.mem_map_of_mem mem) active
  exact ⟨fps, decoded, by omega⟩

/-- A tick that reports nothing leaves the cap as it is. -/
theorem lastAutoFps_of_none (silent : (v.fpsControl tick).2.autoAdjustFps = none) :
    (v.fpsControl tick).1.lastAutoFps = v.lastAutoFps := by
  unfold Viewer.fpsControl at silent ⊢
  simp only at silent ⊢
  split at silent
  · rfl
  · simp only at silent ⊢
    rw [silent]
    rfl

end CamelliaRemote.AutoFps
