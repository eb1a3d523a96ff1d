import CamelliaRemote.Video.FpsControl
import CamelliaRemote.Video.QosBounds
import Mathlib.Data.List.Chain

namespace CamelliaRemote.AutoFps
open Qos Runs
open Std (ExtTreeMap)

inductive ToHost where
  | autoAdjustFps (fps : Nat)
  /-- The option of a rate chosen by the user. -/
  | customFps (fps : Int)

def ToHost.cap? : ToHost → Option Nat
  | autoAdjustFps fps => some fps
  | customFps _ => none

structure FpsLoop where
  viewer : Viewer
  host : VideoQoS
  inFlight : List ToHost := []
  /-- The caps that the host has received, and the refreshes that were asked for: display and
  instant. -/
  received : List Nat := []
  refreshes : List (Nat × Nat) := []

inductive LoopEvent where
  | tick (tick : Tick)
  | videoFrame (display : Nat)
  | decoded (display : Nat) (formatChanged : Bool) (elapsed : Nat)
  | setCustomFps (fps : Int)
  | deliver
  /-- Other viewers, measurements and displays of the host. -/
  | host (op : Op) (env : Env)

namespace FpsLoop

variable (id : Int)

/-- `on_message` of the host for the connection of the viewer. -/
def receive (q : VideoQoS) : ToHost → VideoQoS
  | .autoAdjustFps fps => q.userAutoAdjustFps id fps
  | .customFps fps => if 0 < fps then q.userCustomFps id fps.toNat else q

def step (s : FpsLoop) : LoopEvent → FpsLoop
  | .tick tick =>
    let (viewer, sent) := s.viewer.fpsControl tick
    { s with
      viewer
      inFlight := s.inFlight ++ sent.autoAdjustFps.toList.map .autoAdjustFps
      refreshes := s.refreshes ++ sent.refreshVideo.map (·, tick.now) }
  | .videoFrame display => { s with viewer := s.viewer.onVideoFrame display }
  | .decoded display formatChanged elapsed =>
    { s with viewer := s.viewer.onDecoded display formatChanged elapsed }
  | .setCustomFps fps =>
    { s with
      viewer := s.viewer.setCustomFps fps
      inFlight := s.inFlight ++ [ToHost.customFps fps] }
  | .deliver =>
    match s.inFlight with
    | [] => s
    | message :: inFlight =>
      { s with
        inFlight
        host := receive id s.host message
        received := s.received ++ message.cap?.toList }
  | .host op env => { s with host := Qos.step s.host (op, env) }

/-- The connection of the viewer is opened on a host. -/
def start (viewer : Viewer) (host : VideoQoS) (env : Env) : FpsLoop where
  viewer
  host := host.onConnectionOpen env id

/-- The caps that are under way. -/
def pending (s : FpsLoop) : List Nat := s.inFlight.filterMap ToHost.cap?

/-- All that the viewer has reported. -/
def reports (s : FpsLoop) : List Nat := s.received ++ s.pending

/-- When the viewer asked for a fresh picture of the display. -/
def refreshed (s : FpsLoop) (display : Nat) : List Nat :=
  (s.refreshes.filter (·.1 = display)).map (·.2)

end FpsLoop

/-- The operation is not about the connection of the viewer. -/
def Foreign (id : Int) : Op → Prop
  | .onConnectionOpen other | .onConnectionClose other | .userCustomFps other _
  | .userAutoAdjustFps other _ => other ≠ id
  | _ => True

def LoopEvent.Proper (id : Int) : LoopEvent → Prop
  | .host op _ => Foreign id op
  | _ => True

variable {q : VideoQoS} {users : Users} {id : Int}

def recorded (users : Users) (id : Int) : Option (Option Nat) :=
  users[id]?.map UserData.autoAdjustFps

theorem recorded_modify (j : Int) (f : UserData → UserData)
    (same : ∀ u, (f u).autoAdjustFps = u.autoAdjustFps) :
    recorded (users.modify j f) id = recorded users id := by
  unfold recorded
  rw [ExtTreeMap.getElem?_modify]
  split <;> rename_i own
  · rw [Std.LawfulEqCmp.eq_of_compare own, Option.map_map]
    exact congrFun (congrArg Option.map (funext same)) _
  · rfl

theorem recorded_adjustRatio (q : VideoQoS) (env : Env) (dynamicScreen : Bool) :
    recorded (q.adjustRatio env dynamicScreen).users id = recorded q.users id := by
  rw [(adjustRatio_keeps q env dynamicScreen).2]

theorem recorded_autoAdjust {q : VideoQoS} {n : Nat} (present : (recorded q.users id).isSome)
    (range : minFps ≤ n ∧ n ≤ maxFps) :
    recorded (q.userAutoAdjustFps id n).users id = some (some n) := by
  have inside : ¬(n < minFps || maxFps < n) = true := by
    simp only [Bool.or_eq_true, decide_eq_true_eq]
    omega
  unfold VideoQoS.userAutoAdjustFps recorded at *
  rw [if_neg inside]
  simp only
  rw [ExtTreeMap.getElem?_modify_self]
  obtain ⟨r, found⟩ := Option.isSome_iff_exists.mp present
  obtain ⟨u, its, -⟩ := Option.map_eq_some_iff.mp found
  rw [its]
  rfl

/-- What is not about the viewer leaves its record alone. -/
theorem recorded_step {op : Op} (env : Env) (foreign : Foreign id op)
    (present : (recorded q.users id).isSome) :
    recorded (Qos.step q (op, env)).users id = recorded q.users id := by
  cases op with
  | onConnectionOpen other =>
    unfold recorded
    simp only [Qos.step, VideoQoS.onConnectionOpen]
    rw [TreeMaps.insert_of_ne (Ne.symm foreign)]
  | onConnectionClose other =>
    simp only [Qos.step, VideoQoS.onConnectionClose]
    have kept : (q.users.erase other)[id]? = q.users[id]? := TreeMaps.erase_of_ne (Ne.symm foreign)
    split <;> rename_i empty
    · rw [ExtTreeMap.isEmpty_iff] at empty
      rw [empty] at kept
      rw [recorded, ← kept] at present
      simp at present
    · exact congrArg (Option.map _) kept
  | userCustomFps other fps =>
    simp only [Qos.step, VideoQoS.userCustomFps]
    split
    · rfl
    · exact recorded_modify other _ fun _ => rfl
  | userAutoAdjustFps other fps =>
    simp only [Qos.step, VideoQoS.userAutoAdjustFps]
    split
    · rfl
    · unfold recorded
      simp only
      rw [ExtTreeMap.getElem?_modify, if_neg]
      exact fun own => foreign (Std.LawfulEqCmp.eq_of_compare own)
  | userImageQuality other quality =>
    simp only [Qos.step, VideoQoS.userImageQuality]
    split
    · exact recorded_modify other _ fun _ => rfl
    · rfl
  | userRecord other v => exact recorded_modify other _ fun _ => rfl
  | userNetworkDelay other delay =>
    simp only [Qos.step, VideoQoS.userNetworkDelay]
    split
    · rw [recorded_adjustRatio]
      exact recorded_modify other _ fun _ => rfl
    · exact recorded_modify other _ fun _ => rfl
  | userDelayResponseElapsed other elapsed =>
    simp only [Qos.step, VideoQoS.userDelayResponseElapsed]
    split
    · split
      · exact recorded_modify other _ fun _ => rfl
      · exact recorded_modify other _ fun _ => rfl
    · rfl
  | updateDisplayData name sendCounter =>
    simp only [Qos.step, VideoQoS.updateDisplayData]
    split
    · split
      · rw [recorded_adjustRatio]
        rfl
      · rfl
    · rfl
  | newDisplay | removeDisplay | setSupportChangingQuality | storeBitrate => rfl
  | readRatio =>
    simp only [Qos.step, VideoQoS.readRatio]
    split <;> rfl

theorem reports_append (s : FpsLoop) (caps : List Nat) (viewer : Viewer)
    (refreshes : List (Nat × Nat)) :
    FpsLoop.reports { s with
      viewer, refreshes, inFlight := s.inFlight ++ caps.map .autoAdjustFps } =
      s.reports ++ caps := by
  have each : (caps.map ToHost.autoAdjustFps).filterMap ToHost.cap? = caps := by
    induction caps with
    | nil => rfl
    | cons cap caps ih => exact congrArg (cap :: ·) ih
  simp [FpsLoop.reports, FpsLoop.pending, List.filterMap_append, each]

theorem reports_customFps (s : FpsLoop) (viewer : Viewer) (fps : Int) :
    FpsLoop.reports { s with viewer, inFlight := s.inFlight ++ [ToHost.customFps fps] } =
      s.reports := by
  simp [FpsLoop.reports, FpsLoop.pending, ToHost.cap?]

theorem reports_deliver {s : FpsLoop} {message : ToHost} {inFlight : List ToHost}
    (first : s.inFlight = message :: inFlight) (host : VideoQoS) :
    FpsLoop.reports { s with
      inFlight, host, received := s.received ++ message.cap?.toList } = s.reports := by
  unfold FpsLoop.reports FpsLoop.pending
  rw [first]
  cases message <;> simp [List.filterMap_cons, ToHost.cap?]

/-- The two sides of the cap, when the viewer had `before` from an earlier connection. -/
structure FpsLoop.Agrees (id : Int) (before : Option Nat) (s : FpsLoop) : Prop where
  sound : Qos.Sound s.host
  recorded : recorded s.host.users id = some s.received.getLast?
  last : s.viewer.lastAutoFps = s.reports.getLast?.or before
  range : ∀ n ∈ s.reports, minFps ≤ n ∧ n ≤ maxFps
  changes : s.reports.IsChain (· ≠ ·)

namespace FpsLoop.Agrees

variable {s : FpsLoop} {before : Option Nat}

/-- One more cap is reported. -/
theorem report (agrees : s.Agrees id before) {n : Nat} (range : 1 ≤ n ∧ n ≤ 120)
    (new : some n ≠ s.viewer.lastAutoFps) {viewer : Viewer} (last : viewer.lastAutoFps = some n)
    (refreshes : List (Nat × Nat)) :
    Agrees id before { s with
      viewer, refreshes, inFlight := s.inFlight ++ [n].map .autoAdjustFps } where
  sound := agrees.sound
  recorded := agrees.recorded
  last := by
    rw [reports_append]
    simpa using last
  range := by
    rw [reports_append]
    intro m mem
    rcases List.mem_append.mp mem with old | isNew
    · exact agrees.range m old
    · rw [List.mem_singleton.mp isNew]
      exact range
  changes := by
    rw [reports_append, List.isChain_append]
    refine ⟨agrees.changes, List.isChain_singleton n, ?_⟩
    intro x isLast y isFirst same
    simp only [List.head?_cons, Option.mem_def, Option.some.injEq] at isFirst isLast
    apply new
    rw [agrees.last, isLast, Option.some_or, isFirst, same]

theorem tick (agrees : s.Agrees id before) (tick : Tick) :
    (s.step id (.tick tick)).Agrees id before := by
  simp only [FpsLoop.step]
  cases auto : (s.viewer.fpsControl tick).2.autoAdjustFps with
  | some n =>
    obtain ⟨range, new, last, -⟩ := reported auto
    exact agrees.report range new last _
  | none =>
    have same := reports_append s [] (s.viewer.fpsControl tick).1
      (s.refreshes ++ (s.viewer.fpsControl tick).2.refreshVideo.map (·, tick.now))
    rw [List.append_nil] at same
    refine ⟨agrees.sound, agrees.recorded, ?_, ?_, ?_⟩
    · rw [Option.toList_none, same, ← agrees.last]
      exact lastAutoFps_of_none auto
    · rw [Option.toList_none, same]
      exact agrees.range
    · rw [Option.toList_none, same]
      exact agrees.changes

/-- Steps of the viewer that report nothing. -/
theorem silent (agrees : s.Agrees id before) {viewer : Viewer}
    (last : viewer.lastAutoFps = s.viewer.lastAutoFps) : Agrees id before { s with viewer } where
  sound := agrees.sound
  recorded := agrees.recorded
  last := last.trans agrees.last
  range := agrees.range
  changes := agrees.changes

theorem setCustomFps (agrees : s.Agrees id before) (fps : Int) :
    (s.step id (.setCustomFps fps)).Agrees id before := by
  have same := reports_customFps s (s.viewer.setCustomFps fps) fps
  refine ⟨agrees.sound, agrees.recorded, ?_, ?_, ?_⟩
  · rw [FpsLoop.step, same]
    exact agrees.last
  · rw [FpsLoop.step, same]
    exact agrees.range
  · rw [FpsLoop.step, same]
    exact agrees.changes

theorem deliver (agrees : s.Agrees id before) : (s.step id .deliver).Agrees id before := by
  simp only [FpsLoop.step]
  split
  · exact agrees
  rename_i message inFlight first
  have same := reports_deliver first (FpsLoop.receive id s.host message)
  have present : (AutoFps.recorded s.host.users id).isSome := by rw [agrees.recorded]; rfl
  refine ⟨?_, ?_, ?_, ?_, ?_⟩
  · cases message with
    | autoAdjustFps n => exact agrees.sound.step (.userAutoAdjustFps id n) { now := 0 }
    | customFps fps =>
      simp only [FpsLoop.receive]
      split
      · exact agrees.sound.step (.userCustomFps id fps.toNat) { now := 0 }
      · exact agrees.sound
  · cases message with
    | autoAdjustFps n =>
      have mem : n ∈ s.reports := by simp [FpsLoop.reports, FpsLoop.pending, first, ToHost.cap?]
      simpa [FpsLoop.receive, ToHost.cap?] using recorded_autoAdjust present (agrees.range n mem)
    | customFps fps =>
      simp only [FpsLoop.receive, ToHost.cap?, Option.toList_none, List.append_nil]
      rw [← agrees.recorded]
      split
      · unfold VideoQoS.userCustomFps
        split
        · rfl
        · exact recorded_modify id _ fun _ => rfl
      · rfl
  · rw [same]
    exact agrees.last
  · rw [same]
    exact agrees.range
  · rw [same]
    exact agrees.changes

theorem host (agrees : s.Agrees id before) {op : Op} (env : Env) (foreign : Foreign id op) :
    (s.step id (.host op env)).Agrees id before where
  sound := agrees.sound.step op env
  recorded := by
    have present : (AutoFps.recorded s.host.users id).isSome := by rw [agrees.recorded]; rfl
    exact (recorded_step env foreign present).trans agrees.recorded
  last := agrees.last
  range := agrees.range
  changes := agrees.changes

theorem step (agrees : s.Agrees id before) {e : LoopEvent} (proper : e.Proper id) :
    (s.step id e).Agrees id before := by
  cases e with
  | tick tick => exact agrees.tick tick
  | videoFrame display =>
    refine agrees.silent ?_
    unfold Viewer.onVideoFrame
    split <;> rfl
  | decoded display formatChanged elapsed => exact agrees.silent rfl
  | setCustomFps fps => exact agrees.setCustomFps fps
  | deliver => exact agrees.deliver
  | host op env => exact agrees.host env proper

theorem start (sound : Qos.Sound q) (viewer : Viewer) (env : Env) :
    (FpsLoop.start id viewer q env).Agrees id viewer.lastAutoFps where
  sound := sound.step (.onConnectionOpen id) env
  recorded := by
    simp [FpsLoop.start, VideoQoS.onConnectionOpen, AutoFps.recorded]
  last := by simp [FpsLoop.start, FpsLoop.reports, FpsLoop.pending]
  range := by simp [FpsLoop.start, FpsLoop.reports, FpsLoop.pending]
  changes := List.isChain_nil

/-- The rate after an adjustment is within the last cap that has arrived. -/
theorem fps_le (agrees : s.Agrees id before) {op : Op} (env : Env) (foreign : Foreign id op)
    (does : adjusts s.host op = true) {n : Nat} (last : s.received.getLast? = some n) :
    (Qos.step s.host (op, env)).fps ≤ n := by
  have after := (agrees.host env foreign).recorded
  obtain ⟨u, found, its⟩ := Option.map_eq_some_iff.mp after
  have capped := (agrees.sound.adjusted op env does).capped id u found
  refine Nat.le_trans capped ?_
  have its : u.autoAdjustFps = some n := its.trans last
  simp only [cap, its]
  exact Nat.min_le_right _ _

end FpsLoop.Agrees

/-- The cap is right for what the viewer knows at the tick: within what its user asked for,
and within nine tenths of what every active display decodes. -/
def Justifies (n : Nat) (s : FpsLoop) : LoopEvent → Prop
  | .tick tick => n = 1 ∨ n ≤ checkedCustomFps s.viewer.customFps ∧
    ∀ t ∈ s.viewer.videoThreads, (countInactive tick t).active = true →
      ∃ fps, t.decodeFps = some fps ∧ 10 * n ≤ 9 * fps
  | _ => False

theorem justified_step {s : FpsLoop} {e : LoopEvent} {n : Nat}
    (mem : n ∈ (s.step id e).reports) : n ∈ s.reports ∨ Justifies n s e := by
  cases e with
  | tick tick =>
    simp only [FpsLoop.step] at mem
    rw [reports_append, List.mem_append, Option.mem_toList] at mem
    exact mem.imp_right fun auto => (reported auto).2.2.2
  | videoFrame | decoded | host => exact .inl mem
  | setCustomFps fps =>
    rw [FpsLoop.step, reports_customFps] at mem
    exact .inl mem
  | deliver =>
    simp only [FpsLoop.step] at mem
    split at mem
    · exact .inl mem
    · rename_i message inFlight first
      rw [reports_deliver first] at mem
      exact .inl mem

theorem justified_run {s : FpsLoop} (empty : s.reports = []) {es : List LoopEvent} {n : Nat}
    (mem : n ∈ (run (FpsLoop.step id) s es).reports) :
    Happened (FpsLoop.step id) (Justifies n) s es := by
  induction es using List.reverseRecOn with
  | nil =>
    rw [run_nil, empty] at mem
    cases mem
  | append_singleton es e ih =>
    rw [run_append] at mem
    rw [happened_snoc]
    exact (justified_step mem).imp_left ih

theorem agrees_run {s : FpsLoop} {before : Option Nat} (agrees : s.Agrees id before)
    {es : List LoopEvent} (proper : ∀ e ∈ es, e.Proper id) :
    (run (FpsLoop.step id) s es).Agrees id before :=
  invariant (fun _ _ agrees proper => agrees.step proper) agrees (along_of_forall_mem proper s)

/-- **The viewer's cap and the host's.** On whatever host, with whatever other viewers: the
caps that a viewer reports are rates from 1 to 120, never the same twice in a row, and
justified when they are made. The host has recorded the last one that has arrived, which is
the viewer's own once nothing is under way, and adjusts its rate to no more. -/
theorem auto_fps_agrees (now : Nat) (ops : List (Op × Env)) (env : Env) (id : Int)
    (viewer : Viewer) (es : List LoopEvent) (proper : ∀ e ∈ es, e.Proper id) :
    let s₀ := FpsLoop.start id viewer (run Qos.step (.default now) ops) env
    let s := run (FpsLoop.step id) s₀ es
    (∀ n ∈ s.reports, (1 ≤ n ∧ n ≤ 120) ∧ Happened (FpsLoop.step id) (Justifies n) s₀ es) ∧
      s.reports.IsChain (· ≠ ·) ∧
      recorded s.host.users id = some s.received.getLast? ∧
      (s.pending = [] → s.received ≠ [] →
        recorded s.host.users id = some s.viewer.lastAutoFps) ∧
      ∀ op env n, Foreign id op → adjusts s.host op = true → s.received.getLast? = some n →
        (Qos.step s.host (op, env)).fps ≤ n := by
  intro s₀ s
  have agrees : s.Agrees id viewer.lastAutoFps :=
    agrees_run (.start (sound_run now ops) viewer env) proper
  refine ⟨fun n mem => ⟨agrees.range n mem, justified_run rfl mem⟩, agrees.changes,
    agrees.recorded, ?_, fun op env n foreign does last => agrees.fps_le env foreign does last⟩
  intro arrived some'
  rw [agrees.recorded, agrees.last, FpsLoop.reports, arrived, List.append_nil,
    List.getLast?_eq_some_getLast some', Option.some_or]

/-- Two displays decode at different speeds; the caps are on their way when the host's rate
is adjusted for another viewer. -/
def slowDisplay : List LoopEvent :=
  [LoopEvent.host (.onConnectionOpen 2) { now := 0 }, .videoFrame 0, .videoFrame 1] ++
    List.replicate 13 (LoopEvent.decoded 0 false 20000000) ++
    List.replicate 13 (LoopEvent.decoded 1 false 50000000) ++
    [LoopEvent.tick { now := 1000, realFps := fun _ => 20 }, .setCustomFps 60, .deliver,
      .host (.userNetworkDelay 2 30) { now := 3000 },
      .tick { now := 2000, realFps := fun _ => 20, queueLen := fun d => 20 * d }, .deliver,
      .deliver]

theorem slowDisplay_proper : ∀ e ∈ slowDisplay, e.Proper 1 := by
  intro e mem
  simp only [slowDisplay, List.mem_append, List.mem_cons, List.not_mem_nil, or_false,
    List.mem_replicate] at mem
  rcases mem with (((rfl | rfl | rfl) | ⟨-, rfl⟩) | ⟨-, rfl⟩) | rfl | rfl | rfl | rfl | rfl | rfl |
    rfl
  · exact (by decide : (2 : Int) ≠ 1)
  all_goals trivial

theorem auto_fps_agrees_slowDisplay :
    let s := run (FpsLoop.step 1) (.start 1 {} (run Qos.step (.default 0) []) { now := 0 })
      slowDisplay
    s.reports = [18, 9] ∧ recorded s.host.users 1 = some (some 9) ∧
      (Qos.step s.host (.userNetworkDelay 2 30, { now := 4000 })).fps ≤ 9 := by
  intro s
  have received : s.received = [18, 9] := by decide +kernel
  have pending : s.pending = [] := by decide +kernel
  have last : s.viewer.lastAutoFps = some 9 := by decide +kernel
  obtain ⟨-, -, -, same, within⟩ := auto_fps_agrees 0 [] { now := 0 } 1 {} slowDisplay
    slowDisplay_proper
  refine ⟨by rw [FpsLoop.reports, received, pending]; rfl, ?_, ?_⟩
  · rw [← last]
    exact same pending (by rw [show _ = _ from received]; simp)
  · exact within (.userNetworkDelay 2 30) { now := 4000 } 9 trivial rfl
      (by rw [show _ = _ from received]; rfl)

end CamelliaRemote.AutoFps
