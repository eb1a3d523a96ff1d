import CamelliaRemote.Video.Qos

namespace CamelliaRemote.Qos
open Std (ExtTreeMap)

/-- What a viewer allows: the rate the user asked for or 30, and no more than is decoded. -/
def cap (u : UserData) : Nat :=
  match u.autoAdjustFps with
  | some auto => min (u.customFps.getD fpsDefault) auto
  | none => u.customFps.getD fpsDefault

/-- The rates of a viewer were checked when they came in. -/
structure Checked (u : UserData) : Prop where
  custom : ∀ fps, u.customFps = some fps → minFps ≤ fps ∧ fps ≤ maxFps
  auto : ∀ fps, u.autoAdjustFps = some fps → minFps ≤ fps ∧ fps ≤ maxFps

def AllChecked (users : Users) : Prop := ∀ (id : Int) u, users[id]? = some u → Checked u

structure Sound (q : VideoQoS) : Prop where
  low : minFps ≤ q.fps
  high : q.fps ≤ maxFps
  users : AllChecked q.users

variable {q : VideoQoS} {env : Env} {id : Int} {u : UserData} {users : Users}

theorem le_clamp {low high : Nat} (n : Nat) (ordered : low ≤ high) : low ≤ clamp n low high := by
  unfold clamp
  split
  · omega
  · split <;> omega

theorem clamp_le {low high : Nat} (n : Nat) (ordered : low ≤ high) : clamp n low high ≤ high := by
  unfold clamp
  split
  · omega
  · split <;> omega

theorem clamp_le_of_le {n low high most : Nat} (below : n ≤ most) (room : low ≤ most) :
    clamp n low high ≤ most := by
  unfold clamp
  split
  · omega
  · split <;> omega

theorem mem_values (found : users[id]? = some u) : u ∈ TreeMaps.values users :=
  List.mem_map.mpr ⟨(id, u), ExtTreeMap.mem_toList_iff_getElem?_eq_some.mpr found, rfl⟩

theorem min?_getD_le {l : List Nat} {n : Nat} (mem : n ∈ l) (d : Nat) : l.min?.getD d ≤ n := by
  cases least : l.min? with
  | none =>
    rw [List.min?_eq_none_iff.mp least] at mem
    cases mem
  | some m => exact (List.min?_eq_some_iff.mp least).2 n mem

theorem Checked.userFps_eq (h : Checked u) : userFps u = cap u := by
  have positive : u.customFps.getD fpsDefault ≠ 0 := by
    cases custom : u.customFps with
    | none => decide
    | some fps =>
      have bound := (h.custom fps custom).1
      rw [minFps] at bound
      rw [Option.getD_some]
      omega
  unfold userFps cap
  generalize u.customFps.getD fpsDefault = asked at positive
  cases u.autoAdjustFps with
  | none => rfl
  | some auto =>
    simp only [Bool.or_eq_true, decide_eq_true_eq, positive, false_or]
    split <;> omega

theorem Checked.minFps_le (h : Checked u) : minFps ≤ cap u := by
  have asked : minFps ≤ u.customFps.getD fpsDefault := by
    cases custom : u.customFps with
    | none => decide
    | some fps => exact (h.custom fps custom).1
  unfold cap
  split
  · rename_i auto reported
    exact Nat.le_min.mpr ⟨asked, (h.auto auto reported).1⟩
  · exact asked

theorem minFps_le_highestFps (q : VideoQoS) : minFps ≤ q.highestFps := le_clamp _ (by decide)

theorem highestFps_le_maxFps (q : VideoQoS) : q.highestFps ≤ maxFps := clamp_le _ (by decide)

/-- The highest rate is within every cap. -/
theorem highestFps_le_cap (checked : AllChecked q.users) (found : q.users[id]? = some u) :
    q.highestFps ≤ cap u := by
  have own := checked id u found
  refine clamp_le_of_le (min?_getD_le ?_ _) own.minFps_le
  rw [List.mem_filter, List.mem_map]
  refine ⟨⟨u, mem_values found, own.userFps_eq⟩, ?_⟩
  simpa using own.minFps_le

theorem minFps_le_adjustFps (q : VideoQoS) (env : Env) : minFps ≤ (q.adjustFps env).fps :=
  le_clamp _ (minFps_le_highestFps q)

theorem adjustFps_le_highestFps (q : VideoQoS) (env : Env) :
    (q.adjustFps env).fps ≤ q.highestFps :=
  clamp_le _ (minFps_le_highestFps q)

/-- A viewer who does not answer slows all down. -/
theorem adjustFps_le_of_delayed (found : q.users[id]? = some u)
    (delayed : u.delay.responseDelayed = true) : (q.adjustFps env).fps ≤ minFps + 1 := by
  have some' : (TreeMaps.values q.users).any (·.delay.responseDelayed) = true :=
    List.any_eq_true.mpr ⟨u, mem_values found, delayed⟩
  refine clamp_le_of_le ?_ (Nat.le_succ _)
  simp only [some', if_true]
  split <;> split <;> try split
  all_goals omega

theorem adjustRatio_keeps (q : VideoQoS) (env : Env) (dynamicScreen : Bool) :
    (q.adjustRatio env dynamicScreen).fps = q.fps ∧
      (q.adjustRatio env dynamicScreen).users = q.users := by
  unfold VideoQoS.adjustRatio
  split
  · exact ⟨rfl, rfl⟩
  · split
    · exact ⟨rfl, rfl⟩
    · exact ⟨rfl, rfl⟩

/-- What an operation that ends in `adjust_fps` leaves. -/
structure Adjusted (q : VideoQoS) : Prop where
  low : minFps ≤ q.fps
  capped : ∀ (id : Int) u, q.users[id]? = some u → q.fps ≤ cap u
  delayed : ∀ (id : Int) u, q.users[id]? = some u → u.delay.responseDelayed = true →
    q.fps ≤ minFps + 1

theorem adjusted_adjustFps (checked : AllChecked q.users) (env : Env) :
    Adjusted (q.adjustFps env) := by
  constructor
  · exact minFps_le_adjustFps q env
  · intro id u found
    exact Nat.le_trans (adjustFps_le_highestFps q env) (highestFps_le_cap checked found)
  · intro id u found late
    exact adjustFps_le_of_delayed found late

theorem sound_adjustFps (checked : AllChecked q.users) (env : Env) : Sound (q.adjustFps env) :=
  ⟨minFps_le_adjustFps q env,
    Nat.le_trans (adjustFps_le_highestFps q env) (highestFps_le_maxFps q), checked⟩

/-- The two depend on the rate and the users only. -/
theorem Adjusted.congr {p : VideoQoS} (h : Adjusted q) (fps : p.fps = q.fps)
    (users : p.users = q.users) : Adjusted p := by
  constructor
  · exact fps ▸ h.low
  · intro id u found
    rw [users] at found
    exact fps ▸ h.capped id u found
  · intro id u found late
    rw [users] at found
    exact fps ▸ h.delayed id u found late

theorem Sound.congr {p : VideoQoS} (h : Sound q) (fps : p.fps = q.fps)
    (users : p.users = q.users) : Sound p :=
  ⟨fps ▸ h.low, fps ▸ h.high, users ▸ h.users⟩

theorem AllChecked.modify (checked : AllChecked users) {f : UserData → UserData}
    (keeps : ∀ u, Checked u → Checked (f u)) (id : Int) : AllChecked (users.modify id f) := by
  intro other u found
  rw [ExtTreeMap.getElem?_modify] at found
  split at found
  · obtain ⟨old, here, rfl⟩ := Option.map_eq_some_iff.mp found
    exact keeps old (checked id old here)
  · exact checked other u found

theorem AllChecked.keepRates (checked : AllChecked users) {f : UserData → UserData}
    (custom : ∀ u, (f u).customFps = u.customFps)
    (auto : ∀ u, (f u).autoAdjustFps = u.autoAdjustFps) (id : Int) :
    AllChecked (users.modify id f) := by
  refine checked.modify (fun u own => ?_) id
  constructor
  · rw [custom u]
    exact own.custom
  · rw [auto u]
    exact own.auto

theorem AllChecked.insert (checked : AllChecked users) (id : Int) :
    AllChecked (users.insert id {}) := by
  intro other u found
  rcases TreeMaps.of_insert found with ⟨-, rfl⟩ | ⟨-, old⟩
  · constructor <;> exact fun fps set => nomatch set
  · exact checked other u old

theorem AllChecked.erase (checked : AllChecked users) (id : Int) :
    AllChecked (users.erase id) := by
  intro other u found
  exact checked other u (TreeMaps.of_erase found).2

theorem sound_default (now : Nat) : Sound (.default now) := by
  constructor
  · change minFps ≤ fpsDefault
    decide
  · change fpsDefault ≤ maxFps
    decide
  · intro id u found
    simp [VideoQoS.default] at found

theorem in_range {fps : Nat} (inside : ¬(fps < minFps || maxFps < fps) = true) :
    minFps ≤ fps ∧ fps ≤ maxFps := by
  simp only [Bool.or_eq_true, decide_eq_true_eq, not_or, Nat.not_lt] at inside
  exact inside

theorem Checked.withCustomFps {fps : Nat} (h : Checked u) (inside : minFps ≤ fps ∧ fps ≤ maxFps) :
    Checked { u with customFps := some fps } :=
  ⟨fun _ set => Option.some.inj set ▸ inside, h.auto⟩

theorem Checked.withAutoAdjustFps {fps : Nat} (h : Checked u)
    (inside : minFps ≤ fps ∧ fps ≤ maxFps) : Checked { u with autoAdjustFps := some fps } :=
  ⟨h.custom, fun _ set => Option.some.inj set ▸ inside⟩

/-- What an operation does to the rate and to the users. -/
inductive OpCase (q : VideoQoS) (op : Op) (env : Env) : VideoQoS → Prop where
  | restored (free : adjusts q op = false) : OpCase q op env (.default env.now)
  | kept (p : VideoQoS) (free : adjusts q op = false) (fps : p.fps = q.fps)
      (checked : AllChecked q.users → AllChecked p.users) : OpCase q op env p
  | adjusted (between p : VideoQoS) (checked : AllChecked q.users → AllChecked between.users)
      (fps : p.fps = (between.adjustFps env).fps) (users : p.users = between.users) :
      OpCase q op env p

theorem userNetworkDelay_case (q : VideoQoS) (env : Env) (id : Int) (delay : Nat) :
    OpCase q (.userNetworkDelay id delay) env (q.userNetworkDelay env id delay) := by
  unfold VideoQoS.userNetworkDelay
  simp only
  generalize hu : q.users.modify id _ = users
  have checked : AllChecked q.users → AllChecked users := by
    intro checked
    rw [← hu]
    apply checked.keepRates <;> exact fun _ => rfl
  split
  · have keeps := adjustRatio_keeps (VideoQoS.adjustFps { q with users } env) env false
    exact .adjusted { q with users } _ checked keeps.1 keeps.2
  · exact .adjusted { q with users } _ checked rfl rfl

theorem userDelayResponseElapsed_case (q : VideoQoS) (env : Env) (id : Int) (elapsed : Nat) :
    OpCase q (.userDelayResponseElapsed id elapsed) env
      (q.userDelayResponseElapsed env id elapsed) := by
  unfold VideoQoS.userDelayResponseElapsed
  split
  · rename_i here
    simp only
    generalize hu : q.users.modify id _ = users
    have checked : AllChecked q.users → AllChecked users := by
      intro checked
      rw [← hu]
      apply checked.keepRates <;> exact fun _ => rfl
    split
    · exact .adjusted { q with users } _ checked rfl rfl
    · rename_i quick
      exact .kept _ (by simp_all [adjusts]) rfl checked
  · rename_i absent
    exact .kept _ (by simp_all [adjusts]) rfl (fun checked => checked)

theorem updateDisplayData_case (q : VideoQoS) (env : Env) (name : String) (sendCounter : Nat) :
    OpCase q (.updateDisplayData name sendCounter) env
      (q.updateDisplayData env name sendCounter) := by
  unfold VideoQoS.updateDisplayData
  simp only
  generalize q.displays.modify name _ = displays
  split
  · split
    · generalize ExtTreeMap.map _ _ = displays'
      generalize List.any _ _ = dynamicScreen
      have keeps := adjustRatio_keeps
        { VideoQoS.adjustFps { q with displays } env with displays := displays' } env dynamicScreen
      exact .adjusted { q with displays } _ (fun checked => checked) keeps.1 keeps.2
    · exact .adjusted { q with displays } _ (fun checked => checked) rfl rfl
  · exact .adjusted { q with displays } _ (fun checked => checked) rfl rfl

/-- Every operation, by what it does to the rate. -/
theorem op_cases (q : VideoQoS) (op : Op) (env : Env) : OpCase q op env (step q (op, env)) := by
  cases op with
  | onConnectionOpen id => exact .kept _ rfl rfl fun checked => checked.insert id
  | onConnectionClose id =>
    simp only [step, VideoQoS.onConnectionClose]
    split
    · exact .restored rfl
    · exact .kept _ rfl rfl fun checked => checked.erase id
  | userCustomFps id fps =>
    simp only [step, VideoQoS.userCustomFps]
    split
    · exact .kept _ rfl rfl fun checked => checked
    · rename_i inside
      refine .kept _ rfl rfl fun checked => ?_
      apply checked.modify
      exact fun u own => own.withCustomFps (in_range inside)
  | userAutoAdjustFps id fps =>
    simp only [step, VideoQoS.userAutoAdjustFps]
    split
    · exact .kept _ rfl rfl fun checked => checked
    · rename_i inside
      refine .kept _ rfl rfl fun checked => ?_
      apply checked.modify
      exact fun u own => own.withAutoAdjustFps (in_range inside)
  | userImageQuality id imageQuality =>
    simp only [step, VideoQoS.userImageQuality]
    split
    · refine .kept _ rfl rfl fun checked => ?_
      apply checked.keepRates <;> exact fun _ => rfl
    · exact .kept _ rfl rfl fun checked => checked
  | userRecord id v =>
    refine .kept _ rfl rfl fun checked => ?_
    apply checked.keepRates <;> exact fun _ => rfl
  | userNetworkDelay id delay => exact userNetworkDelay_case q env id delay
  | userDelayResponseElapsed id elapsed => exact userDelayResponseElapsed_case q env id elapsed
  | newDisplay name => exact .kept _ rfl rfl fun checked => checked
  | removeDisplay name => exact .kept _ rfl rfl fun checked => checked
  | setSupportChangingQuality name support => exact .kept _ rfl rfl fun checked => checked
  | updateDisplayData name sendCounter => exact updateDisplayData_case q env name sendCounter
  | storeBitrate bitrate => exact .kept _ rfl rfl fun checked => checked
  | readRatio =>
    simp only [step, VideoQoS.readRatio]
    split
    · exact .kept _ rfl rfl fun checked => checked
    · exact .kept _ rfl rfl fun checked => checked

theorem Sound.step (h : Sound q) (op : Op) (env : Env) : Sound (step q (op, env)) := by
  have does := op_cases q op env
  generalize Qos.step q (op, env) = after at does
  cases does with
  | restored => exact sound_default env.now
  | kept p free fps checked => exact ⟨fps ▸ h.low, fps ▸ h.high, checked h.users⟩
  | adjusted between p checked fps users =>
    exact (sound_adjustFps (checked h.users) env).congr fps users

theorem Sound.adjusted (h : Sound q) (op : Op) (env : Env) (does : adjusts q op = true) :
    Adjusted (Qos.step q (op, env)) := by
  have cases' := op_cases q op env
  generalize Qos.step q (op, env) = after at cases'
  cases cases' with
  | restored free => exact absurd (does.symm.trans free) (by decide)
  | kept p free fps checked => exact absurd (does.symm.trans free) (by decide)
  | adjusted between p checked fps users =>
    exact (adjusted_adjustFps (checked h.users) env).congr fps users

theorem sound_run (now : Nat) (ops : List (Op × Env)) :
    Sound (Runs.run step (.default now) ops) := by
  induction ops using List.reverseRecOn with
  | nil => exact sound_default now
  | append_singleton ops e ih =>
    rw [Runs.run_append]
    exact ih.step e.1 e.2

/-- **The frame rate serves every viewer.** In any run the rate is one of 1 to 120; after
an operation that adjusts it, it is within the cap of every viewer, and within 2 while one
of them does not answer; and when the last viewer leaves, all is as at the start. -/
theorem fps_bounded (now : Nat) (ops : List (Op × Env)) :
    let q := Runs.run step (.default now) ops
    (1 ≤ q.fps ∧ q.fps ≤ 120) ∧
    (∀ op env, adjusts q op = true →
      let after := step q (op, env)
      1 ≤ after.fps ∧
      (∀ (id : Int) u, after.users[id]? = some u → after.fps ≤ cap u) ∧
      ∀ (id : Int) u, after.users[id]? = some u → u.delay.responseDelayed = true →
        after.fps ≤ 2) ∧
    ∀ id env, (∀ other : Int, other ≠ id → q.users[other]? = none) →
      step q (.onConnectionClose id, env) = .default env.now := by
  intro q
  have sound := sound_run now ops
  refine ⟨⟨sound.low, sound.high⟩, fun op env does => ?_, fun id env last => ?_⟩
  · have after := sound.adjusted op env does
    exact ⟨after.low, after.capped, after.delayed⟩
  · have empty : (q.users.erase id).isEmpty = true := by
      rw [ExtTreeMap.isEmpty_iff]
      apply ExtTreeMap.ext_getElem?
      intro other
      rw [ExtTreeMap.getElem?_erase, ExtTreeMap.getElem?_empty]
      split
      · rfl
      · rename_i differ
        exact last other fun same => differ (by rw [same]; exact Std.ReflCmp.compare_self)
    simp only [step, VideoQoS.onConnectionClose, empty, if_true]

end CamelliaRemote.Qos
