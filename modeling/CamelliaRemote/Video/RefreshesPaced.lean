import CamelliaRemote.Video.AutoFpsLoop
import Mathlib.Data.List.Nodup

namespace CamelliaRemote.AutoFps
open Qos Runs

variable {id : Int}

/-- The gap between two refreshes of a display: more than ten whole seconds. -/
def Apart (a b : Nat) : Prop := a + 11000 ≤ b

theorem fpsTrending_keeps (len last limited : Nat) (t : VideoThread) :
    (fpsTrending len last limited t).1.display = t.display ∧
      (fpsTrending len last limited t).1.fpsControl.refreshTimes = t.fpsControl.refreshTimes ∧
      (fpsTrending len last limited t).1.fpsControl.lastRefreshInstant =
        t.fpsControl.lastRefreshInstant := by
  unfold fpsTrending
  simp only
  split
  · exact ⟨rfl, rfl, rfl⟩
  · split_ifs <;> exact ⟨rfl, rfl, rfl⟩

/-- The control of a display knows its refreshes. -/
structure Knows (times : List Nat) (c : FpsControl) : Prop where
  count : c.refreshTimes = times.length
  most : times.length ≤ 20
  last : c.lastRefreshInstant = times.getLast?
  apart : times.IsChain Apart

theorem Knows.congr {times : List Nat} {c c' : FpsControl} (knows : Knows times c)
    (count : c'.refreshTimes = c.refreshTimes)
    (last : c'.lastRefreshInstant = c.lastRefreshInstant) : Knows times c' :=
  ⟨count.trans knows.count, knows.most, last.trans knows.last, knows.apart⟩

theorem Knows.refresh {times : List Nat} {t : VideoThread} (knows : Knows times t.fpsControl)
    (tick : Tick) (minFps : Nat) :
    Knows (times ++ if wantsRefresh tick minFps t then [tick.now] else [])
      (refresh tick minFps t).fpsControl := by
  unfold AutoFps.refresh
  split <;> rename_i wants
  · simp only [wantsRefresh, Bool.and_eq_true, Bool.or_eq_true, decide_eq_true_eq] at wants
    obtain ⟨few, -, due⟩ := wants
    refine ⟨?_, ?_, ?_, ?_⟩
    · simp [knows.count]
    · rw [List.length_append, ← knows.count]
      simp only [List.length_cons, List.length_nil]
      omega
    · simp
    · rw [List.isChain_append]
      refine ⟨knows.apart, List.isChain_singleton _, ?_⟩
      intro a isLast b isFirst
      simp only [List.head?_cons, Option.mem_def, Option.some.injEq] at isFirst isLast
      subst isFirst
      rcases due with none | late
      · have empty : times = [] := by
          rw [knows.count] at none
          exact List.eq_nil_of_length_eq_zero none
        simp [empty] at isLast
      · rw [knows.last, isLast] at late
        simp only [Option.any_some, decide_eq_true_eq] at late
        unfold Apart
        omega
  · rw [List.append_nil]
    exact knows

/-- Each display has one thread, and its control knows all refreshes of the display. -/
structure FpsLoop.Paced (s : FpsLoop) : Prop where
  displays : (s.viewer.videoThreads.map (·.display)).Nodup
  knows : ∀ t ∈ s.viewer.videoThreads, Knows (s.refreshed t.display) t.fpsControl
  others : ∀ display, (∀ t ∈ s.viewer.videoThreads, t.display ≠ display) →
    s.refreshed display = []

theorem refreshed_append (s : FpsLoop) (threads : List VideoThread) (now display : Nat)
    (viewer : Viewer) (inFlight : List ToHost) :
    FpsLoop.refreshed { s with
      viewer, inFlight
      refreshes := s.refreshes ++ (threads.map (·.display)).map (·, now) } display =
      s.refreshed display ++
        (threads.filter (·.display = display)).map fun _ => now := by
  have own : ((threads.map (·.display)).map (·, now)).filter (·.1 = display) =
      (threads.filter (·.display = display)).map fun t => (t.display, now) := by
    rw [List.map_map, List.filter_map]
    rfl
  rw [FpsLoop.refreshed, List.filter_append, own, List.map_append, List.map_map]
  rfl

theorem filter_display {threads : List VideoThread} (nodup : (threads.map (·.display)).Nodup)
    {t : VideoThread} (mem : t ∈ threads) : threads.filter (·.display = t.display) = [t] := by
  induction threads with
  | nil => cases mem
  | cons u us ih =>
    rw [List.map_cons, List.nodup_cons] at nodup
    rcases List.mem_cons.mp mem with rfl | later
    · have none' : us.filter (·.display = t.display) = [] := by
        rw [List.filter_eq_nil_iff]
        intro u isIn same
        exact nodup.1 (List.mem_map.mpr ⟨u, isIn, of_decide_eq_true same⟩)
      rw [List.filter_cons_of_pos (by simp), none']
    · have other : u.display ≠ t.display := fun same =>
        nodup.1 (same ▸ List.mem_map_of_mem later)
      rw [List.filter_cons_of_neg (by simpa using other), ih nodup.2 later]

namespace FpsLoop.Paced

variable {s : FpsLoop}

/-- Threads that change in nothing that a refresh is about. -/
theorem map (paced : s.Paced) (g : VideoThread → VideoThread)
    (keeps : ∀ t, (g t).display = t.display ∧
      (g t).fpsControl.refreshTimes = t.fpsControl.refreshTimes ∧
      (g t).fpsControl.lastRefreshInstant = t.fpsControl.lastRefreshInstant)
    {viewer : Viewer} (threads : viewer.videoThreads = s.viewer.videoThreads.map g) :
    Paced { s with viewer } := by
  refine ⟨?_, ?_, ?_⟩
  · have same : (s.viewer.videoThreads.map g).map (·.display) =
        s.viewer.videoThreads.map (·.display) := by
      rw [List.map_map]
      exact List.map_congr_left fun t _ => (keeps t).1
    rw [threads, same]
    exact paced.displays
  · intro t mem
    rw [threads] at mem
    obtain ⟨u, isIn, rfl⟩ := List.mem_map.mp mem
    have knows := paced.knows u isIn
    rw [← (keeps u).1] at knows
    exact knows.congr (keeps u).2.1 (keeps u).2.2
  · intro display absent
    refine paced.others display fun u isIn => ?_
    rw [← (keeps u).1]
    exact absent (g u) (threads ▸ List.mem_map_of_mem isIn)

/-- The displays that are due are refreshed. -/
theorem refresh (paced : s.Paced) (tick : Tick) (minFps : Nat) (inFlight : List ToHost)
    {viewer : Viewer}
    (threads : viewer.videoThreads = s.viewer.videoThreads.map (AutoFps.refresh tick minFps)) :
    Paced { s with
      viewer, inFlight
      refreshes := s.refreshes ++ ((s.viewer.videoThreads.filter
        (wantsRefresh tick minFps)).map (·.display)).map (·, tick.now) } := by
  have display (t : VideoThread) : (AutoFps.refresh tick minFps t).display = t.display := by
    unfold AutoFps.refresh
    split <;> rfl
  refine ⟨?_, ?_, ?_⟩
  · have same : (s.viewer.videoThreads.map (AutoFps.refresh tick minFps)).map (·.display) =
        s.viewer.videoThreads.map (·.display) := by
      rw [List.map_map]
      exact List.map_congr_left fun t _ => display t
    rw [threads, same]
    exact paced.displays
  · intro t mem
    rw [threads] at mem
    obtain ⟨u, isIn, rfl⟩ := List.mem_map.mp mem
    have due : (((s.viewer.videoThreads.filter (wantsRefresh tick minFps)).filter
        (·.display = u.display)).map fun _ => tick.now) =
          if wantsRefresh tick minFps u then [tick.now] else [] := by
      rw [List.filter_comm, filter_display paced.displays isIn]
      by_cases wants : wantsRefresh tick minFps u = true <;> simp [wants]
    rw [display, refreshed_append, due]
    exact (paced.knows u isIn).refresh tick minFps
  · intro d absent
    have other : ∀ u ∈ s.viewer.videoThreads, u.display ≠ d := by
      intro u isIn
      rw [← display u]
      exact absent _ (threads ▸ List.mem_map_of_mem isIn)
    have none' : (s.viewer.videoThreads.filter (wantsRefresh tick minFps)).filter
        (·.display = d) = [] := by
      rw [List.filter_eq_nil_iff]
      intro u isIn
      simpa using other u (List.mem_of_mem_filter isIn)
    rw [refreshed_append, none', paced.others d other]
    rfl

theorem tick (paced : s.Paced) (tick : Tick) : (s.step id (.tick tick)).Paced := by
  simp only [FpsLoop.step, Viewer.fpsControl]
  split
  · have counted : Paced { s with viewer := { s.viewer with
        videoThreads := s.viewer.videoThreads.map (countInactive tick) } } :=
      paced.map (countInactive tick) (fun _ => ⟨rfl, rfl, rfl⟩) rfl
    simpa using counted
  · rename_i minFps _
    generalize limitedFps tick.direct minFps _ = limited
    generalize autoFps _ limited _ _ = auto
    generalize s.viewer.lastAutoFps.getD _ = last
    let trend (t : VideoThread) : VideoThread :=
      (fpsTrending (tick.queueLen t.display) last limited (countInactive tick t)).1
    have trended : Paced { s with viewer := { s.viewer with
        videoThreads := s.viewer.videoThreads.map trend } } :=
      paced.map trend (fun t => fpsTrending_keeps _ last limited (countInactive tick t)) rfl
    have same : ((s.viewer.videoThreads.map (countInactive tick)).map fun t =>
        fpsTrending (tick.queueLen t.display) last limited t).map (·.1) =
        s.viewer.videoThreads.map trend := by
      rw [List.map_map, List.map_map]
      rfl
    simp only [same]
    exact trended.refresh tick minFps _ rfl

theorem step (paced : s.Paced) (e : LoopEvent) : (s.step id e).Paced := by
  cases e with
  | tick tick => exact paced.tick tick
  | videoFrame display =>
    simp only [FpsLoop.step, Viewer.onVideoFrame]
    split <;> rename_i known
    · exact paced
    · have other : ∀ t ∈ s.viewer.videoThreads, t.display ≠ display := by simpa using known
      refine ⟨?_, ?_, ?_⟩
      · rw [List.map_append, List.nodup_append]
        refine ⟨paced.displays, List.nodup_singleton _, ?_⟩
        intro d mem d' last same
        obtain ⟨t, isIn, rfl⟩ := List.mem_map.mp mem
        exact other t isIn (same.trans (List.mem_singleton.mp last))
      · intro t mem
        rcases List.mem_append.mp mem with old | new
        · exact paced.knows t old
        · rw [List.mem_singleton.mp new]
          show Knows (s.refreshed display) {}
          rw [paced.others display other]
          exact ⟨rfl, Nat.zero_le 20, rfl, List.isChain_nil⟩
      · intro d absent
        exact paced.others d fun t mem => absent t (List.mem_append_left _ mem)
  | decoded display formatChanged elapsed =>
    refine paced.map (fun t => if t.display = display then fpsCalculate t formatChanged elapsed
      else t) (fun t => ?_) rfl
    split
    · unfold fpsCalculate
      simp only
      split_ifs <;> exact ⟨rfl, rfl, rfl⟩
    · exact ⟨rfl, rfl, rfl⟩
  | setCustomFps fps => exact ⟨paced.displays, paced.knows, paced.others⟩
  | deliver =>
    simp only [FpsLoop.step]
    split
    · exact paced
    · exact ⟨paced.displays, paced.knows, paced.others⟩
  | host op env => exact ⟨paced.displays, paced.knows, paced.others⟩

end FpsLoop.Paced

/-- **A slow display is refreshed sparingly.** In a connection a viewer asks for a fresh picture
of a display to shorten its queue at most 20 times, and more than ten seconds apart. -/
theorem refreshes_paced (id : Int) (customFps lastAutoFps : Option Nat) (host : VideoQoS)
    (env : Env) (es : List LoopEvent) (display : Nat) :
    let s := run (FpsLoop.step id) (.start id { customFps, lastAutoFps } host env) es
    (s.refreshed display).length ≤ 20 ∧ (s.refreshed display).IsChain Apart := by
  intro s
  have start : (FpsLoop.start id { customFps, lastAutoFps } host env).Paced :=
    ⟨List.nodup_nil, nofun, fun _ _ => rfl⟩
  have paced : s.Paced :=
    invariant (fun _ e paced _ => paced.step e) start (along_true _ es)
  by_cases known : ∃ t ∈ s.viewer.videoThreads, t.display = display
  · obtain ⟨t, mem, rfl⟩ := known
    exact ⟨(paced.knows t mem).most, (paced.knows t mem).apart⟩
  · have nothing := paced.others display fun t mem same => known ⟨t, mem, same⟩
    rw [nothing]
    exact ⟨Nat.zero_le 20, List.isChain_nil⟩

end CamelliaRemote.AutoFps
