import CamelliaRemote.Lib.Runs

/-!
Restarts of the mediator, `src/rendezvous_mediator.rs`. `start_all` reads the configured servers,
clears `SHOULD_EXIT` and `MANUAL_RESTARTED`, spawns a task for each server and waits for all of
them. A task leaves when it sees `SHOULD_EXIT`, and sets it when it ends. `restart` sets both
flags. Each access to a flag and each read of the configuration is a step.
-/

namespace CamelliaRemote.Rendezvous
open Runs

/-- Where the task of a server is. -/
inductive TaskPhase where
  | running
  /-- `start` has returned, and `SHOULD_EXIT` is not set yet. -/
  | ending
  | done
  deriving DecidableEq

structure Task where
  host : String
  phase : TaskPhase := .running
  /-- `restart` was called after the servers were read. -/
  restarted : Bool
  deriving DecidableEq

/-- Where the loop of `start_all` is. -/
inductive LoopPhase where
  | top
  | servers (hosts : List String)
  | cleared (hosts : List String)
  | clearedManual (hosts : List String)
  /-- `join_all`. -/
  | joining
  /-- The loop sleeps before its next round. -/
  | resting (manual : Bool)
  deriving DecidableEq

def LoopPhase.hasServers : LoopPhase → Bool
  | .servers _ => true
  | _ => false

/-- The loop has cleared `SHOULD_EXIT`, and its tasks are to come. -/
def LoopPhase.hasCleared : LoopPhase → Bool
  | .cleared _ | .clearedManual _ => true
  | _ => false

structure State where
  /-- `Config::get_rendezvous_servers`. -/
  servers : List String
  shouldExit : Bool := false
  manualRestarted : Bool := false
  loop : LoopPhase := .top
  tasks : List Task := []
  /-- `restart` was called after the loop has read the servers. -/
  restarted : Bool := false
  /-- The calls of `restart` before their first step, and before their second. -/
  restarting : Nat := 0
  restartingManual : Nat := 0

inductive Event where
  /-- The servers change, and `restart` is called. -/
  | configure (servers : List String)
  | restartShouldExit
  | restartManual
  /-- The loop looks at `stop-service`, and reads the servers. -/
  | readServers (stopped : Bool)
  | clearShouldExit
  | clearManual
  | spawn
  | join
  | rested
  /-- A tick of the task. -/
  | tick (i : Nat)
  /-- `start` fails. -/
  | failed (i : Nat)
  | taskShouldExit (i : Nat)
  deriving DecidableEq

namespace State
variable (s : State)

def goTo (i : Nat) (phase : TaskPhase) : State :=
  { s with tasks := s.tasks.modify i fun task => { task with phase } }

def phase (i : Nat) : Option TaskPhase := s.tasks[i]?.map Task.phase

/-- `SHOULD_EXIT.store(true)` of `restart`. -/
def restartShouldExit : State :=
  { s with
    shouldExit := true
    restarting := s.restarting - 1
    restartingManual := s.restartingManual + 1
    restarted := true
    tasks := s.tasks.map fun task => { task with restarted := true } }

/-- The loop goes on from where it is, and a task from its phase. -/
def step (e : Event) : State :=
  match e, s.loop with
  | .configure servers, _ => { s with servers, restarting := s.restarting + 1 }
  | .restartShouldExit, _ => if s.restarting = 0 then s else s.restartShouldExit
  | .restartManual, _ =>
    if s.restartingManual = 0 then s
    else { s with manualRestarted := true, restartingManual := s.restartingManual - 1 }
  | .readServers stopped, .top =>
    if stopped then { s with loop := .resting s.manualRestarted }
    else { s with loop := .servers s.servers, restarted := false }
  | .clearShouldExit, .servers hosts => { s with loop := .cleared hosts, shouldExit := false }
  | .clearManual, .cleared hosts =>
    { s with loop := .clearedManual hosts, manualRestarted := false }
  | .spawn, .clearedManual hosts =>
    { s with
      loop := .joining
      tasks := hosts.map fun host => { host, restarted := s.restarted } }
  | .join, .joining =>
    if s.tasks.all (·.phase = .done) then { s with loop := .resting s.manualRestarted } else s
  | .rested, .resting _ => { s with loop := .top }
  | .tick i, _ =>
    if s.phase i = some .running && s.shouldExit then s.goTo i .ending else s
  | .failed i, _ => if s.phase i = some .running then s.goTo i .ending else s
  | .taskShouldExit i, _ =>
    if s.phase i = some .ending then { s.goTo i .done with shouldExit := true } else s
  | _, _ => s

def start (servers : List String) : State := { servers }

abbrev after (servers : List String) (events : List Event) : State :=
  Runs.run step (start servers) events

/-- `SHOULD_EXIT` is set, or a step that sets it is to come. -/
def ExitComes : Prop :=
  s.shouldExit = true ∨ 0 < s.restarting ∨ ∃ task ∈ s.tasks, task.phase = .ending

/-- A task whose servers were read before a restart will see `SHOULD_EXIT`. -/
def RestartSeen : Prop :=
  ∀ task ∈ s.tasks, task.phase = .running → task.restarted = true → s.ExitComes

/-- The loop clears `SHOULD_EXIT` while no restart was called since it has read the servers. -/
def InOrder : Event → Prop
  | .clearShouldExit => s.loop.hasServers = true → s.restarted = false
  | _ => True

instance : ∀ e, Decidable (s.InOrder e)
  | .clearShouldExit =>
    inferInstanceAs (Decidable (s.loop.hasServers = true → s.restarted = false))
  | .configure _ | .restartShouldExit | .restartManual | .readServers _ | .clearManual | .spawn
  | .join | .rested | .tick _ | .failed _ | .taskShouldExit _ => .isTrue trivial

instance : Decidable s.RestartSeen :=
  inferInstanceAs (Decidable (∀ task ∈ s.tasks, task.phase = .running → task.restarted = true →
    (s.shouldExit = true ∨ 0 < s.restarting ∨ ∃ task ∈ s.tasks, task.phase = .ending)))

/-- What was restarted finds `SHOULD_EXIT` set, and the loop waits for its tasks. -/
structure Inv : Prop where
  tasks : ∀ task ∈ s.tasks, task.phase = .running → task.restarted = true → s.shouldExit = true
  loop : s.loop.hasCleared = true → s.restarted = true → s.shouldExit = true
  joined : s.loop ≠ .joining → ∀ task ∈ s.tasks, task.phase = .done

variable {s}

theorem inv_start (servers : List String) : Inv (start servers) where
  tasks _ mem := by cases mem
  loop h := by cases h
  joined _ _ mem := by cases mem

theorem Inv.not_running (inv : Inv s) (here : s.loop ≠ .joining) {task : Task}
    (mem : task ∈ s.tasks) : task.phase ≠ .running := by
  rw [inv.joined here task mem]
  exact fun h => by cases h

theorem Inv.restartShouldExit (inv : Inv s) : Inv s.restartShouldExit where
  tasks _ _ _ _ := rfl
  loop _ _ := rfl
  joined here task mem := by
    obtain ⟨old, was, rfl⟩ := List.mem_map.mp mem
    exact inv.joined here old was

/-- The loop goes on, and no flag that a task reads is cleared. -/
theorem Inv.setLoop (inv : Inv s) {loop : LoopPhase}
    (cleared : loop.hasCleared = true → s.loop.hasCleared = true)
    (joined : ∀ task ∈ s.tasks, task.phase = .done) : Inv { s with loop } where
  tasks := inv.tasks
  loop h := inv.loop (cleared h)
  joined _ := joined

theorem Inv.setManual (inv : Inv s) (manualRestarted : Bool) : Inv { s with manualRestarted } :=
  { inv with }

theorem mem_goTo {i : Nat} {phase : TaskPhase} {task : Task} (mem : task ∈ (s.goTo i phase).tasks) :
    task ∈ s.tasks ∨ ∃ old ∈ s.tasks, s.phase i = some old.phase ∧ task = { old with phase } := by
  obtain ⟨j, at_j⟩ := List.mem_iff_getElem?.mp mem
  rw [goTo, List.getElem?_modify, Option.map_eq_map] at at_j
  obtain ⟨old, was, rfl⟩ := Option.map_eq_some_iff.mp at_j
  split
  · rename_i eq
    subst eq
    exact .inr ⟨old, List.mem_of_getElem? was, by simp [State.phase, was], rfl⟩
  · exact .inl (List.mem_of_getElem? was)

/-- A task that is not over goes on, and does not run any more. -/
theorem Inv.goTo (inv : Inv s) {i : Nat} {from' to' : TaskPhase} (here : s.phase i = some from')
    (busy : from' ≠ .done) (stops : to' ≠ .running) : Inv (s.goTo i to') where
  tasks task mem running restarted := by
    rcases mem_goTo mem with old | ⟨old, -, -, rfl⟩
    · exact inv.tasks task old running restarted
    · exact absurd running stops
  loop := inv.loop
  joined free task mem := by
    rcases mem_goTo mem with old | ⟨old, was, same, rfl⟩
    · exact inv.joined free task old
    · rw [inv.joined free old was, here] at same
      exact absurd (Option.some.inj same) busy

theorem Inv.setShouldExit (inv : Inv s) : Inv { s with shouldExit := true } where
  tasks _ _ _ _ := rfl
  loop _ _ := rfl
  joined := inv.joined

theorem Inv.spawn (inv : Inv s) {hosts : List String} (here : s.loop = .clearedManual hosts) :
    Inv { s with
      loop := .joining
      tasks := hosts.map fun host => { host, restarted := s.restarted } } where
  tasks task mem _ restarted := by
    obtain ⟨host, -, rfl⟩ := List.mem_map.mp mem
    exact inv.loop (by rw [here]; rfl) restarted
  loop h := by cases h
  joined h := absurd rfl h

theorem Inv.step (inv : Inv s) {e : Event} (order : s.InOrder e) : Inv (s.step e) := by
  unfold State.step
  split
  case h_1 => exact { inv with }
  case h_2 =>
    split
    · exact inv
    · exact inv.restartShouldExit
  case h_3 =>
    split
    · exact inv
    · exact { inv with }
  case h_4 here =>
    have joined := inv.joined (by simp [here])
    split
    · exact inv.setLoop (fun h => by cases h) joined
    · exact
        { tasks := inv.tasks
          loop := fun h => by cases h
          joined := fun _ => joined }
  case h_5 hosts here =>
    have free : s.loop ≠ .joining := by simp [here]
    have fresh : s.restarted = false := order (by rw [here]; rfl)
    exact
      { tasks := fun task mem running => absurd running (inv.not_running free mem)
        loop := fun _ restarted => by simp [fresh] at restarted
        joined := fun _ => inv.joined free }
  case h_6 hosts here =>
    have moved : Inv { s with loop := .clearedManual hosts } :=
      inv.setLoop (fun _ => by rw [here]; rfl) (inv.joined (by simp [here]))
    exact moved.setManual false
  case h_7 here => exact inv.spawn here
  case h_8 =>
    split
    · rename_i all
      exact inv.setLoop (fun h => by cases h) (by simpa using all)
    · exact inv
  case h_9 here => exact inv.setLoop (fun h => by cases h) (inv.joined (by simp [here]))
  case h_10 i =>
    split
    · rename_i sees
      simp only [Bool.and_eq_true, decide_eq_true_eq] at sees
      exact inv.goTo sees.1 (by simp) (by simp)
    · exact inv
  case h_11 =>
    split
    · rename_i running
      exact inv.goTo running (by simp) (by simp)
    · exact inv
  case h_12 =>
    split
    · rename_i ending
      exact (inv.goTo ending (by simp) (by simp)).setShouldExit
    · exact inv
  case h_13 => exact inv

/-- **No restart is lost** in a run whose loop does not clear one. -/
theorem restart_seen {servers : List String} {events : List Event}
    (order : Runs.Along step InOrder (start servers) events) :
    RestartSeen (after servers events) := by
  have inv : Inv (after servers events) :=
    Runs.invariant (I := Inv) (fun _ _ inv ok => inv.step ok) (inv_start servers) order
  exact fun task mem running restarted => .inl (inv.tasks task mem running restarted)

/-- The servers change, and `restart` is called, after the loop has read the old ones. -/
def lateRestart : List Event :=
  [.readServers false, .configure ["new"], .restartShouldExit, .clearShouldExit, .clearManual,
    .spawn, .restartManual]

theorem restart_lost :
    ¬ ∀ servers events, RestartSeen (after servers events) := by
  intro all
  exact absurd (all ["old"] lateRestart) (by decide)

theorem running_restart_seen :
    RestartSeen (after ["old"] [.readServers false, .clearShouldExit, .clearManual, .spawn,
      .configure ["new"], .restartShouldExit, .restartManual]) :=
  restart_seen (by decide)

end State
end CamelliaRemote.Rendezvous
