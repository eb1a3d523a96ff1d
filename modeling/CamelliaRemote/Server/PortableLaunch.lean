import CamelliaRemote.Lib.Runs
import Mathlib.Algebra.Ring.Nat

/-!
Launches of the portable service, `src/server/portable_service.rs`. `start_portable_service` sets
`STARTING` under its lock, counts the launch in `STARTING_TOKEN` and goes on without the lock.
`STARTING` is reset by the call when it fails, by the watchdog of the launch, by a handshake that
failed with the token of the launch, and by the task of its IPC connection. Each read or write of
one of the globals is a step. A launch is pending from the write that sets `STARTING` to the first
reset that one of its own threads makes.
-/

namespace CamelliaRemote.PortableLaunch
open Runs

inductive Place where
  /-- The call of `start_portable_service`, past `fetch_add`. -/
  | counted
  | cleared
  | armed
  | failing
  /-- The watchdog, before `PORTABLE_SERVICE_STARTUP_TIMEOUT` is over. -/
  | sleeping
  | loaded (currentToken : Nat)
  | sawStarting (currentToken : Nat) (starting : Bool)
  | timedOut
  /-- A handshake that has consumed the token of the launch. -/
  | consumed
  /-- The handshake failed, and giving the token back was tried. -/
  | refused
  /-- The task of a connection, before it has locked `rx`. -/
  | connected
  | looping
  | ponged
  /-- The loop is over, and `RUNNING` is reset. -/
  | closed
  | done
  deriving DecidableEq

/-- Where a thread that resets `STARTING` goes on. -/
def Place.reset : Place → Option Place
  | .failing | .timedOut | .refused | .closed => some .done
  | .ponged => some .looping
  | _ => none

structure Thread where
  launch : Nat
  place : Place
  deriving DecidableEq

structure State where
  running : Bool := false
  starting : Bool := false
  /-- `STARTING` is locked by the call that has just set it. -/
  locked : Bool := false
  startingToken : Nat := 0
  /-- What the calls that wait for `STARTING` have read of `RUNNING`. -/
  waiting : List Bool := []
  next : Nat := 0
  launchTokens : Nat → Nat := fun _ => 0
  threads : List Thread := []
  rxLocked : Bool := false
  /-- The launch whose token is in `IPC_RUNTIME_TOKEN`. -/
  ipcToken : Option Nat := none
  pending : List Nat := []

inductive Move where
  | clearRuntimeShmemState
  | setRuntimeIpcToken
  | ranProcess
  | failed
  | loadStartingToken
  | readStarting
  | readRunning
  | handshakeDone
  /-- The handshake failed; whether its token could be given back. -/
  | handshakeFailed (restored : Bool)
  | lockRx
  | pong
  | close
  | resetStarting
  deriving DecidableEq

inductive Event where
  | start
  /-- The section under `STARTING`, by a call that has read `running`. -/
  | guard (running hasRunningProcess : Bool)
  | fetchAdd
  | consume
  | advance (t : Nat) (move : Move)
  | shutdown
  deriving DecidableEq

namespace State
variable (s : State)

def goTo (t : Nat) (thread : Thread) (place : Place) : State :=
  { s with threads := s.threads.set t { thread with place } }

def spawn (launch : Nat) (place : Place) : State :=
  { s with threads := s.threads ++ [⟨launch, place⟩] }

/-- `STARTING` is set, and nothing runs. -/
def stale (running hasRunningProcess : Bool) : Bool :=
  s.starting && !running && !hasRunningProcess

/-- The call gets past "already running". -/
def passes : Event → Bool
  | .guard running hasRunningProcess =>
    !s.locked && decide (running ∈ s.waiting) && !running &&
      (!s.starting || s.stale running hasRunningProcess)
  | _ => false

def guard (running hasRunningProcess : Bool) : State :=
  if s.locked ∨ running ∉ s.waiting then s
  else if s.passes (.guard running hasRunningProcess) then
    { s with
      waiting := s.waiting.erase running
      starting := true
      locked := true
      next := s.next + 1
      pending := s.next :: s.pending }
  else
    { s with
      waiting := s.waiting.erase running
      starting := s.starting && !s.stale running hasRunningProcess }

/-- `STARTING_TOKEN.fetch_add(1) + 1`, after which `STARTING` is unlocked. -/
def fetchAdd : State :=
  if s.locked then
    { s.spawn (s.next - 1) .counted with
      locked := false
      startingToken := (s.startingToken + 1) % 2 ^ 64
      launchTokens :=
        Function.update s.launchTokens (s.next - 1) ((s.startingToken + 1) % 2 ^ 64) }
  else s

/-- `consume_runtime_ipc_token_if_match`; one handshake waits for the end of another. -/
def consume : State :=
  match s.ipcToken with
  | some launch =>
    if s.threads.any fun thread => thread.place = .consumed ∨ thread.place = .refused then s
    else { s.spawn launch .consumed with ipcToken := none }
  | none => s

/-- `restore_runtime_ipc_token_after_failed_handshake` leaves another token as it is. -/
def restoredToken (launch : Nat) (restored : Bool) : Option Nat :=
  if s.ipcToken.any (· ≠ launch) then s.ipcToken
  else if restored then some launch
  else none

def shouldReset (launch currentToken : Nat) (starting : Bool) : Bool :=
  decide (currentToken = s.launchTokens launch) && starting && !s.running

def resetStarting (t : Nat) (thread : Thread) : State :=
  match thread.place.reset with
  | some place =>
    if s.locked then s
    else
      { s.goTo t thread place with
        starting := false
        rxLocked := s.rxLocked && decide (thread.place ≠ .closed)
        pending := s.pending.filter (· ≠ thread.launch) }
  | none => s

def advance (t : Nat) (thread : Thread) (move : Move) : State :=
  match move, thread.place with
  | .clearRuntimeShmemState, .counted => { s.goTo t thread .cleared with ipcToken := none }
  | .clearRuntimeShmemState, .cleared => { s.goTo t thread .failing with ipcToken := none }
  | .clearRuntimeShmemState, .armed => { s.goTo t thread .failing with ipcToken := none }
  | .setRuntimeIpcToken, .cleared =>
    { s.goTo t thread .armed with ipcToken := some thread.launch }
  | .ranProcess, .armed => s.goTo t thread .sleeping
  | .failed, .cleared => s.goTo t thread .failing
  | .failed, .armed => s.goTo t thread .failing
  | .loadStartingToken, .sleeping => s.goTo t thread (.loaded s.startingToken)
  | .readStarting, .loaded currentToken =>
    if s.locked then s else s.goTo t thread (.sawStarting currentToken s.starting)
  | .readRunning, .sawStarting currentToken starting =>
    s.goTo t thread
      (if s.shouldReset thread.launch currentToken starting then .timedOut else .done)
  | .handshakeDone, .consumed => s.goTo t thread .connected
  | .handshakeFailed restored, .consumed =>
    { s.goTo t thread .refused with ipcToken := s.restoredToken thread.launch restored }
  | .lockRx, .connected =>
    if s.rxLocked then s else { s.goTo t thread .looping with rxLocked := true }
  | .pong, .looping => { s.goTo t thread .ponged with running := true }
  | .close, .looping => { s.goTo t thread .closed with running := false }
  | .resetStarting, _ => s.resetStarting t thread
  | _, _ => s

def step : Event → State
  | .start => { s with waiting := s.waiting ++ [s.running] }
  | .guard running hasRunningProcess => s.guard running hasRunningProcess
  | .fetchAdd => s.fetchAdd
  | .consume => s.consume
  | .advance t move =>
    match s.threads[t]? with
    | some thread => s.advance t thread move
    | none => s
  | .shutdown => { s with ipcToken := none }

/-- The launch whose thread resets `STARTING` by this event. -/
def resetOf : Event → Option Nat
  | .advance t .resetStarting =>
    if s.locked then none
    else (s.threads[t]?).bind fun thread => thread.place.reset.map fun _ => thread.launch
  | _ => none

/-- While a launch is pending, no thread of an earlier one resets `STARTING`, and no other
launch passes. -/
structure Exclusive (e : Event) : Prop where
  starting : s.pending ≠ [] → s.starting = true
  notReset : ∀ launch ∈ s.pending, ∀ earlier ∈ s.resetOf e, ¬ earlier < launch
  notPassed : s.pending ≠ [] → s.passes e = false

/-- A thread that will not reset `STARTING` any more once a newer launch is counted: it is
over, or the watchdog has not loaded the token that was its own. -/
def isSettled (thread : Thread) : Bool :=
  match thread.place with
  | .done | .sleeping => true
  | .loaded currentToken => decide (currentToken ≠ s.launchTokens thread.launch)
  | .sawStarting currentToken _ => decide (currentToken ≠ s.launchTokens thread.launch)
  | _ => false

/-- A call that finds `STARTING` set finds a process, or `RUNNING` set; a launch is counted
when the threads of the earlier ones are settled, and before the counter wraps; a handshake
comes with the token of the latest launch. -/
def InOrder : Event → Prop
  | .guard running hasRunningProcess => s.stale running hasRunningProcess = false
  | .fetchAdd =>
    s.next < 2 ^ 64 ∧ ∀ thread ∈ s.threads, thread.launch + 1 < s.next → s.isSettled thread
  | .consume => ∀ launch ∈ s.ipcToken, launch + 1 = s.next
  | _ => True

instance : ∀ e, Decidable (s.InOrder e)
  | .guard running hasRunningProcess =>
    inferInstanceAs (Decidable (s.stale running hasRunningProcess = false))
  | .fetchAdd => inferInstanceAs (Decidable (_ ∧ _))
  | .consume => inferInstanceAs (Decidable (∀ launch ∈ s.ipcToken, launch + 1 = s.next))
  | .start | .advance _ _ | .shutdown => .isTrue trivial

structure Inv : Prop where
  counted : s.locked = false → s.startingToken = s.next
  counting : s.locked = true → s.startingToken + 1 = s.next
  launchTokens : ∀ launch < s.startingToken, s.launchTokens launch = launch + 1
  threads : ∀ thread ∈ s.threads, thread.launch < s.startingToken
  ipcToken : ∀ launch ∈ s.ipcToken, launch < s.startingToken
  pending : ∀ launch ∈ s.pending, launch + 1 = s.next ∧ s.starting = true
  settled : s.locked = false → ∀ thread ∈ s.threads, thread.launch + 1 < s.next →
    s.isSettled thread

theorem inv_init : Inv {} where
  counted _ := rfl
  counting h := by simp at h
  launchTokens _ h := absurd h (Nat.not_lt_zero _)
  threads _ h := by simp at h
  ipcToken _ h := by simp at h
  pending _ h := by simp at h
  settled _ _ h := by simp at h

variable {s}

/-- A thread moves on to a place where it is settled if it was. -/
theorem Inv.goTo (inv : Inv s) {t : Nat} {thread : Thread} (at_t : s.threads[t]? = some thread)
    {place : Place}
    (settled : s.locked = false → s.isSettled thread → thread.launch + 1 < s.next →
      s.isSettled { thread with place }) :
    Inv (s.goTo t thread place) where
  counted := inv.counted
  counting := inv.counting
  launchTokens := inv.launchTokens
  threads other mem := by
    have known := inv.threads thread (List.mem_of_getElem? at_t)
    rcases List.mem_or_eq_of_mem_set mem with old | rfl
    · exact inv.threads other old
    · exact known
  ipcToken := inv.ipcToken
  pending := inv.pending
  settled free other mem older := by
    rcases List.mem_or_eq_of_mem_set mem with old | rfl
    · exact inv.settled free other old older
    · exact settled free (inv.settled free thread (List.mem_of_getElem? at_t) older) older

theorem Inv.setIpcToken (inv : Inv s) {token : Option Nat}
    (known : ∀ launch ∈ token, launch < s.startingToken) : Inv { s with ipcToken := token } :=
  { inv with ipcToken := known }

theorem Inv.setRunning (inv : Inv s) (running : Bool) : Inv { s with running } := { inv with }

theorem Inv.setRxLocked (inv : Inv s) (rxLocked : Bool) : Inv { s with rxLocked } := { inv with }

theorem Inv.setWaiting (inv : Inv s) (waiting : List Bool) : Inv { s with waiting } := { inv with }

theorem reset_of_isSettled {thread : Thread} (h : s.isSettled thread = true) :
    thread.place.reset = none := by
  unfold isSettled at h
  split at h <;> simp_all [Place.reset]

/-- Only the latest launch resets `STARTING`. -/
theorem Inv.reset_latest (inv : Inv s) (free : s.locked = false) {thread : Thread}
    (mem : thread ∈ s.threads) {place : Place} (reset : thread.place.reset = some place) :
    thread.launch + 1 = s.next := by
  have known := inv.threads thread mem
  rw [inv.counted free] at known
  refine Nat.le_antisymm known (Nat.le_of_not_lt fun older => ?_)
  rw [reset_of_isSettled (inv.settled free thread mem older)] at reset
  cases reset

theorem Inv.resetStarting (inv : Inv s) {t : Nat} {thread : Thread}
    (at_t : s.threads[t]? = some thread) : Inv (s.resetStarting t thread) := by
  unfold State.resetStarting
  split
  · rename_i place reset
    split
    · exact inv
    · rename_i unlocked
      have free : s.locked = false := by simpa using unlocked
      have mem := List.mem_of_getElem? at_t
      have latest := inv.reset_latest free mem reset
      have moved : Inv (s.goTo t thread place) := by
        refine inv.goTo at_t fun _ _ older => ?_
        omega
      refine { moved with pending := fun launch pending => ?_ }
      obtain ⟨was, other⟩ := List.mem_filter.mp pending
      have := (inv.pending launch was).1
      simp only [ne_eq, decide_not, Bool.not_eq_eq_eq_not, Bool.not_true,
        decide_eq_false_iff_not] at other
      omega
  · exact inv

theorem restoredToken_mem {launch restored : Nat} {b : Bool}
    (h : launch ∈ s.restoredToken restored b) : launch ∈ s.ipcToken ∨ launch = restored := by
  unfold restoredToken at h
  split at h
  · exact .inl h
  · split at h
    · exact .inr (Option.some.inj h).symm
    · cases h

theorem Inv.advance (inv : Inv s) {t : Nat} {thread : Thread}
    (at_t : s.threads[t]? = some thread) (move : Move) : Inv (s.advance t thread move) := by
  have known := inv.threads thread (List.mem_of_getElem? at_t)
  have unsettled {place : Place} (here : ¬ s.isSettled thread) : Inv (s.goTo t thread place) :=
    inv.goTo at_t fun _ settled _ => absurd settled here
  unfold State.advance
  split
  case h_1 _ _ place =>
    exact (unsettled (by simp [isSettled, place])).setIpcToken (by simp)
  case h_2 _ _ place =>
    exact (unsettled (by simp [isSettled, place])).setIpcToken (by simp)
  case h_3 _ _ place =>
    exact (unsettled (by simp [isSettled, place])).setIpcToken (by simp)
  case h_4 _ _ place =>
    refine (unsettled (by simp [isSettled, place])).setIpcToken fun launch eq => ?_
    rw [← Option.some.inj eq]
    exact known
  case h_5 _ _ place => exact unsettled (by simp [isSettled, place])
  case h_6 _ _ place => exact unsettled (by simp [isSettled, place])
  case h_7 _ _ place => exact unsettled (by simp [isSettled, place])
  case h_8 _ _ place =>
    refine inv.goTo at_t fun free _ older => ?_
    have token := inv.counted free
    have launchToken := inv.launchTokens _ known
    simp only [isSettled, decide_eq_true_eq]
    omega
  case h_9 _ _ currentToken place =>
    split
    · exact inv
    · refine inv.goTo at_t fun _ settled _ => ?_
      simpa [isSettled, place] using settled
  case h_10 _ _ currentToken starting place =>
    refine inv.goTo at_t fun _ settled _ => ?_
    have differs : currentToken ≠ s.launchTokens thread.launch := by
      simpa [isSettled, place] using settled
    simp [isSettled, shouldReset, differs]
  case h_11 _ _ place => exact unsettled (by simp [isSettled, place])
  case h_12 _ _ restored place =>
    refine (unsettled (by simp [isSettled, place])).setIpcToken fun launch mem => ?_
    rcases restoredToken_mem mem with old | rfl
    · exact inv.ipcToken launch old
    · exact known
  case h_13 _ _ place =>
    split
    · exact inv
    · exact (unsettled (by simp [isSettled, place])).setRxLocked true
  case h_14 _ _ place => exact (unsettled (by simp [isSettled, place])).setRunning true
  case h_15 _ _ place => exact (unsettled (by simp [isSettled, place])).setRunning false
  case h_16 => exact inv.resetStarting at_t
  case h_17 => exact inv

theorem Inv.guard (inv : Inv s) {running hasRunningProcess : Bool}
    (fresh : s.stale running hasRunningProcess = false) :
    Inv (s.guard running hasRunningProcess) := by
  unfold State.guard
  split
  · exact inv
  · rename_i blocked
    have free : s.locked = false := by
      cases h : s.locked with
      | false => rfl
      | true => exact absurd (.inl h) blocked
    have token := inv.counted free
    split
    · rename_i goes
      have unset : s.starting = false := by
        simp only [passes, fresh, Bool.or_false, Bool.and_eq_true, Bool.not_eq_true'] at goes
        exact goes.2
      refine
        { counted := fun h => by cases h
          counting := fun _ => by simp [token]
          launchTokens := inv.launchTokens
          threads := inv.threads
          ipcToken := inv.ipcToken
          pending := fun launch mem => ?_
          settled := fun h => by cases h }
      rcases List.mem_cons.mp mem with rfl | old
      · exact ⟨rfl, rfl⟩
      · have := (inv.pending launch old).2
        rw [unset] at this
        cases this
    · refine { inv with pending := fun launch mem => ?_ }
      obtain ⟨latest, set⟩ := inv.pending launch mem
      exact ⟨latest, by simp [set, fresh]⟩

theorem Inv.fetchAdd (inv : Inv s) (few : s.next < 2 ^ 64)
    (settled : ∀ thread ∈ s.threads, thread.launch + 1 < s.next → s.isSettled thread) :
    Inv s.fetchAdd := by
  unfold State.fetchAdd
  split
  · rename_i locked
    have counting := inv.counting locked
    have token : (s.startingToken + 1) % 2 ^ 64 = s.next := by omega
    have last : s.next - 1 = s.startingToken := by omega
    have tokens {launch : Nat} (known : launch < s.startingToken) :
        Function.update s.launchTokens s.startingToken s.next launch =
          s.launchTokens launch := Function.update_of_ne (by omega) _ _
    simp only [token, last]
    refine
      { counted := fun _ => rfl
        counting := fun h => by cases h
        launchTokens := fun launch known => ?_
        threads := fun thread mem => ?_
        ipcToken := fun launch mem => ?_
        pending := inv.pending
        settled := fun _ thread mem older => ?_ }
    · rcases Nat.lt_or_ge launch s.startingToken with old | new
      · exact (tokens old).trans (inv.launchTokens launch old)
      · have : launch = s.startingToken := by simp only at known; omega
        simp [this, counting]
    · rcases List.mem_append.mp mem with old | new
      · have := inv.threads thread old
        simp only
        omega
      · simp only [List.mem_singleton] at new
        simp only [new]
        omega
    · have := inv.ipcToken launch mem
      simp only
      omega
    · rcases List.mem_append.mp mem with old | new
      · have same := tokens (inv.threads thread old)
        simpa only [isSettled, same] using settled thread old older
      · have : thread.launch = s.startingToken := by rw [List.mem_singleton.mp new]
        have : thread.launch + 1 < s.next := older
        omega
  · exact inv

theorem Inv.consume (inv : Inv s) (latest : ∀ launch ∈ s.ipcToken, launch + 1 = s.next) :
    Inv s.consume := by
  unfold State.consume
  split
  · rename_i launch token
    split
    · exact inv
    · refine
        { inv with
          threads := fun thread mem => ?_
          ipcToken := fun launch mem => by cases mem
          settled := fun free thread mem older => ?_ }
      · rcases List.mem_append.mp mem with old | new
        · exact inv.threads thread old
        · simp only [List.mem_singleton] at new
          rw [new]
          exact inv.ipcToken launch token
      · rcases List.mem_append.mp mem with old | new
        · exact inv.settled free thread old older
        · have : thread.launch = launch := by rw [List.mem_singleton.mp new]
          have : thread.launch + 1 < s.next := older
          have := latest launch token
          omega
  · exact inv

/-- **A step in order keeps the invariant.** -/
theorem Inv.step (inv : Inv s) {e : Event} (order : s.InOrder e) : Inv (s.step e) := by
  cases e with
  | start => exact inv.setWaiting _
  | guard running hasRunningProcess => exact inv.guard order
  | fetchAdd => exact inv.fetchAdd order.1 order.2
  | consume => exact inv.consume order
  | advance t move =>
    simp only [State.step]
    split
    · rename_i thread at_t
      exact inv.advance at_t move
    · exact inv
  | shutdown => exact inv.setIpcToken fun launch mem => by cases mem

theorem Inv.exclusive (inv : Inv s) {e : Event} (order : s.InOrder e) : s.Exclusive e where
  starting pending := by
    obtain ⟨launch, mem⟩ := List.exists_mem_of_ne_nil _ pending
    exact (inv.pending launch mem).2
  notReset launch mem earlier reset := by
    have latest := (inv.pending launch mem).1
    unfold resetOf at reset
    split at reset
    · rename_i t
      split at reset
      · cases reset
      · rename_i unlocked
        obtain ⟨thread, at_t, reset⟩ := Option.bind_eq_some_iff.mp reset
        obtain ⟨place, goesOn, rfl⟩ := Option.map_eq_some_iff.mp reset
        have := inv.reset_latest (by simpa using unlocked) (List.mem_of_getElem? at_t) goesOn
        omega
    · cases reset
  notPassed pending := by
    obtain ⟨launch, mem⟩ := List.exists_mem_of_ne_nil _ pending
    have set := (inv.pending launch mem).2
    unfold passes
    split
    · have fresh : s.stale _ _ = false := order
      simp [set, fresh]
    · rfl

/-- **Launches are exclusive** in every run that is in order. -/
theorem launches_exclusive {events : List Event} (order : Runs.Along step InOrder {} events) :
    Runs.Along step Exclusive {} events :=
  Runs.along_of_invariant (fun _ _ inv ok => inv.step ok) (fun _ _ inv ok => inv.exclusive ok)
    inv_init order

/-- A launch with its connection, up to the first `Pong`. -/
def launched (t : Nat) : List Event :=
  [.start, .guard false false, .fetchAdd, .advance t .clearRuntimeShmemState,
    .advance t .setRuntimeIpcToken, .advance t .ranProcess, .consume,
    .advance (t + 1) .handshakeDone, .advance (t + 1) .lockRx, .advance (t + 1) .pong,
    .advance (t + 1) .resetStarting]

/-- The connection of the first launch has reset `RUNNING` and not yet `STARTING` when the
second launch begins. -/
def overtaken : List Event :=
  launched 0 ++
    [Event.advance 1 .close, .start, .guard false false, .fetchAdd, .advance 1 .resetStarting]

theorem launches_not_exclusive : ¬ ∀ events, Runs.Along step Exclusive {} events := by
  intro all
  have run : Runs.Along step Exclusive {} (overtaken.take 15 ++ [Event.advance 1 .resetStarting]) :=
    all overtaken
  exact (Runs.along_snoc.mp run).2.notReset 1 (by decide) 0 (by decide) (by decide)

/-- The second launch begins after the end of the first one's connection. -/
def relaunched : List Event :=
  launched 0 ++ [Event.advance 1 .close, .advance 1 .resetStarting] ++ launched 2

theorem launched_exclusive : Runs.Along step Exclusive {} relaunched :=
  launches_exclusive (by decide)

end State
end CamelliaRemote.PortableLaunch
