import CamelliaRemote.Lib.Runs
import CamelliaRemote.Protocol

/-!
Who owns the keyboard, `src/keyboard.rs` on Linux. The windows of the sessions call
`change_grab_status` as the pointer enters and leaves them. `GRAB_STATE` says who owns the grab;
the grab itself is changed after its lock is dropped, under `GRAB_OP_LOCK`. A step is one section
under a lock or one call of rdev.
-/

namespace CamelliaRemote.Client
open Runs

/-- An `Instant`, in nanoseconds. -/
abbrev Instant := Nat

abbrev grabDebounceMs : Nat := 300

def Instant.elapsedMs (t now : Instant) : Nat := (now - t) / 1000000

inductive GrabState where
  | ready
  | run
  | wait
  | exit
  deriving DecidableEq

structure GrabOwnerState where
  owner : Option Nat := none
  lastGrab : Option Instant := none
  deferredPending : Bool := false

/-- What a thread still does once `GRAB_STATE` is unlocked. -/
inductive GrabOp where
  | applyRunGrabIfOwner (session : Nat) (disableFirst : Bool)
  | disableGrabIfReleased
  deriving DecidableEq

inductive RdevCall where
  | enableGrab
  | disableGrab
  deriving DecidableEq

/-- A deferred-release thread before it locks `GRAB_STATE`. -/
structure Deferred where
  session : Nat
  snapshot : Option Instant
  mode : KeyboardMode
  /-- When the `Wait` was called that spawned the thread. -/
  scheduled : Instant
  /-- When it has slept enough. -/
  due : Instant
  deriving DecidableEq

structure Grab where
  state : GrabOwnerState := {}
  /-- `KEYBOARD_HOOKED`. -/
  hooked : Bool := false
  /-- rdev's grab. -/
  enabled : Bool := false
  /-- The threads that come to `GRAB_OP_LOCK`. -/
  ops : List GrabOp := []
  /-- The holder of `GRAB_OP_LOCK` past its check, and the calls it has yet to make. -/
  holder : Option (GrabOp × List RdevCall) := none
  deferred : List Deferred := []

inductive GrabEvent where
  | changeGrabStatus (state : GrabState) (mode : KeyboardMode) (session : Nat) (now : Instant)
  | deferredRelease (thread : Deferred) (now : Instant)
  | lockOp (op : GrabOp)
  | callRdev
  deriving DecidableEq

namespace Grab
variable (g : Grab)

/-- `Run` of a session. The owner only refreshes the time. -/
def run (session : Nat) (now : Instant) : Grab :=
  if g.state.owner = some session then
    { g with state := { g.state with lastGrab := some now, deferredPending := false } }
  else
    { g with
      state := ⟨some session, some now, false⟩
      hooked := true
      ops := g.ops ++ [GrabOp.applyRunGrabIfOwner session g.state.owner.isSome] }

def release : Grab :=
  { g with state := {}, hooked := false, ops := g.ops ++ [GrabOp.disableGrabIfReleased] }

/-- The grab is too young for a `Wait` to be taken for a leave. -/
def debounced (now : Instant) : Bool :=
  g.state.lastGrab.any fun t => t.elapsedMs now < grabDebounceMs

/-- A debounced `Wait` of the owner. -/
def schedule (mode : KeyboardMode) (session : Nat) (now : Instant) : Grab :=
  if g.state.deferredPending then g
  else
    let elapsed := (g.state.lastGrab.map (·.elapsedMs now)).getD 0
    let remaining := grabDebounceMs - elapsed + 50
    { g with
      state := { g.state with deferredPending := true }
      deferred := g.deferred ++
        [⟨session, g.state.lastGrab, mode, now, now + remaining * 1000000⟩] }

def wait (mode : KeyboardMode) (session : Nat) (now : Instant) : Grab :=
  if g.state.owner ≠ some session then g
  else if g.debounced now then g.schedule mode session now
  else g.release

/-- Nobody refreshed the grab since the thread was spawned. -/
def fires (thread : Deferred) : Bool :=
  g.state.owner = some thread.session && g.state.lastGrab = thread.snapshot

def deferredRelease (thread : Deferred) : Grab :=
  let g' := { g with deferred := g.deferred.erase thread }
  if g.fires thread then g'.release else g'

/-- What `op` calls, as `GRAB_STATE` stands when it is checked. -/
def opCalls : GrabOp → List RdevCall
  | .applyRunGrabIfOwner session disableFirst =>
    if g.state.owner = some session then
      (if disableFirst then [.disableGrab] else []) ++ [RdevCall.enableGrab]
    else []
  | .disableGrabIfReleased =>
    if g.state.owner.isNone && g.state.lastGrab.isNone then [.disableGrab] else []

def hold (op : GrabOp) : List RdevCall → Grab
  | [] => { g with holder := none }
  | call :: calls => { g with holder := some (op, call :: calls) }

def lockOp (op : GrabOp) : Grab :=
  { g with ops := g.ops.erase op }.hold op (g.opCalls op)

def callRdev : Grab :=
  match g.holder with
  | some (op, call :: calls) => { g with enabled := call = RdevCall.enableGrab }.hold op calls
  | _ => g

/-- A thread runs only once it is awake, and comes to a lock only while it is free.
`rdevEnabled` is `IS_RDEV_ENABLED`. -/
def step (rdevEnabled : Bool) : GrabEvent → Grab
  | .changeGrabStatus .run _ session now => if rdevEnabled then g.run session now else g
  | .changeGrabStatus .wait mode session now => if rdevEnabled then g.wait mode session now else g
  | .changeGrabStatus .ready .. | .changeGrabStatus .exit .. => g
  | .deferredRelease thread now =>
    if thread ∈ g.deferred ∧ thread.due ≤ now then g.deferredRelease thread else g
  | .lockOp op => if op ∈ g.ops ∧ g.holder = none then g.lockOp op else g
  | .callRdev => g.callRdev

end Grab

abbrev Grab.after (rdevEnabled : Bool) (es : List GrabEvent) : Grab :=
  Runs.run (fun g => g.step rdevEnabled) {} es

def GrabEvent.time? : GrabEvent → Option Instant
  | .changeGrabStatus _ _ _ now => some now
  | .deferredRelease _ now => some now
  | .lockOp _ | .callRdev => none

/-- The clock is strictly increasing. -/
def Ticks (es : List GrabEvent) : Prop := (es.filterMap GrabEvent.time?).Pairwise (· < ·)

instance (es : List GrabEvent) : Decidable (Ticks es) :=
  inferInstanceAs (Decidable (List.Pairwise _ _))

/-- The `Run` or `Wait` that the session called. -/
def GrabEvent.callOf? (session : Nat) : GrabEvent → Option GrabState
  | .changeGrabStatus state _ session' _ =>
    if session' = session ∧ (state = .run ∨ state = .wait) then some state else none
  | _ => none

/-- The most recent `Run` or `Wait` of the session. -/
def lastCall (session : Nat) (es : List GrabEvent) : Option GrabState :=
  (es.filterMap (GrabEvent.callOf? session)).getLast?

/-- The call that an operation ends with. -/
def GrabOp.lastCall : GrabOp → RdevCall
  | .applyRunGrabIfOwner .. => .enableGrab
  | .disableGrabIfReleased => .disableGrab

/-- The operation makes rdev's grab right for this owner. -/
def GrabOp.Serves (owner : Option Nat) : GrabOp → Prop
  | .applyRunGrabIfOwner session _ => owner = some session
  | .disableGrabIfReleased => owner = none

theorem GrabOp.Serves.lastCall {owner : Option Nat} {op : GrabOp} (serves : op.Serves owner) :
    decide (op.lastCall = .enableGrab) = owner.isSome := by
  cases op with
  | applyRunGrabIfOwner => rw [show owner = some _ from serves]; rfl
  | disableGrabIfReleased => rw [show owner = none from serves]; rfl

structure Grab.Consistent (g : Grab) : Prop where
  hooked : g.hooked = g.state.owner.isSome
  lastGrab : g.state.lastGrab.isSome = g.state.owner.isSome
  pending : g.state.deferredPending = true → ∃ thread ∈ g.deferred, g.fires thread = true
  /-- An operation that serves the owner is on its way, or the grab is right. -/
  settled : (∃ op ∈ g.ops, op.Serves g.state.owner) ∨
    (∃ op calls, g.holder = some (op, calls) ∧ op.Serves g.state.owner) ∨
    g.holder = none ∧ g.enabled = g.state.owner.isSome
  ends : ∀ op calls, g.holder = some (op, calls) → calls.getLast? = some op.lastCall

namespace Grab
variable {g : Grab}

theorem Consistent.init : Consistent {} where
  hooked := rfl
  lastGrab := rfl
  pending := nofun
  settled := .inr (.inr ⟨rfl, rfl⟩)
  ends := nofun

/-- The check of an operation passes exactly when it serves the owner. -/
theorem opCalls_of_serves (c : Consistent g) {op : GrabOp} (serves : op.Serves g.state.owner) :
    ∃ call calls, g.opCalls op = call :: calls ∧
      (call :: calls).getLast? = some op.lastCall := by
  cases op with
  | applyRunGrabIfOwner session disableFirst =>
    have owner : g.state.owner = some session := serves
    cases disableFirst with
    | false => exact ⟨_, _, if_pos owner, rfl⟩
    | true => exact ⟨_, _, if_pos owner, rfl⟩
  | disableGrabIfReleased =>
    have owner : g.state.owner = none := serves
    have last := c.lastGrab
    rw [owner, Option.isSome_none, Option.isSome_eq_false_iff] at last
    exact ⟨_, _, if_pos (by simp [owner, last]), rfl⟩

theorem opCalls_of_not_serves {op : GrabOp} (serves : ¬ op.Serves g.state.owner) :
    g.opCalls op = [] := by
  cases op with
  | applyRunGrabIfOwner session disableFirst => exact if_neg serves
  | disableGrabIfReleased =>
    refine if_neg fun released => serves ?_
    simp only [Bool.and_eq_true, Option.isNone_iff_eq_none] at released
    exact released.1

theorem Consistent.run (c : Consistent g) (session : Nat) (now : Instant) :
    Consistent (g.run session now) := by
  unfold Grab.run
  split <;> rename_i owner
  · exact { hooked := c.hooked, lastGrab := by simp [owner], pending := nofun
            settled := c.settled, ends := c.ends }
  · refine ⟨rfl, rfl, nofun, .inl ⟨_, List.mem_append_right _ List.mem_cons_self, rfl⟩, c.ends⟩

theorem Consistent.release (c : Consistent g) : Consistent g.release :=
  ⟨rfl, rfl, nofun, .inl ⟨_, List.mem_append_right _ List.mem_cons_self, rfl⟩, c.ends⟩

theorem Consistent.schedule (c : Consistent g) (mode : KeyboardMode) {session : Nat}
    (now : Instant) (owner : g.state.owner = some session) :
    Consistent (g.schedule mode session now) := by
  unfold Grab.schedule
  split
  · exact c
  · refine ⟨c.hooked, c.lastGrab, fun _ => ?_, c.settled, c.ends⟩
    exact ⟨_, List.mem_append_right _ List.mem_cons_self, by simp [fires, owner]⟩

theorem Consistent.wait (c : Consistent g) (mode : KeyboardMode) (session : Nat)
    (now : Instant) : Consistent (g.wait mode session now) := by
  unfold Grab.wait
  split
  · exact c
  rename_i owner
  split
  · exact c.schedule mode now (not_not.mp owner)
  · exact c.release

theorem Consistent.deferredRelease (c : Consistent g) (thread : Deferred) :
    Consistent (g.deferredRelease thread) := by
  unfold Grab.deferredRelease
  simp only
  split <;> rename_i fires
  · exact ⟨rfl, rfl, nofun, .inl ⟨_, List.mem_append_right _ List.mem_cons_self, rfl⟩, c.ends⟩
  · refine ⟨c.hooked, c.lastGrab, fun pending => ?_, c.settled, c.ends⟩
    obtain ⟨other, mem, fires'⟩ := c.pending pending
    have ne : other ≠ thread := by
      rintro rfl
      exact fires fires'
    exact ⟨other, (List.mem_erase_of_ne ne).mpr mem, fires'⟩

theorem Consistent.lockOp (c : Consistent g) {op : GrabOp} (free : g.holder = none) :
    Consistent (g.lockOp op) := by
  unfold Grab.lockOp
  by_cases serves : op.Serves g.state.owner
  · obtain ⟨call, calls, eq, last⟩ := opCalls_of_serves c serves
    rw [eq]
    refine ⟨c.hooked, c.lastGrab, c.pending, .inr (.inl ⟨op, _, rfl, serves⟩), ?_⟩
    intro op' calls' held
    cases held
    exact last
  · rw [opCalls_of_not_serves serves]
    refine ⟨c.hooked, c.lastGrab, c.pending, ?_, nofun⟩
    rcases c.settled with ⟨other, mem, serves'⟩ | ⟨_, _, held, -⟩ | ⟨-, enabled⟩
    · have ne : other ≠ op := by
        rintro rfl
        exact serves serves'
      exact .inl ⟨other, (List.mem_erase_of_ne ne).mpr mem, serves'⟩
    · exact nomatch free.symm.trans held
    · exact .inr (.inr ⟨rfl, enabled⟩)

theorem Consistent.callRdev (c : Consistent g) : Consistent g.callRdev := by
  unfold Grab.callRdev
  split
  · rename_i op call calls held
    have last := c.ends op _ held
    have next : (∃ op ∈ g.ops, op.Serves g.state.owner) ∨ op.Serves g.state.owner := by
      rcases c.settled with waiting | ⟨_, _, held', serves⟩ | ⟨free, -⟩
      · exact .inl waiting
      · cases held.symm.trans held'
        exact .inr serves
      · exact nomatch free.symm.trans held
    cases calls with
    | nil =>
      refine ⟨c.hooked, c.lastGrab, c.pending, next.imp_right fun serves => ?_, nofun⟩
      have call' : call = op.lastCall := Option.some.inj last
      exact .inr ⟨rfl, call' ▸ serves.lastCall⟩
    | cons call' calls =>
      refine ⟨c.hooked, c.lastGrab, c.pending, ?_, ?_⟩
      · exact next.imp_right fun serves => .inl ⟨op, _, rfl, serves⟩
      · intro op' calls' held'
        cases held'
        simpa using last
  · exact c

/-- **What one step keeps.** -/
theorem Consistent.step (c : Consistent g) (rdevEnabled : Bool) (e : GrabEvent) :
    Consistent (g.step rdevEnabled e) := by
  cases e with
  | changeGrabStatus state mode session now =>
    cases state with
    | ready | exit => exact c
    | run =>
      simp only [Grab.step]
      split
      · exact c.run session now
      · exact c
    | wait =>
      simp only [Grab.step]
      split
      · exact c.wait mode session now
      · exact c
  | deferredRelease thread now =>
    simp only [Grab.step]
    split
    · exact c.deferredRelease thread
    · exact c
  | lockOp op =>
    simp only [Grab.step]
    split <;> rename_i free
    · exact c.lockOp free.2
    · exact c
  | callRdev => exact c.callRdev

end Grab

def times (es : List GrabEvent) : List Instant := es.filterMap GrabEvent.time?

theorem times_snoc (es : List GrabEvent) (e : GrabEvent) :
    times (es ++ [e]) = times es ++ e.time?.toList := by
  rw [times, List.filterMap_append]
  cases time : e.time? <;> simp [times, time]

theorem ticks_snoc {es : List GrabEvent} {e : GrabEvent} :
    Ticks (es ++ [e]) ↔ Ticks es ∧ ∀ now, e.time? = some now → ∀ t ∈ times es, t < now := by
  rw [Ticks, List.filterMap_append, List.pairwise_append]
  constructor
  · rintro ⟨ticks, -, later⟩
    exact ⟨ticks, fun now time t mem => later t mem now (by simp [time])⟩
  · rintro ⟨ticks, later⟩
    refine ⟨ticks, ?_, fun t mem now time => later now ?_ t mem⟩
    · cases time : e.time? <;> simp [time]
    · simpa using time

theorem lastCall_snoc (session : Nat) (es : List GrabEvent) (e : GrabEvent) :
    lastCall session (es ++ [e]) = (e.callOf? session).or (lastCall session es) := by
  rw [lastCall, List.filterMap_append, List.getLast?_append]
  cases call : e.callOf? session <;> simp [lastCall, call]

/-- A thread comes from a `Wait`, which found a grab from before. -/
structure Deferred.FromWait (es : List GrabEvent) (thread : Deferred) : Prop where
  called : .changeGrabStatus .wait thread.mode thread.session thread.scheduled ∈ es
  before : ∀ t, thread.snapshot = some t → t < thread.scheduled

/-- The clock and the calls so far, against the state that they lead to. -/
structure Grab.Traced (rdevEnabled : Bool) (es : List GrabEvent) (g : Grab) : Prop where
  disabled : rdevEnabled = false → g.state.lastGrab = none
  past : ∀ last, g.state.lastGrab = some last → last ∈ times es
  ran : ∀ mode session t, .changeGrabStatus .run mode session t ∈ es →
    ∀ last, g.state.lastGrab = some last → t ≤ last
  threads : ∀ thread ∈ g.deferred, thread.FromWait es
  waited : ∀ session, g.state.owner = some session → lastCall session es = some .wait →
    g.state.deferredPending = true

theorem Deferred.FromWait.snoc {es : List GrabEvent} {thread : Deferred}
    (old : thread.FromWait es) (e : GrabEvent) : thread.FromWait (es ++ [e]) :=
  ⟨List.mem_append_left _ old.called, old.before⟩

namespace Grab
variable {g : Grab} {rdevEnabled : Bool} {es : List GrabEvent}

theorem Traced.init (rdevEnabled : Bool) : Traced rdevEnabled [] {} where
  disabled _ := rfl
  past := nofun
  ran := nofun
  threads := nofun
  waited := nofun

/-- A `Run` that is heard makes the grab the youngest. -/
theorem Traced.run (t : Traced rdevEnabled es g) {mode : KeyboardMode} {session : Nat}
    {now : Instant} (enabled : rdevEnabled = true) (later : ∀ t ∈ times es, t < now) :
    Traced rdevEnabled (es ++ [GrabEvent.changeGrabStatus .run mode session now])
      (g.run session now) := by
  have after : (g.run session now).state = ⟨some session, some now, false⟩ ∧
      (g.run session now).deferred = g.deferred := by
    unfold Grab.run
    split <;> rename_i owner
    · exact ⟨by simp [owner], rfl⟩
    · exact ⟨rfl, rfl⟩
  constructor
  · intro disabled
    exact nomatch enabled.symm.trans disabled
  · intro last eq
    rw [after.1] at eq
    cases eq
    rw [times_snoc]
    exact List.mem_append_right _ List.mem_cons_self
  · intro mode' session' t' mem last eq
    rw [after.1] at eq
    cases eq
    rcases List.mem_append.mp mem with old | new
    · exact Nat.le_of_lt (later t' (List.mem_filterMap.mpr ⟨_, old, rfl⟩))
    · cases List.mem_singleton.mp new
      exact Nat.le_refl _
  · intro thread mem
    rw [after.2] at mem
    exact (t.threads thread mem).snoc _
  · intro session' owner last
    rw [after.1] at owner
    cases owner
    rw [lastCall_snoc] at last
    simp [GrabEvent.callOf?] at last

/-- A step that is no `Run`, or is not heard, keeps the time of the grab or forgets it. -/
theorem Traced.keep (t : Traced rdevEnabled es g) {g' : Grab} {e : GrabEvent}
    (lastGrab : g'.state.lastGrab = g.state.lastGrab ∨ g'.state.lastGrab = none)
    (unheard : ∀ mode session now, e = .changeGrabStatus .run mode session now →
      rdevEnabled = false)
    (threads : ∀ thread ∈ g'.deferred, thread ∈ g.deferred ∨ thread.FromWait (es ++ [e]))
    (waited : ∀ session, g'.state.owner = some session →
      lastCall session (es ++ [e]) = some .wait → g'.state.deferredPending = true) :
    Traced rdevEnabled (es ++ [e]) g' := by
  have same : ∀ last, g'.state.lastGrab = some last → g.state.lastGrab = some last := by
    intro last eq
    rcases lastGrab with kept | gone
    · exact kept ▸ eq
    · exact nomatch gone.symm.trans eq
  constructor
  · intro disabled
    rcases lastGrab with kept | gone
    · exact kept.trans (t.disabled disabled)
    · exact gone
  · intro last eq
    rw [times_snoc]
    exact List.mem_append_left _ (t.past last (same last eq))
  · intro mode session t' mem last eq
    rcases List.mem_append.mp mem with old | new
    · exact t.ran mode session t' old last (same last eq)
    · have off := unheard mode session t' (List.mem_singleton.mp new).symm
      exact nomatch (t.disabled off).symm.trans (same last eq)
  · intro thread mem
    rcases threads thread mem with old | new
    · exact (t.threads thread old).snoc e
    · exact new
  · exact waited

/-- Nobody called: what the owner called last is as before. -/
theorem Traced.quiet (t : Traced rdevEnabled es g) {g' : Grab} {e : GrabEvent}
    (state : g'.state = g.state) (silent : ∀ session, e.callOf? session = none)
    (threads : ∀ thread ∈ g'.deferred, thread ∈ g.deferred) :
    Traced rdevEnabled (es ++ [e]) g' := by
  refine t.keep (.inl (by rw [state])) ?_ (fun thread mem => .inl (threads thread mem)) ?_
  · rintro mode session now rfl
    simpa [GrabEvent.callOf?] using silent session
  · intro session owner last
    rw [lastCall_snoc, silent session] at last
    rw [state] at owner ⊢
    exact t.waited session owner last

theorem Traced.released (t : Traced rdevEnabled es g) {g' : Grab} {e : GrabEvent}
    (state : g'.state = {})
    (unheard : ∀ mode session now, e = .changeGrabStatus .run mode session now →
      rdevEnabled = false)
    (threads : ∀ thread ∈ g'.deferred, thread ∈ g.deferred) :
    Traced rdevEnabled (es ++ [e]) g' := by
  refine t.keep (.inr (by rw [state])) unheard (fun thread mem => .inl (threads thread mem)) ?_
  intro session owner
  rw [state] at owner
  exact nomatch owner

theorem Traced.schedule (t : Traced rdevEnabled es g) (mode : KeyboardMode) {session : Nat}
    {now : Instant} (later : ∀ t ∈ times es, t < now) :
    Traced rdevEnabled (es ++ [GrabEvent.changeGrabStatus .wait mode session now])
      (g.schedule mode session now) := by
  unfold Grab.schedule
  split <;> rename_i pending
  · exact t.keep (.inl rfl) nofun (fun thread mem => .inl mem) fun _ _ _ => pending
  · refine t.keep (.inl rfl) nofun (fun thread mem => ?_) fun _ _ _ => rfl
    rcases List.mem_append.mp mem with old | new
    · exact .inl old
    · cases List.mem_singleton.mp new
      exact .inr ⟨List.mem_append_right _ List.mem_cons_self,
        fun last eq => later last (t.past last eq)⟩

theorem Traced.wait (t : Traced rdevEnabled es g) (mode : KeyboardMode) (session : Nat)
    {now : Instant} (later : ∀ t ∈ times es, t < now) :
    Traced rdevEnabled (es ++ [GrabEvent.changeGrabStatus .wait mode session now])
      (g.wait mode session now) := by
  unfold Grab.wait
  split <;> rename_i owner
  · refine t.keep (.inl rfl) nofun (fun thread mem => .inl mem) fun session' owner' last => ?_
    have other : session ≠ session' := by
      rintro rfl
      exact owner owner'
    rw [lastCall_snoc] at last
    simp only [GrabEvent.callOf?, other, false_and, if_false, Option.none_or] at last
    exact t.waited session' owner' last
  · split
    · exact t.schedule mode later
    · exact t.released rfl nofun fun thread mem => mem

theorem Traced.deferredRelease (t : Traced rdevEnabled es g) (thread : Deferred)
    (now : Instant) :
    Traced rdevEnabled (es ++ [GrabEvent.deferredRelease thread now])
      (g.deferredRelease thread) := by
  unfold Grab.deferredRelease
  simp only
  split
  · exact t.released rfl nofun fun _ mem => List.mem_of_mem_erase mem
  · exact t.quiet rfl (fun _ => rfl) fun _ mem => List.mem_of_mem_erase mem

theorem hold_state (op : GrabOp) (calls : List RdevCall) :
    (g.hold op calls).state = g.state ∧ (g.hold op calls).deferred = g.deferred := by
  cases calls <;> exact ⟨rfl, rfl⟩

/-- What a call that does nothing leaves. -/
theorem Traced.ignored (t : Traced rdevEnabled es g) {e : GrabEvent}
    (off : rdevEnabled = false) (c : Consistent g) : Traced rdevEnabled (es ++ [e]) g := by
  refine t.keep (.inl rfl) (fun _ _ _ _ => off) (fun thread mem => .inl mem) ?_
  intro session owner
  have none := c.lastGrab
  rw [t.disabled off, owner] at none
  exact nomatch none

theorem Traced.step (t : Traced rdevEnabled es g) (c : Consistent g) {e : GrabEvent}
    (later : ∀ now, e.time? = some now → ∀ t ∈ times es, t < now) :
    Traced rdevEnabled (es ++ [e]) (g.step rdevEnabled e) := by
  cases e with
  | changeGrabStatus state mode session now =>
    have after := later now rfl
    cases state with
    | ready | exit => exact t.quiet rfl (fun _ => by simp [GrabEvent.callOf?]) fun _ mem => mem
    | run =>
      simp only [Grab.step]
      split <;> rename_i enabled
      · exact t.run enabled after
      · exact t.ignored (by simpa using enabled) c
    | wait =>
      simp only [Grab.step]
      split <;> rename_i enabled
      · exact t.wait mode session after
      · exact t.ignored (by simpa using enabled) c
  | deferredRelease thread now =>
    simp only [Grab.step]
    split
    · exact t.deferredRelease thread now
    · exact t.quiet rfl (fun _ => rfl) fun _ mem => mem
  | lockOp op =>
    simp only [Grab.step]
    split
    · obtain ⟨state, deferred⟩ := hold_state
        (g := { g with ops := g.ops.erase op }) op (g.opCalls op)
      exact t.quiet state (fun _ => rfl) fun _ mem => deferred ▸ mem
    · exact t.quiet rfl (fun _ => rfl) fun _ mem => mem
  | callRdev =>
    simp only [Grab.step, Grab.callRdev]
    split
    · rename_i op call calls _
      obtain ⟨state, deferred⟩ := hold_state
        (g := { g with enabled := call = RdevCall.enableGrab }) op calls
      exact t.quiet state (fun _ => rfl) fun _ mem => deferred ▸ mem
    · exact t.quiet rfl (fun _ => rfl) fun _ mem => mem

theorem after_sound (es : List GrabEvent) (ticks : Ticks es) :
    Consistent (after rdevEnabled es) ∧ Traced rdevEnabled es (after rdevEnabled es) := by
  induction es using List.reverseRecOn with
  | nil => exact ⟨.init, .init rdevEnabled⟩
  | append_singleton es e ih =>
    obtain ⟨ticks, later⟩ := ticks_snoc.mp ticks
    obtain ⟨c, t⟩ := ih ticks
    rw [after, Runs.run_append]
    exact ⟨c.step rdevEnabled e, t.step c later⟩

/-- A thread does not fire once its session has called `Run` again. -/
theorem Traced.stale (t : Traced rdevEnabled es g) (c : Consistent g) {thread : Deferred}
    (inFlight : thread ∈ g.deferred) {mode : KeyboardMode} {now : Instant}
    (ran : .changeGrabStatus .run mode thread.session now ∈ es)
    (again : thread.scheduled < now) : g.fires thread = false := by
  by_contra fires
  simp only [Grab.fires, Bool.not_eq_false, Bool.and_eq_true, decide_eq_true_eq] at fires
  obtain ⟨owner, snapshot⟩ := fires
  have some := c.lastGrab
  rw [owner, Option.isSome_some, Option.isSome_iff_exists] at some
  obtain ⟨last, eq⟩ := some
  have young := t.ran mode thread.session now ran last eq
  have old := (t.threads thread inFlight).before last (snapshot ▸ eq)
  exact absurd young (Nat.not_le_of_lt (Nat.lt_trans old again))

end Grab

/-- What a run of calls, threads and grab steps keeps to. -/
structure Grab.Ownership (rdevEnabled : Bool) (es : List GrabEvent) (g : Grab) : Prop where
  /-- A `Wait` of another session than the owner does not change the owner. -/
  wait : ∀ mode session now, g.state.owner ≠ some session →
    (g.step rdevEnabled (.changeGrabStatus .wait mode session now)).state.owner = g.state.owner
  /-- Nor does a deferred release of another session. -/
  deferred : ∀ thread now, g.state.owner ≠ some thread.session →
    (g.step rdevEnabled (.deferredRelease thread now)).state.owner = g.state.owner
  /-- A thread was scheduled by a `Wait`, and does nothing to the grab once its session has
  called `Run` after that. -/
  stale : ∀ thread ∈ g.deferred,
    .changeGrabStatus .wait thread.mode thread.session thread.scheduled ∈ es ∧
    ∀ mode now, .changeGrabStatus .run mode thread.session now ∈ es → thread.scheduled < now →
      ∀ now', (g.step rdevEnabled (.deferredRelease thread now')).state = g.state
  /-- An owner that called `Wait` last has a thread in flight for the current grab. -/
  leaves : ∀ session, g.state.owner = some session → lastCall session es = some .wait →
    ∃ thread ∈ g.deferred, thread.session = session ∧ thread.snapshot = g.state.lastGrab
  /-- With no step pending the grab is as its owner needs it. -/
  settled : g.ops = [] → g.holder = none →
    (g.enabled = true ↔ ∃ session, g.state.owner = some session) ∧
      g.hooked = g.state.owner.isSome

theorem Grab.deferredRelease_state {g : Grab} {thread : Deferred} (fires : g.fires thread = false)
    (rdevEnabled : Bool) (now : Instant) :
    (g.step rdevEnabled (.deferredRelease thread now)).state = g.state := by
  simp only [Grab.step]
  split
  · simp [Grab.deferredRelease, fires]
  · rfl

theorem Grab.Consistent.enabled_iff {g : Grab} (c : Consistent g) (ops : g.ops = [])
    (holder : g.holder = none) : g.enabled = g.state.owner.isSome := by
  rcases c.settled with ⟨op, mem, -⟩ | ⟨_, _, held, -⟩ | ⟨-, enabled⟩
  · rw [ops] at mem
    exact nomatch mem
  · exact nomatch holder.symm.trans held
  · exact enabled

/-- **The grab has one owner and follows it.** In every interleaving of calls, deferred
releases and grab steps with a strictly increasing clock. -/
theorem grab_ownership (rdevEnabled : Bool) (es : List GrabEvent) (ticks : Ticks es) :
    Grab.Ownership rdevEnabled es (Grab.after rdevEnabled es) := by
  obtain ⟨c, t⟩ := @Grab.after_sound rdevEnabled es ticks
  constructor
  · intro mode session now other
    simp only [Grab.step]
    split
    · rw [Grab.wait, if_pos other]
    · rfl
  · intro thread now other
    have fires : (Grab.after rdevEnabled es).fires thread = false := by
      simp [Grab.fires, other]
    rw [Grab.deferredRelease_state fires]
  · intro thread inFlight
    refine ⟨(t.threads thread inFlight).called, fun mode now ran again now' => ?_⟩
    exact Grab.deferredRelease_state (t.stale c inFlight ran again) rdevEnabled now'
  · intro session owner last
    obtain ⟨thread, inFlight, fires⟩ := c.pending (t.waited session owner last)
    simp only [Grab.fires, Bool.and_eq_true, decide_eq_true_eq] at fires
    exact ⟨thread, inFlight, Option.some.inj (fires.1.symm.trans owner), fires.2.symm⟩
  · intro ops holder
    refine ⟨?_, c.hooked⟩
    rw [c.enabled_iff ops holder]
    exact Option.isSome_iff_exists

/-- Session 1 enters, leaves within the debounce time and enters again before its thread
wakes up, and session 2 takes over. -/
def sampleGrabEvents : List GrabEvent :=
  [.changeGrabStatus .run .map 1 1000000, .lockOp (.applyRunGrabIfOwner 1 false), .callRdev,
    .changeGrabStatus .wait .map 1 101000000, .changeGrabStatus .run .map 1 201000000,
    .deferredRelease ⟨1, some 1000000, .map, 101000000, 351000000⟩ 351000000,
    .changeGrabStatus .run .map 2 401000000, .lockOp (.applyRunGrabIfOwner 2 true), .callRdev,
    .callRdev]

/-- At its end session 2 has the grab, which is enabled. -/
theorem grab_ownership_handover :
    (Grab.after true sampleGrabEvents).state.owner = some 2 ∧
      (Grab.after true sampleGrabEvents).enabled = true :=
  have sound := grab_ownership true sampleGrabEvents (by decide)
  ⟨by decide, (sound.settled (by decide) (by decide)).1.mpr ⟨2, by decide⟩⟩

end CamelliaRemote.Client
