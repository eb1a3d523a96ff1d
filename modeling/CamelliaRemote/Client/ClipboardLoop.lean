import CamelliaRemote.Lib.Runs

/-!
The clipboard loop of the client, `src/client.rs`, `src/clipboard.rs`. `try_start_clipboard` holds
`CLIPBOARD_STATE` while it subscribes a new channel and spawns the loop that receives from it.
`try_stop_clipboard` unsubscribes, and then resets `running`. A loop resets `running` too, on its
way out. Each access to `CLIPBOARD_STATE`, to the listener or to a channel is a step. The loops go
by the number of their channel.
-/

namespace CamelliaRemote.ClipboardLoop
open Runs

inductive CallbackResult where
  | next
  | stop
  | stopWithError
  deriving DecidableEq

/-- Where the loop of a channel is. -/
inductive Phase where
  /-- Subscribed, and not spawned yet. -/
  | spawning
  /-- `clipboard_listener::subscribe` failed. -/
  | failed
  /-- Before it reads `running`. -/
  | testing
  | receiving
  | handling
  /-- Out of the loop, before it resets `running`. -/
  | leaving
  | done
  deriving DecidableEq

def Phase.live : Phase → Bool
  | .failed | .done => false
  | _ => true

structure Loop where
  phase : Phase := .spawning
  queue : List CallbackResult := []
  /-- A call of `try_stop_clipboard` came later, a stop was sent to the channel of the loop, or
  its channel was disconnected. -/
  excused : Bool := false
  deriving DecidableEq

/-- The call of `try_start_clipboard` that holds `CLIPBOARD_STATE`. -/
inductive Starting where
  | free
  | locked
  | subscribed (channel : Nat)
  deriving DecidableEq

structure State where
  running : Bool := false
  starting : Starting := .free
  /-- The channel that the listener sends the client's notifications to. -/
  subscriber : Option Nat := none
  /-- The calls of `try_stop_clipboard` between their two steps. -/
  stopping : Nat := 0
  loops : List Loop := []

inductive Event where
  | tryStart
  | subscribe
  /-- What `clipboard_listener::subscribe` returned. -/
  | spawn (subscribed : Bool)
  /-- A `try_stop_clipboard` that finds no connected session. -/
  | unsubscribe
  | stopRunning
  | onClipboardChange
  | onClipboardError
  | testRunning (i : Nat)
  | recv (i : Nat)
  | handled (i : Nat)
  | finish (i : Nat)
  deriving DecidableEq

namespace State
variable (s : State)

def locked : Bool := s.starting ≠ .free

def phase (i : Nat) : Option Phase := s.loops[i]?.map Loop.phase

def update (i : Nat) (f : Loop → Loop) : State := { s with loops := s.loops.modify i f }

def goTo (i : Nat) (phase : Phase) : State := s.update i fun loop => { loop with phase }

/-- The sender of the channel is dropped, or a stop is sent to it. -/
def excuse (i : Nat) : State := s.update i fun loop => { loop with excused := true }

def send (i : Nat) (result : CallbackResult) : State :=
  s.update i fun loop => { loop with queue := loop.queue ++ [result] }

/-- What is sent to the subscriber. -/
def notify (result : CallbackResult) : State :=
  match s.subscriber with
  | some i => if result = .next then s.send i result else (s.send i result).excuse i
  | none => s

def tryStart : State :=
  if s.locked || s.running then s else { s with starting := .locked }

/-- The sender of the subscriber before is dropped. -/
def subscribe : State :=
  match s.starting with
  | .locked =>
    let replaced := match s.subscriber with
      | some old => s.excuse old
      | none => s
    { replaced with
      starting := .subscribed s.loops.length
      subscriber := some s.loops.length
      loops := replaced.loops ++ [{ phase := .spawning }] }
  | _ => s

def spawn (subscribed : Bool) : State :=
  match s.starting with
  | .subscribed i =>
    if s.phase i = some .spawning then
      if subscribed then { s.goTo i .testing with running := true, starting := .free }
      else { s.goTo i .failed with starting := .free }
    else s
  | _ => s

def unsubscribe : State :=
  { s.notify .stop with
    subscriber := none
    stopping := s.stopping + 1
    loops := (s.notify .stop).loops.map fun loop => { loop with excused := true } }

def stopRunning : State :=
  if s.locked || s.stopping = 0 then s
  else { s with running := false, stopping := s.stopping - 1 }

def testRunning (i : Nat) : State :=
  if s.locked then s else s.goTo i (if s.running then .receiving else .leaving)

/-- `recv_timeout`; an empty channel is disconnected or times out. -/
def recv (i : Nat) (loop : Loop) : State :=
  match loop.queue with
  | .next :: queue => s.update i fun loop => { loop with phase := .handling, queue }
  | _ :: queue => s.update i fun loop => { loop with phase := .leaving, queue }
  | [] => s.goTo i (if s.subscriber = some i then .testing else .leaving)

def finish (i : Nat) : State :=
  if s.locked then s else { s.goTo i .done with running := false }

/-- The steps of a loop, at the phase that it has reached. -/
def step : Event → State
  | .tryStart => s.tryStart
  | .subscribe => s.subscribe
  | .spawn subscribed => s.spawn subscribed
  | .unsubscribe => s.unsubscribe
  | .stopRunning => s.stopRunning
  | .onClipboardChange => s.notify .next
  | .onClipboardError => s.notify .stopWithError
  | .testRunning i => if s.phase i = some .testing then s.testRunning i else s
  | .recv i =>
    match s.loops[i]? with
    | some loop => if loop.phase = .receiving then s.recv i loop else s
    | none => s
  | .handled i => if s.phase i = some .handling then s.goTo i .testing else s
  | .finish i => if s.phase i = some .leaving then s.finish i else s

abbrev after (events : List Event) : State := Runs.run step {} events

/-- At most one loop handles changes, and a loop that has ended was excused. -/
structure OneLoop : Prop where
  handling : ∀ i j, s.phase i = some .handling → s.phase j = some .handling → i = j
  ended : ∀ loop ∈ s.loops, loop.phase = .leaving ∨ loop.phase = .done → loop.excused = true

/-- A call subscribes when every loop before it is over, and every call of
`try_stop_clipboard` too. -/
def InOrder : Event → Prop
  | .subscribe =>
    s.starting = .locked → s.stopping = 0 ∧ ∀ loop ∈ s.loops, loop.phase.live = false
  | _ => True

instance : ∀ e, Decidable (s.InOrder e)
  | .subscribe => inferInstanceAs (Decidable (s.starting = .locked → s.stopping = 0 ∧ _))
  | .tryStart | .spawn _ | .unsubscribe | .stopRunning | .onClipboardChange | .onClipboardError
  | .testRunning _ | .recv _ | .handled _ | .finish _ => .isTrue trivial

/-- The latest loop alone is live; until it is excused it runs, and the listener sends to it. -/
structure Kept (i : Nat) (loop : Loop) : Prop where
  latest : loop.phase.live = true → i + 1 = s.loops.length
  running : loop.phase.live = true → loop.excused = false → loop.phase ≠ .spawning →
    s.running = true
  stopping : loop.phase.live = true → loop.excused = false → s.stopping = 0
  subscriber : loop.phase.live = true → loop.excused = false → s.subscriber = some i
  stopped : ∀ result ∈ loop.queue, result ≠ .next → loop.excused = true
  ended : loop.phase = .leaving ∨ loop.phase = .done → loop.excused = true

def Inv : Prop := ∀ i loop, s.loops[i]? = some loop → s.Kept i loop

variable {s}

theorem getElem?_update {i j : Nat} {f : Loop → Loop} {loop : Loop}
    (at_j : (s.update i f).loops[j]? = some loop) :
    ∃ old, s.loops[j]? = some old ∧ loop = if i = j then f old else old := by
  rw [update, List.getElem?_modify, Option.map_eq_map] at at_j
  obtain ⟨old, at_j, eq⟩ := Option.map_eq_some_iff.mp at_j
  exact ⟨old, at_j, eq.symm⟩

@[simp] theorem length_update (i : Nat) (f : Loop → Loop) :
    (s.update i f).loops.length = s.loops.length := by
  simp [update]

/-- One loop is changed, with `running` and nothing else that the others depend on. -/
theorem Inv.update (inv : Inv s) (i : Nat) {f : Loop → Loop}
    (own : ∀ loop, s.loops[i]? = some loop → s.Kept i loop → s.Kept i (f loop)) :
    Inv (s.update i f) := by
  intro j loop at_j
  obtain ⟨old, was, rfl⟩ := getElem?_update at_j
  have length : (s.update i f).loops.length = s.loops.length := length_update i f
  have kept : s.Kept j (if i = j then f old else old) := by
    split
    · rename_i eq
      subst eq
      exact own old was (inv i old was)
    · exact inv j old was
  exact { kept with latest := fun live => (kept.latest live).trans length.symm }

theorem Inv.excuse (inv : Inv s) (i : Nat) : Inv (s.excuse i) :=
  inv.update i fun loop _ kept =>
    { kept with
      running := fun _ excused => by cases excused
      stopping := fun _ excused => by cases excused
      subscriber := fun _ excused => by cases excused
      stopped := fun _ _ _ => rfl
      ended := fun _ => rfl }

theorem Inv.sendNext (inv : Inv s) (i : Nat) : Inv (s.send i .next) :=
  inv.update i fun loop _ kept =>
    { kept with
      stopped := fun result mem other => by
        rcases List.mem_append.mp mem with old | new
        · exact kept.stopped result old other
        · exact absurd (List.mem_singleton.mp new) other }

theorem excuse_send (i : Nat) (result : CallbackResult) :
    (s.send i result).excuse i =
      s.update i fun loop => { loop with queue := loop.queue ++ [result], excused := true } := by
  simp only [excuse, send, update, List.modify_modify_eq]
  rfl

theorem Inv.notify (inv : Inv s) (result : CallbackResult) : Inv (s.notify result) := by
  unfold State.notify
  split
  · rename_i i _
    split
    · rename_i next
      exact next ▸ inv.sendNext i
    · rw [excuse_send]
      refine inv.update i fun loop _ kept =>
        { kept with
          running := fun _ excused => by cases excused
          stopping := fun _ excused => by cases excused
          subscriber := fun _ excused => by cases excused
          stopped := fun _ _ _ => rfl
          ended := fun _ => rfl }
  · exact inv

/-- A loop goes on without leaving. -/
theorem Inv.goTo (inv : Inv s) {i : Nat} {phase : Phase}
    (known : ∀ loop, s.loops[i]? = some loop → loop.phase.live = true ∧ loop.phase ≠ .spawning)
    (excused : ∀ loop, s.loops[i]? = some loop → phase = .leaving ∨ phase = .done →
      loop.excused = true) : Inv (s.goTo i phase) := by
  refine inv.update i fun loop at_i kept => ?_
  obtain ⟨live, spawned⟩ := known loop at_i
  exact
    { latest := fun _ => kept.latest live
      running := fun _ unexcused _ => kept.running live unexcused spawned
      stopping := fun _ unexcused => kept.stopping live unexcused
      subscriber := fun _ unexcused => kept.subscriber live unexcused
      stopped := kept.stopped
      ended := excused loop at_i }

/-- A new channel when nothing else is under way. -/
theorem Inv.append (inv : Inv s) (calm : s.stopping = 0)
    (over' : ∀ loop ∈ s.loops, loop.phase.live = false) (starting : Starting) :
    Inv { s with
      starting
      subscriber := some s.loops.length
      loops := s.loops ++ [{ phase := .spawning }] } := by
  intro i loop at_i
  rcases Nat.lt_or_ge i s.loops.length with old | new
  · have was : s.loops[i]? = some loop := by
      rwa [List.getElem?_append_left old] at at_i
    have dead {P : Prop} (live : loop.phase.live = true) : P := by
      rw [over' loop (List.mem_of_getElem? was)] at live
      cases live
    have kept := inv i loop was
    exact ⟨dead, dead, dead, dead, kept.stopped, kept.ended⟩
  · rw [List.getElem?_append_right new] at at_i
    obtain ⟨last, eq⟩ := List.getElem?_eq_some_iff.mp at_i
    simp only [List.length_singleton] at last
    simp only [List.getElem_singleton] at eq
    have : i = s.loops.length := by omega
    subst this eq
    exact
      { latest := fun _ => by simp
        running := fun _ _ spawned => absurd rfl spawned
        stopping := fun _ _ => calm
        subscriber := fun _ _ => rfl
        stopped := fun result mem => by cases mem
        ended := fun h => by rcases h with h | h <;> cases h }

theorem Inv.subscribe (inv : Inv s) (order : s.InOrder .subscribe) : Inv s.subscribe := by
  unfold State.subscribe
  split
  · rename_i locked
    obtain ⟨calm, over'⟩ := order locked
    split
    · rename_i old _
      have dead : ∀ loop ∈ (s.excuse old).loops, loop.phase.live = false := by
        intro loop mem
        obtain ⟨i, at_i⟩ := List.mem_iff_getElem?.mp mem
        obtain ⟨was, at_old, rfl⟩ := getElem?_update at_i
        have := over' was (List.mem_of_getElem? at_old)
        split <;> exact this
      have appended := (inv.excuse old).append calm dead (.subscribed s.loops.length)
      rwa [State.excuse, length_update] at appended
    · exact inv.append calm over' _
  · exact inv

theorem Inv.setStarting (inv : Inv s) (starting : Starting) : Inv { s with starting } :=
  fun i loop at_i => { inv i loop at_i with }

theorem Inv.setRunning (inv : Inv s) : Inv { s with running := true } :=
  fun i loop at_i => { inv i loop at_i with running := fun _ _ _ => rfl }

theorem phase_of_getElem? {i : Nat} {loop : Loop} {phase : Phase}
    (here : s.phase i = some phase) (at_i : s.loops[i]? = some loop) : loop.phase = phase := by
  simpa [State.phase, at_i] using here

theorem Inv.spawn (inv : Inv s) (subscribed : Bool) : Inv (s.spawn subscribed) := by
  unfold State.spawn
  split
  · rename_i i _
    split
    · rename_i here
      split
      · refine Inv.setStarting (Inv.update inv.setRunning i fun loop at_i kept => ?_) _
        have spawning := phase_of_getElem? here at_i
        exact
          { latest := fun _ => kept.latest (by rw [spawning]; rfl)
            running := fun _ _ _ => rfl
            stopping := fun _ unexcused => kept.stopping (by rw [spawning]; rfl) unexcused
            subscriber := fun _ unexcused => kept.subscriber (by rw [spawning]; rfl) unexcused
            stopped := kept.stopped
            ended := fun h => by rcases h with h | h <;> cases h }
      · refine Inv.setStarting (inv.update i fun loop at_i kept => ?_) _
        exact
          { latest := fun live => by cases live
            running := fun live => by cases live
            stopping := fun live => by cases live
            subscriber := fun live => by cases live
            stopped := kept.stopped
            ended := fun h => by rcases h with h | h <;> cases h }
    · exact inv
  · exact inv

theorem Inv.unsubscribe (inv : Inv s) : Inv s.unsubscribe := by
  intro i loop at_i
  obtain ⟨old, was, rfl⟩ : ∃ old, (s.notify .stop).loops[i]? = some old ∧
      { old with excused := true } = loop := by
    simpa [State.unsubscribe] using at_i
  have kept := inv.notify .stop i old was
  exact
    { latest := fun live => (kept.latest live).trans (by simp [State.unsubscribe])
      running := fun _ unexcused => by cases unexcused
      stopping := fun _ unexcused => by cases unexcused
      subscriber := fun _ unexcused => by cases unexcused
      stopped := fun _ _ _ => rfl
      ended := fun _ => rfl }

/-- While a stop is under way every live loop is excused. -/
theorem Inv.stopRunning (inv : Inv s) : Inv s.stopRunning := by
  unfold State.stopRunning
  split
  · exact inv
  · rename_i goes
    intro i loop at_i
    have kept := inv i loop at_i
    have busy : s.stopping ≠ 0 := fun calm => goes (by simp [calm])
    exact
      { kept with
        running := fun live unexcused => absurd (kept.stopping live unexcused) busy
        stopping := fun live unexcused => absurd (kept.stopping live unexcused) busy }

theorem Inv.testRunning (inv : Inv s) {i : Nat} (here : s.phase i = some .testing) :
    Inv (s.testRunning i) := by
  have testing {loop : Loop} (at_i : s.loops[i]? = some loop) := phase_of_getElem? here at_i
  unfold State.testRunning
  split
  · exact inv
  · refine inv.goTo (fun loop at_i => by simp [testing at_i, Phase.live]) fun loop at_i leaves => ?_
    have kept := inv i loop at_i
    cases excused : loop.excused with
    | true => rfl
    | false =>
      have running := kept.running (by simp [testing at_i, Phase.live]) excused
        (by simp [testing at_i])
      simp [running] at leaves

theorem Inv.recv (inv : Inv s) {i : Nat} {loop : Loop} (at_i : s.loops[i]? = some loop)
    (receiving : loop.phase = .receiving) : Inv (s.recv i loop) := by
  have own := inv i loop at_i
  have live : loop.phase.live = true := by rw [receiving]; rfl
  have same {other : Loop} (at_other : s.loops[i]? = some other) : other = loop :=
    Option.some.inj (at_other.symm.trans at_i)
  unfold State.recv
  split
  · rename_i queue eq
    refine inv.update i fun other at_other _ => ?_
    rw [same at_other]
    exact
      { latest := fun _ => own.latest live
        running := fun _ unexcused _ => own.running live unexcused (by simp [receiving])
        stopping := fun _ => own.stopping live
        subscriber := fun _ => own.subscriber live
        stopped := fun result mem =>
          own.stopped result (by rw [eq]; exact List.mem_cons_of_mem _ mem)
        ended := fun h => by rcases h with h | h <;> cases h }
  · rename_i head queue other' eq
    refine inv.update i fun other at_other _ => ?_
    rw [same at_other]
    have excused := own.stopped head (by rw [eq]; exact List.mem_cons_self) other'
    exact
      { latest := fun _ => own.latest live
        running := fun _ unexcused => absurd (excused.symm.trans unexcused) (by simp)
        stopping := fun _ unexcused => absurd (excused.symm.trans unexcused) (by simp)
        subscriber := fun _ unexcused => absurd (excused.symm.trans unexcused) (by simp)
        stopped := fun _ _ _ => excused
        ended := fun _ => excused }
  · refine inv.goTo (fun other at_other => ?_) fun other at_other leaves => ?_
    · rw [same at_other]
      simp [receiving, Phase.live]
    · rw [same at_other]
      cases excused : loop.excused with
      | true => rfl
      | false => simp [own.subscriber live excused] at leaves

theorem Inv.finish (inv : Inv s) {i : Nat} (here : s.phase i = some .leaving) :
    Inv (s.finish i) := by
  unfold State.finish
  split
  · exact inv
  · intro j loop at_j
    obtain ⟨old, was, rfl⟩ := getElem?_update at_j
    have kept := inv j old was
    have length : (s.goTo i .done).loops.length = s.loops.length := length_update _ _
    by_cases eq : i = j
    · subst eq
      rw [if_pos rfl]
      exact
        { latest := fun live => by cases live
          running := fun live => by cases live
          stopping := fun live => by cases live
          subscriber := fun live => by cases live
          stopped := kept.stopped
          ended := fun _ => kept.ended (.inl (phase_of_getElem? here was)) }
    · rw [if_neg eq]
      have dead {P : Prop} (live : old.phase.live = true) : P := by
        obtain ⟨leaving, at_i, phase⟩ : ∃ loop, s.loops[i]? = some loop ∧
            loop.phase = .leaving := by
          simpa [State.phase] using here
        have := (inv i leaving at_i).latest (by rw [phase]; rfl)
        have := kept.latest live
        omega
      exact ⟨dead, dead, dead, dead, kept.stopped, kept.ended⟩

/-- **A step in order keeps the invariant.** -/
theorem Inv.step (inv : Inv s) {e : Event} (order : s.InOrder e) : Inv (s.step e) := by
  cases e with
  | tryStart =>
    simp only [State.step, State.tryStart]
    split
    · exact inv
    · exact inv.setStarting _
  | subscribe => exact inv.subscribe order
  | spawn subscribed => exact inv.spawn subscribed
  | unsubscribe => exact inv.unsubscribe
  | stopRunning => exact inv.stopRunning
  | onClipboardChange => exact inv.notify _
  | onClipboardError => exact inv.notify _
  | testRunning i =>
    simp only [State.step]
    split
    · rename_i here
      exact inv.testRunning here
    · exact inv
  | recv i =>
    simp only [State.step]
    split
    · rename_i loop at_i
      split
      · rename_i receiving
        exact inv.recv at_i receiving
      · exact inv
    · exact inv
  | handled i =>
    simp only [State.step]
    split
    · rename_i here
      exact inv.goTo (fun loop at_i => by simp [phase_of_getElem? here at_i, Phase.live])
        fun loop _ leaves => by rcases leaves with h | h <;> cases h
    · exact inv
  | finish i =>
    simp only [State.step]
    split
    · rename_i here
      exact inv.finish here
    · exact inv

theorem Inv.oneLoop (inv : Inv s) : OneLoop s where
  handling i j hi hj := by
    obtain ⟨loop, at_i, phase⟩ := Option.map_eq_some_iff.mp hi
    obtain ⟨other, at_j, phase'⟩ := Option.map_eq_some_iff.mp hj
    have := (inv i loop at_i).latest (by rw [phase]; rfl)
    have := (inv j other at_j).latest (by rw [phase']; rfl)
    omega
  ended loop mem over' := by
    obtain ⟨i, at_i⟩ := List.mem_iff_getElem?.mp mem
    exact (inv i loop at_i).ended over'

/-- **A loop never stops its successor**, and one loop handles changes, in every run that is
in order. -/
theorem one_loop {events : List Event} (order : Runs.Along step InOrder {} events) :
    OneLoop (after events) := by
  have start : Inv {} := fun i loop at_i => by cases at_i
  have inv := Runs.invariant (I := Inv) (fun _ _ inv ok => Inv.step inv ok) start order
  exact inv.oneLoop

/-- A loop is started. -/
def started : List Event := [.tryStart, .subscribe, .spawn true]

/-- The first loop is still receiving when the second one is started. -/
def slowLoop : List Event :=
  started ++ [Event.testRunning 0, .unsubscribe, .stopRunning] ++ started ++
    [Event.recv 0, .finish 0, .testRunning 1]

theorem successor_stopped : ¬ ∀ events, OneLoop (after events) := by
  intro all
  exact absurd ((all slowLoop).ended ⟨.leaving, [], false⟩ (by decide) (.inl rfl)) (by decide)

theorem restarted_oneLoop :
    OneLoop (after (started ++ [Event.testRunning 0, .onClipboardChange, .unsubscribe, .stopRunning,
      .recv 0, .handled 0, .testRunning 0, .finish 0] ++ started)) :=
  one_loop (by decide)

end State
end CamelliaRemote.ClipboardLoop
