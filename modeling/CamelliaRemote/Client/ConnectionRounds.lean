import CamelliaRemote.Lib.Runs
import Mathlib.Algebra.Ring.Nat

/-!
Rounds of connections, `src/ui_session_interface.rs`, `src/client/io_loop.rs`. A session starts an
`io_loop` for each round and does not wait for the ones before it. All of them record in one
`ConnectionRoundState` that they have connected and that they have ended.
-/

namespace CamelliaRemote.ConnectionRounds
open Runs

inductive ConnectionState where
  | connecting
  | connected
  | disconnected
  deriving DecidableEq

structure ConnectionRoundState where
  /-- A `u32`. -/
  round : Nat := 0
  state : ConnectionState := .connecting
  deriving DecidableEq

namespace ConnectionRoundState
variable (r : ConnectionRoundState)

def newRound : ConnectionRoundState :=
  { round := (r.round + 1) % 2 ^ 32, state := .connecting }

def setConnected : ConnectionRoundState := { r with state := .connected }

def isRoundGt (round : Nat) : Bool :=
  if round = 2 ^ 32 - 1 ∧ r.round = 0 then true else decide (round < r.round)

/-- With whether the round is not older than the recorded one. -/
def setDisconnected (round : Nat) : Bool × ConnectionRoundState :=
  if r.isRoundGt round then (false, r) else (true, { r with state := .disconnected })

def isConnected : Bool := r.state = .connected

end ConnectionRoundState

/-- How far an `io_loop` has come; `starting` waits in `Client::start`. -/
inductive Phase where
  | starting
  | connected
  | ended
  deriving DecidableEq

structure Loop where
  round : Nat
  phase : Phase
  deriving DecidableEq

structure State where
  record : ConnectionRoundState := {}
  /-- The session has set its `thread`. -/
  thread : Bool := false
  /-- Every `io_loop` that was started, oldest first. -/
  loops : List Loop := []

inductive Event where
  /-- `session_start_`, whose thread is not kept. -/
  | sessionStart
  | reconnect
  /-- `Client::start` of a loop succeeds. -/
  | connected (i : Nat)
  /-- `handle_disconnected`. -/
  | ended (i : Nat)
  deriving DecidableEq

namespace State
variable (s : State)

def newRound (thread : Bool) : State :=
  { record := s.record.newRound
    thread
    loops := s.loops ++ [⟨s.record.newRound.round, .starting⟩] }

/-- A session that is connecting is left alone. -/
def reconnect : State :=
  if s.thread && decide (s.record.state = .connecting) then s else s.newRound true

/-- Whether `set_disconnected` of the loop returns true. -/
def disconnectedOk (i : Nat) : Bool :=
  match s.loops[i]? with
  | some loop => (s.record.setDisconnected loop.round).1
  | none => false

def step : Event → State
  | .sessionStart => s.newRound s.thread
  | .reconnect => s.reconnect
  | .connected i =>
    match s.loops[i]? with
    | some ⟨round, .starting⟩ =>
      { s with record := s.record.setConnected, loops := s.loops.set i ⟨round, .connected⟩ }
    | _ => s
  | .ended i =>
    match s.loops[i]? with
    | some ⟨_, .ended⟩ | none => s
    | some ⟨round, _⟩ =>
      { s with
        record := (s.record.setDisconnected round).2
        loops := s.loops.set i ⟨round, .ended⟩ }

abbrev after (events : List Event) : State := Runs.run step {} events

/-- The event is of a loop that is not the latest. -/
def Older : Event → Prop
  | .connected i | .ended i => i + 1 < s.loops.length
  | _ => False

/-- An event of an older round leaves the record as it is; the session counts as connected
exactly while the latest loop is; and `set_disconnected` returns true exactly for it. -/
structure Independent (e : Event) : Prop where
  older : s.Older e → (s.step e).record = s.record
  connected : s.record.isConnected = true ↔ ∃ round, s.loops.getLast? = some ⟨round, .connected⟩
  disconnected : ∀ i < s.loops.length, s.disconnectedOk i = true ↔ i + 1 = s.loops.length

/-- An older loop connects only while the session counts as connected. -/
def InRound : Event → Prop
  | .connected i =>
    i + 1 < s.loops.length → s.loops[i]?.any (·.phase = .starting) = true →
      s.record.state = .connected
  | _ => True

instance : ∀ e, Decidable (s.InRound e)
  | .connected i => inferInstanceAs (Decidable (i + 1 < s.loops.length → _ → _))
  | .sessionStart | .reconnect | .ended _ => .isTrue trivial

/-- The rounds are counted in order. -/
structure Numbered : Prop where
  record : s.record.round = s.loops.length
  loops : ∀ i loop, s.loops[i]? = some loop → loop.round = i + 1

/-- The record tells the phase of the latest loop. -/
def recorded : ConnectionState :=
  match s.loops.getLast? with
  | some ⟨_, .connected⟩ => .connected
  | some ⟨_, .ended⟩ => .disconnected
  | some ⟨_, .starting⟩ | none => .connecting

variable {s}

theorem Numbered.newRound (numbered : Numbered s) (few : s.loops.length + 1 < 2 ^ 32)
    (thread : Bool) : Numbered (s.newRound thread) := by
  have next : s.record.newRound.round = s.loops.length + 1 := by
    simp only [ConnectionRoundState.newRound, numbered.record]
    omega
  refine ⟨by simp [State.newRound, next], fun i loop at_i => ?_⟩
  rcases Nat.lt_or_ge i s.loops.length with old | new
  · rw [State.newRound, List.getElem?_append_left old] at at_i
    exact numbered.loops i loop at_i
  · rw [State.newRound, List.getElem?_append_right new] at at_i
    obtain ⟨last, rfl⟩ := List.getElem?_eq_some_iff.mp at_i
    simp only [List.length_singleton] at last
    simp only [List.getElem_singleton, next]
    omega

theorem Numbered.setLoop (numbered : Numbered s) {i : Nat} {loop : Loop}
    (at_i : s.loops[i]? = some loop) {record : ConnectionRoundState}
    (same : record.round = s.record.round) (phase : Phase) :
    Numbered { s with record, loops := s.loops.set i ⟨loop.round, phase⟩ } := by
  refine ⟨by simp [same, numbered.record], fun j other at_j => ?_⟩
  rw [List.getElem?_set] at at_j
  split at at_j
  · rename_i eq
    split at at_j
    · rw [← Option.some.inj at_j, ← eq]
      exact numbered.loops i loop at_i
    · cases at_j
  · exact numbered.loops j other at_j

theorem setDisconnected_round (r : ConnectionRoundState) (round : Nat) :
    (r.setDisconnected round).2.round = r.round := by
  unfold ConnectionRoundState.setDisconnected
  split <;> rfl

theorem step_numbered (numbered : Numbered s) {e : Event}
    (few : (s.step e).loops.length < 2 ^ 32) : Numbered (s.step e) := by
  cases e with
  | sessionStart => exact numbered.newRound (by simpa [State.step, State.newRound] using few) _
  | reconnect =>
    simp only [State.step, State.reconnect] at few ⊢
    split
    · exact numbered
    · rename_i free
      rw [if_neg free] at few
      exact numbered.newRound (by simpa [State.newRound] using few) _
  | connected i =>
    simp only [State.step]
    split
    · rename_i at_i
      have same : s.record.setConnected.round = s.record.round := rfl
      exact numbered.setLoop at_i same _
    · exact numbered
  | ended i =>
    simp only [State.step]
    split
    · exact numbered
    · exact numbered
    · rename_i at_i
      exact numbered.setLoop at_i (setDisconnected_round _ _) _

theorem length_le_step (e : Event) : s.loops.length ≤ (s.step e).loops.length := by
  cases e with
  | sessionStart => simp [State.step, State.newRound]
  | reconnect =>
    simp only [State.step, State.reconnect]
    split <;> simp [State.newRound]
  | connected i => simp only [State.step]; split <;> simp
  | ended i => simp only [State.step]; split <;> simp

/-- A loop counts as older exactly if it is not the latest. -/
theorem Numbered.isRoundGt_iff (numbered : Numbered s) {i : Nat} {loop : Loop}
    (at_i : s.loops[i]? = some loop) :
    s.record.isRoundGt loop.round = true ↔ i + 1 < s.loops.length := by
  have inside := (List.getElem?_eq_some_iff.mp at_i).1
  rw [ConnectionRoundState.isRoundGt, numbered.record, numbered.loops i loop at_i,
    if_neg (by omega), decide_eq_true_eq]

theorem Numbered.disconnectedOk_iff (numbered : Numbered s) {i : Nat}
    (inside : i < s.loops.length) : s.disconnectedOk i = true ↔ i + 1 = s.loops.length := by
  have at_i := List.getElem?_eq_getElem inside
  have older := numbered.isRoundGt_iff at_i
  simp only [disconnectedOk, at_i, ConnectionRoundState.setDisconnected]
  split
  · rename_i gt
    have := older.mp gt
    simp only [Bool.false_eq_true, false_iff]
    omega
  · rename_i gt
    have := mt older.mpr gt
    simp only [true_iff]
    omega

theorem getLast?_set_older {loops : List Loop} {i : Nat} (older : i + 1 < loops.length)
    (loop : Loop) : (loops.set i loop).getLast? = loops.getLast? := by
  rw [List.getLast?_eq_getElem?, List.getLast?_eq_getElem?, List.length_set,
    List.getElem?_set_ne (by omega)]

theorem getLast?_set_latest {loops : List Loop} {i : Nat} (latest : i + 1 = loops.length)
    (loop : Loop) : (loops.set i loop).getLast? = some loop := by
  rw [List.getLast?_eq_getElem?, List.length_set, ← latest, Nat.add_sub_cancel,
    List.getElem?_set_self (by omega)]

/-- An event of an older loop leaves the record as it is exactly in the round. -/
theorem Numbered.older_iff (numbered : Numbered s) (e : Event) :
    (s.Older e → (s.step e).record = s.record) ↔ s.InRound e := by
  cases e with
  | sessionStart => simp [Older, InRound]
  | reconnect => simp [Older, InRound]
  | connected i =>
    refine forall_congr' fun older => ?_
    simp only [State.step]
    split
    · rename_i at_i
      cases record : s.record with
      | mk round state => simp [at_i, ConnectionRoundState.setConnected, eq_comm]
    · rename_i other
      cases at_i : s.loops[i]? with
      | none => simp
      | some loop =>
        have : loop.phase ≠ .starting :=
          fun starting => other loop.round (by simp [at_i, ← starting])
        simp [this]
  | ended i =>
    simp only [InRound, iff_true]
    intro older
    simp only [State.step]
    split
    · rfl
    · rfl
    · rename_i at_i
      simp [ConnectionRoundState.setDisconnected, (numbered.isRoundGt_iff at_i).mpr older]

theorem Numbered.step_recorded (numbered : Numbered s) (recorded : s.record.state = s.recorded)
    {e : Event} (inRound : s.InRound e) : (s.step e).record.state = (s.step e).recorded := by
  cases e with
  | sessionStart => simp [State.step, State.newRound, State.recorded, ConnectionRoundState.newRound]
  | reconnect =>
    simp only [State.step, State.reconnect]
    split
    · exact recorded
    · simp [State.newRound, State.recorded, ConnectionRoundState.newRound]
  | connected i =>
    simp only [State.step]
    split
    · rename_i at_i
      have inside := (List.getElem?_eq_some_iff.mp at_i).1
      rcases Nat.lt_or_ge (i + 1) s.loops.length with older | latest
      · have same := inRound older (by simp [at_i])
        simp only [State.recorded, getLast?_set_older older]
        rw [← State.recorded, ← recorded, same]
        rfl
      · simp [State.recorded, getLast?_set_latest (by omega : i + 1 = s.loops.length),
          ConnectionRoundState.setConnected]
    · exact recorded
  | ended i =>
    simp only [State.step]
    split
    · exact recorded
    · exact recorded
    · rename_i at_i
      have inside := (List.getElem?_eq_some_iff.mp at_i).1
      have older_iff := numbered.isRoundGt_iff at_i
      rcases Nat.lt_or_ge (i + 1) s.loops.length with older | latest
      · simp only [State.recorded, getLast?_set_older older]
        rw [← State.recorded, ← recorded]
        simp [ConnectionRoundState.setDisconnected, older_iff.mpr older]
      · have gt : s.record.isRoundGt _ ≠ true := mt older_iff.mp (by omega)
        simp [State.recorded, getLast?_set_latest (by omega : i + 1 = s.loops.length),
          ConnectionRoundState.setDisconnected, gt]

theorem isConnected_iff (recorded : s.record.state = s.recorded) :
    s.record.isConnected = true ↔ ∃ round, s.loops.getLast? = some ⟨round, .connected⟩ := by
  simp only [ConnectionRoundState.isConnected, recorded, State.recorded, decide_eq_true_eq]
  split
  · rename_i last
    simp [last]
  · rename_i last
    simp [last]
  · rename_i last
    simp [last]
  · rename_i last
    simp [last]

theorem run_numbered {events : List Event} (few : (after events).loops.length < 2 ^ 32) :
    Numbered (after events) := by
  induction events using List.reverseRecOn with
  | nil => exact ⟨rfl, fun i loop at_i => by cases at_i⟩
  | append_singleton events e ih =>
    rw [after, Runs.run_append] at few ⊢
    exact step_numbered (ih (Nat.lt_of_le_of_lt (length_le_step e) few)) few

theorem run_recorded {events : List Event} (few : (after events).loops.length < 2 ^ 32)
    (inRound : Runs.Along step InRound {} events) :
    (after events).record.state = (after events).recorded := by
  induction events using List.reverseRecOn with
  | nil => rfl
  | append_singleton events e ih =>
    obtain ⟨before, last⟩ := Runs.along_snoc.mp inRound
    rw [after, Runs.run_append] at few ⊢
    have few := Nat.lt_of_le_of_lt (length_le_step e) few
    exact (run_numbered few).step_recorded (ih few before) last

/-- **The rounds of a session do not interfere** exactly in the runs in which an older loop
connects only while the session counts as connected. -/
theorem independent_iff {events : List Event} (few : (after events).loops.length < 2 ^ 32) :
    Runs.Along step Independent {} events ↔ Runs.Along step InRound {} events := by
  induction events using List.reverseRecOn with
  | nil => exact Iff.rfl
  | append_singleton events e ih =>
    rw [after, Runs.run_append] at few
    have few := Nat.lt_of_le_of_lt (length_le_step e) few
    have numbered := run_numbered few
    rw [Runs.along_snoc, Runs.along_snoc, ih few]
    refine and_congr_right fun before => ⟨fun independent => ?_, fun inRound => ?_⟩
    · exact (numbered.older_iff e).mp independent.older
    · exact ⟨(numbered.older_iff e).mpr inRound, isConnected_iff (run_recorded few before),
        fun i inside => numbered.disconnectedOk_iff inside⟩

/-- The second loop has ended when the first one connects. -/
def slowConnection : List Event := [.sessionStart, .reconnect, .ended 1, .connected 0]

theorem slowConnection_interferes :
    ¬ ∀ events, (after events).loops.length < 2 ^ 32 →
      Runs.Along step Independent {} events := by
  intro all
  have run : Runs.Along step Independent {} (slowConnection.take 3 ++ [Event.connected 0]) :=
    all slowConnection (by decide)
  exact absurd ((Runs.along_snoc.mp run).2.older (Nat.lt_succ_self 1)) (by decide)

theorem reconnected_independent :
    Runs.Along step Independent {}
      [.sessionStart, .connected 0, .reconnect, .connected 1, .ended 0] :=
  (independent_iff (by decide)).mpr (by decide)

end State
end CamelliaRemote.ConnectionRounds
