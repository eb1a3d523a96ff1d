import CamelliaRemote.Terminal.Session

namespace CamelliaRemote.Terminal

/-- The part of `PtySize` that is ever set to something. -/
structure PtySize where
  rows : UInt16
  cols : UInt16
  deriving DecidableEq, Repr

/-- The `u32` fields of a message, each `as u16`. -/
def PtySize.ofMessage (rows cols : UInt32) : PtySize := ⟨rows.toUInt16, cols.toUInt16⟩

/-- Whether `do_sigwinch_resize` takes the size to be initialized. -/
def PtySize.Initialized (size : PtySize) : Prop := size.rows ≠ 0 ∧ size.cols ≠ 0

instance (size : PtySize) : Decidable size.Initialized := inferInstanceAs (Decidable (_ ∧ _))

/-- The size an attempt asks for. Neither sum nor difference leaves `u16`. -/
def SigwinchAction.target (size : PtySize) : SigwinchAction → PtySize
  | .tempResize => { size with rows := if 2 < size.rows then size.rows - 1 else size.rows + 1 }
  | .restore => size

/-- `do_sigwinch_resize`: whether it succeeded, and the PTY size it leaves. -/
def doSigwinchResize (size pty : PtySize) (callOk : Bool) (action : SigwinchAction) :
    Bool × PtySize :=
  if size.rows = 0 ∨ size.cols = 0 then (false, pty)
  else if callOk then (true, action.target size)
  else (false, pty)

theorem doSigwinchResize_uninitialized {size : PtySize} (unset : ¬ size.Initialized)
    (pty : PtySize) (callOk : Bool) (action : SigwinchAction) :
    doSigwinchResize size pty callOk action = (false, pty) := by
  have zero : size.rows = 0 ∨ size.cols = 0 := by
    by_contra nonzero
    exact unset (not_or.mp nonzero)
  exact if_pos zero

theorem doSigwinchResize_initialized {size : PtySize} (set : size.Initialized) (pty : PtySize)
    (action : SigwinchAction) :
    doSigwinchResize size pty true action = (true, action.target size) := by
  have nonzero : ¬ (size.rows = 0 ∨ size.cols = 0) := not_or.mpr set
  exact if_neg nonzero

/-- The phase of an active session. -/
def SessionState.sigwinch? : SessionState → Option SigwinchPhase
  | .closed => none
  | .active _ sigwinch => some sigwinch

/-- A session with the size it records and the size its PTY has. With a helper
process the PTY is the helper's, and has the size last sent to it. -/
structure SizedSession where
  session : TerminalSession
  size : PtySize
  pty : PtySize
  deriving DecidableEq, Repr

/-- The sections that hold the lock of the session, the reader thread and the
shell; `callOk` is the answer of the platform to a resize of the PTY. -/
inductive SizedEvent where
  | poll (terminalId : Int) (arrivals : List Bytes) (waitFails callOk : Bool)
  | resize (rows cols : UInt32) (callOk : Bool)
  | reconnect (rows cols : UInt32) (arrivals : List Bytes)
  | reset
  | send (data : Bytes)
  | shellExits (code : Int)
  | finishReader
  | takeChild
  deriving DecidableEq, Repr

namespace SizedSession

/-- The phase the session is in, if it is active. -/
def sigwinch? (s : SizedSession) : Option SigwinchPhase := s.session.state.sigwinch?

/-- A session as `handle_open` first makes it, the PTY opened at its size. -/
def opened (rows cols : UInt32) : SizedSession :=
  { session := .opened, size := .ofMessage rows cols, pty := .ofMessage rows cols }

/-- The resize of a poll, if its phase attempts one. -/
def sigwinchResize (s : SizedSession) (callOk : Bool) : Bool × PtySize :=
  match s.sigwinch?.bind (·.attempt.2) with
  | none => (false, s.pty)
  | some action => doSigwinchResize s.size s.pty callOk action

def poll (s : SizedSession) (arrivals : List Bytes) (waitFails callOk : Bool) : SizedSession :=
  { s with
    session := s.session.poll arrivals waitFails (s.sigwinchResize callOk).1
    pty := (s.sigwinchResize callOk).2 }

/-- `handle_resize`: the size is recorded also when the PTY refuses it. -/
def handleResize (s : SizedSession) (rows cols : UInt32) (callOk : Bool) : SizedSession :=
  { s with
    size := .ofMessage rows cols
    pty := if callOk then .ofMessage rows cols else s.pty }

/-- `handle_open` of an existing terminal does not look at the size it is sent. -/
def step (s : SizedSession) : SizedEvent → SizedSession
  | .poll _ arrivals waitFails callOk => s.poll arrivals waitFails callOk
  | .resize rows cols callOk => s.handleResize rows cols callOk
  | .reconnect _ _ arrivals => { s with session := s.session.reconnect arrivals }
  | .reset => { s with session := s.session.resetStatus }
  | .send data => { s with session := s.session.trySend data }
  | .shellExits code => { s with session := s.session.shellExits code }
  | .finishReader => { s with session := s.session.finishReader }
  | .takeChild => { s with session := s.session.takeChild }

/-- What an event is to the session without its sizes. -/
def sessionEvents (s : SizedSession) : SizedEvent → List SessionEvent
  | .poll terminalId arrivals waitFails callOk =>
    [.poll terminalId arrivals waitFails (s.sigwinchResize callOk).1]
  | .resize .. => []
  | .reconnect _ _ arrivals => [.reconnect arrivals]
  | .reset => [.reset]
  | .send data => [.send data]
  | .shellExits code => [.shellExits code]
  | .finishReader => [.finishReader]
  | .takeChild => [.takeChild]

theorem step_session (s : SizedSession) (e : SizedEvent) :
    (s.step e).session = Runs.run TerminalSession.step s.session (s.sessionEvents e) := by
  cases e <;> rfl

/-- Without its sizes, a run is a run of the session model. -/
theorem run_session (s : SizedSession) (events : List SizedEvent) :
    (Runs.run step s events).session =
      Runs.run TerminalSession.step s.session (Runs.collect step sessionEvents s events) := by
  induction events generalizing s with
  | nil => rfl
  | cons e events ih =>
    rw [Runs.run_cons, ih, step_session, Runs.collect, Runs.run_append]

/-- The size that counts after a message: only `ResizeTerminal` sets it. -/
def requested (size : PtySize) : SizedEvent → PtySize
  | .resize rows cols _ => .ofMessage rows cols
  | _ => size

theorem step_size (s : SizedSession) (e : SizedEvent) : (s.step e).size = requested s.size e := by
  cases e <;> rfl

theorem run_size (s : SizedSession) (events : List SizedEvent) :
    (Runs.run step s events).size = Runs.run requested s.size events := by
  induction events generalizing s with
  | nil => rfl
  | cons e events ih => rw [Runs.run_cons, Runs.run_cons, ih, step_size]

end SizedSession

/-- A resize has a size that is not zero and fits in `u16`, and the PTY takes
every resize. -/
def SizedEvent.Calm : SizedEvent → Prop
  | .poll _ _ _ callOk => callOk = true
  | .resize rows cols callOk =>
    0 < rows ∧ rows < 65536 ∧ 0 < cols ∧ cols < 65536 ∧ callOk = true
  | _ => True

instance SizedEvent.Calm.decidable : ∀ e : SizedEvent, Decidable e.Calm
  | .poll _ _ _ callOk => inferInstanceAs (Decidable (callOk = true))
  | .resize rows cols callOk => inferInstanceAs
      (Decidable (0 < rows ∧ rows < 65536 ∧ 0 < cols ∧ cols < 65536 ∧ callOk = true))
  | .reconnect .. | .reset | .send _ | .shellExits _ | .finishReader | .takeChild =>
    .isTrue trivial

def SizedEvent.isReconnect : SizedEvent → Bool
  | .reconnect .. => true
  | _ => false

theorem toUInt16_ne_zero {n : UInt32} (pos : 0 < n) (fits : n < 65536) : n.toUInt16 ≠ 0 := by
  intro zero
  have low := congrArg UInt16.toNat zero
  rw [UInt32.toNat_toUInt16] at low
  have pos : 0 < n.toNat := UInt32.lt_iff_toNat_lt.mp pos
  have fits : n.toNat < 65536 := UInt32.lt_iff_toNat_lt.mp fits
  rw [Nat.mod_eq_of_lt fits] at low
  exact absurd low pos.ne'

theorem ofMessage_initialized {rows cols : UInt32} {callOk : Bool}
    (calm : (SizedEvent.resize rows cols callOk).Calm) :
    (PtySize.ofMessage rows cols).Initialized := by
  obtain ⟨rowsPos, rowsFit, colsPos, colsFit, -⟩ := calm
  exact ⟨toUInt16_ne_zero rowsPos rowsFit, toUInt16_ne_zero colsPos colsFit⟩

namespace SizedSession

/-- What the phase says of the PTY when it has the size `pty`. Only a size that is
not initialized lets attempts fail, and it is never the size of a `Restore`. -/
def PhaseFits (size pty : PtySize) : SigwinchPhase → Prop
  | .idle => pty = size
  | .tempResize retries => size.Initialized ∧ 0 < retries ∨ pty = size
  | .restore retries => size.Initialized ∧ 0 < retries

/-- The PTY is off the recorded size only between the two resizes. -/
structure Fits (s : SizedSession) : Prop where
  uninitialized : ¬ s.size.Initialized → s.pty = s.size
  active : ∀ phase, s.sigwinch? = some phase → PhaseFits s.size s.pty phase

theorem fits_opened (rows cols : UInt32) : (opened rows cols).Fits where
  uninitialized _ := rfl
  active phase is := by
    cases is
    exact rfl

theorem Fits.of_phase {s : SizedSession} {phase : SigwinchPhase} (is : s.sigwinch? = some phase)
    (uninitialized : ¬ s.size.Initialized → s.pty = s.size)
    (fits : PhaseFits s.size s.pty phase) : s.Fits where
  uninitialized
  active phase' is' := by
    rw [is] at is'
    cases is'
    exact fits

theorem sigwinch?_eq_some {s : SizedSession} {phase : SigwinchPhase}
    (is : s.sigwinch? = some phase) :
    ∃ pendingBuffer, s.session.state = .active pendingBuffer phase := by
  unfold sigwinch? at is
  cases stateIs : s.session.state with
  | closed =>
    rw [stateIs] at is
    cases is
  | active pendingBuffer sigwinch =>
    rw [stateIs] at is
    cases is
    exact ⟨pendingBuffer, rfl⟩

theorem sigwinch?_eq_none {s : SizedSession} (is : s.sigwinch? = none) :
    s.session.state = .closed := by
  unfold sigwinch? at is
  cases stateIs : s.session.state with
  | closed => rfl
  | active pendingBuffer sigwinch =>
    rw [stateIs] at is
    cases is

theorem poll_sigwinch? {s : SizedSession} {phase : SigwinchPhase} (is : s.sigwinch? = some phase)
    (arrivals : List Bytes) (waitFails callOk : Bool) :
    (s.poll arrivals waitFails callOk).sigwinch? =
      some (phase.attempt.1.resized phase.attempt.2 (s.sigwinchResize callOk).1) := by
  obtain ⟨pendingBuffer, stateIs⟩ := sigwinch?_eq_some is
  simp only [sigwinch?, poll, TerminalSession.poll, TerminalSession.takePending, stateIs]
  rfl

/-- A poll that is not `Active`. -/
theorem poll_closed {s : SizedSession} (is : s.sigwinch? = none) (arrivals : List Bytes)
    (waitFails callOk : Bool) :
    (s.poll arrivals waitFails callOk).sigwinch? = none ∧
      (s.poll arrivals waitFails callOk).pty = s.pty := by
  have stateIs := sigwinch?_eq_none is
  constructor
  · simp only [sigwinch?, poll, TerminalSession.poll, TerminalSession.takePending, stateIs]
    rfl
  · simp only [poll, sigwinchResize, is]
    rfl

/-- A poll whose phase has nothing to do, or no attempts left. -/
theorem poll_unattempted {s : SizedSession} {phase : SigwinchPhase}
    (is : s.sigwinch? = some phase) (attempt : phase.attempt = (.idle, none))
    (arrivals : List Bytes) (waitFails callOk : Bool) :
    (s.poll arrivals waitFails callOk).sigwinch? = some .idle ∧
      (s.poll arrivals waitFails callOk).pty = s.pty := by
  constructor
  · rw [poll_sigwinch? is, attempt]
    rfl
  · simp only [poll, sigwinchResize, is, Option.bind_some, attempt]

/-- A poll whose resize is skipped, as the size is not initialized. -/
theorem poll_skipped {s : SizedSession} {phase next : SigwinchPhase} {action : SigwinchAction}
    (is : s.sigwinch? = some phase) (attempt : phase.attempt = (next, some action))
    (unset : ¬ s.size.Initialized) (arrivals : List Bytes) (waitFails callOk : Bool) :
    (s.poll arrivals waitFails callOk).sigwinch? = some (next.resized (some action) false) ∧
      (s.poll arrivals waitFails callOk).pty = s.pty := by
  have resize : s.sigwinchResize callOk = (false, s.pty) := by
    unfold sigwinchResize
    rw [is, Option.bind_some, attempt]
    exact doSigwinchResize_uninitialized unset s.pty callOk action
  constructor
  · rw [poll_sigwinch? is, attempt, resize]
  · simp only [poll, resize]

/-- A poll whose resize succeeds. -/
theorem poll_resized {s : SizedSession} {phase next : SigwinchPhase} {action : SigwinchAction}
    (is : s.sigwinch? = some phase) (attempt : phase.attempt = (next, some action))
    (set : s.size.Initialized) (arrivals : List Bytes) (waitFails : Bool) :
    (s.poll arrivals waitFails true).sigwinch? = some (next.resized (some action) true) ∧
      (s.poll arrivals waitFails true).pty = action.target s.size := by
  have resize : s.sigwinchResize true = (true, action.target s.size) := by
    unfold sigwinchResize
    rw [is, Option.bind_some, attempt]
    exact doSigwinchResize_initialized set s.pty action
  constructor
  · rw [poll_sigwinch? is, attempt, resize]
  · simp only [poll, resize]

theorem fits_poll_active {s : SizedSession} {phase : SigwinchPhase} (fits : s.Fits)
    (is : s.sigwinch? = some phase) (arrivals : List Bytes) (waitFails : Bool) :
    (s.poll arrivals waitFails true).Fits := by
  have now := fits.active phase is
  have unattempted (attempt : phase.attempt = (.idle, none)) (same : s.pty = s.size) :
      (s.poll arrivals waitFails true).Fits := by
    obtain ⟨idle, pty⟩ := poll_unattempted is attempt arrivals waitFails true
    exact .of_phase idle (fun _ => pty.trans same) (pty.trans same)
  cases phase with
  | idle => exact unattempted rfl now
  | tempResize retries =>
    cases retries with
    | zero =>
      rcases now with ⟨-, left⟩ | same
      · exact absurd left (Nat.lt_irrefl 0)
      · exact unattempted rfl same
    | succ left =>
      by_cases set : s.size.Initialized
      · obtain ⟨restore, -⟩ := poll_resized is rfl set arrivals waitFails
        exact .of_phase restore (fun unset => absurd set unset) ⟨set, Nat.succ_pos 2⟩
      · obtain ⟨retry, pty⟩ := poll_skipped is rfl set arrivals waitFails true
        have same := pty.trans (fits.uninitialized set)
        exact .of_phase retry (fun _ => same) (.inr same)
  | restore retries =>
    obtain ⟨set, left⟩ := now
    cases retries with
    | zero => exact absurd left (Nat.lt_irrefl 0)
    | succ left =>
      obtain ⟨idle, pty⟩ := poll_resized is rfl set arrivals waitFails
      exact .of_phase idle (fun unset => absurd set unset) pty

theorem fits_poll {s : SizedSession} (fits : s.Fits) (arrivals : List Bytes) (waitFails : Bool) :
    (s.poll arrivals waitFails true).Fits := by
  cases is : s.sigwinch? with
  | none =>
    obtain ⟨closed, pty⟩ := poll_closed is arrivals waitFails true
    refine ⟨fun unset => pty.trans (fits.uninitialized unset), fun phase active => ?_⟩
    rw [closed] at active
    cases active
  | some phase => exact fits_poll_active fits is arrivals waitFails

theorem fits_resize {s : SizedSession} (fits : s.Fits) {rows cols : UInt32}
    (set : (PtySize.ofMessage rows cols).Initialized) : (s.handleResize rows cols true).Fits where
  uninitialized _ := rfl
  active phase is := by
    have before := fits.active phase is
    cases phase with
    | idle => rfl
    | tempResize retries => exact .inr rfl
    | restore retries => exact ⟨set, before.2⟩

theorem fits_reconnect {s : SizedSession} (fits : s.Fits) (arrivals : List Bytes) :
    ({ s with session := s.session.reconnect arrivals } : SizedSession).Fits where
  uninitialized := fits.uninitialized
  active phase is := by
    cases is
    by_cases set : s.size.Initialized
    · exact .inl ⟨set, Nat.succ_pos 2⟩
    · exact .inr (fits.uninitialized set)

theorem Fits.of_same {s s' : SizedSession} (fits : s.Fits) (sigwinch : s'.sigwinch? = s.sigwinch?)
    (size : s'.size = s.size) (pty : s'.pty = s.pty) : s'.Fits where
  uninitialized := by
    rw [size, pty]
    exact fits.uninitialized
  active := by
    rw [sigwinch, size, pty]
    exact fits.active

theorem trySend_state (s : TerminalSession) (data : Bytes) : (s.trySend data).state = s.state := by
  unfold TerminalSession.trySend
  split <;> rfl

theorem fits_step {s : SizedSession} {e : SizedEvent} (fits : s.Fits) (calm : e.Calm) :
    (s.step e).Fits := by
  cases e with
  | poll terminalId arrivals waitFails callOk =>
    cases calm
    exact fits_poll fits arrivals waitFails
  | resize rows cols callOk =>
    have set := ofMessage_initialized calm
    obtain ⟨-, -, -, -, rfl⟩ := calm
    exact fits_resize fits set
  | reconnect rows cols arrivals => exact fits_reconnect fits arrivals
  | reset => exact ⟨fits.uninitialized, fun phase is => nomatch is⟩
  | send data =>
    exact fits.of_same (congrArg SessionState.sigwinch? (trySend_state s.session data)) rfl rfl
  | shellExits code => exact fits.of_same rfl rfl rfl
  | finishReader => exact fits.of_same rfl rfl rfl
  | takeChild => exact fits.of_same rfl rfl rfl

theorem fits_run {s : SizedSession} {events : List SizedEvent} (fits : s.Fits)
    (calm : ∀ e ∈ events, e.Calm) : (Runs.run step s events).Fits :=
  Runs.invariant (fun _ _ => fits_step) fits (Runs.along_of_forall_mem calm s)

/-- The phase a poll finds, if it is a poll of an active session. -/
def polledPhase (s : SizedSession) : SizedEvent → List SigwinchPhase
  | .poll .. => s.sigwinch?.toList
  | _ => []

/-- The polls of a run that process the session as active. -/
def activePolls (s : SizedSession) (events : List SizedEvent) : Nat :=
  (Runs.collect step polledPhase s events).length

theorem activePolls_cons (s : SizedSession) (e : SizedEvent) (events : List SizedEvent) :
    s.activePolls (e :: events) = (s.polledPhase e).length + (s.step e).activePolls events :=
  List.length_append

/-- The phase after so many polls since the reconnect. -/
def phaseAfter : Nat → SigwinchPhase
  | 0 => .tempResize maxSigwinchPhaseAttempts
  | 1 => .restore maxSigwinchPhaseAttempts
  | _ + 2 => .idle

theorem step_initialized {s : SizedSession} {e : SizedEvent} (calm : e.Calm)
    (set : s.size.Initialized) : (s.step e).size.Initialized := by
  rw [step_size]
  cases e with
  | resize rows cols callOk => exact ofMessage_initialized calm
  | _ => exact set

theorem poll_phaseAfter {s : SizedSession} {n : Nat} (set : s.size.Initialized)
    (is : s.sigwinch? = some (phaseAfter n)) (arrivals : List Bytes) (waitFails : Bool) :
    (s.poll arrivals waitFails true).sigwinch? = some (phaseAfter (n + 1)) := by
  match n with
  | 0 => exact (poll_resized is rfl set arrivals waitFails).1
  | 1 => exact (poll_resized is rfl set arrivals waitFails).1
  | n + 2 => exact (poll_unattempted is rfl arrivals waitFails true).1

/-- A closed session stays closed until a reconnect. -/
theorem run_closed {s : SizedSession} {events : List SizedEvent}
    (closed : s.sigwinch? = none) (noReconnect : ∀ e ∈ events, e.isReconnect = false) :
    (Runs.run step s events).sigwinch? = none := by
  refine Runs.invariant (I := fun s => s.sigwinch? = none) ?_ closed
    (Runs.along_of_forall_mem noReconnect s)
  intro s e closed notReconnect
  cases e with
  | poll terminalId arrivals waitFails callOk =>
    exact (poll_closed closed arrivals waitFails callOk).1
  | reconnect rows cols arrivals => cases notReconnect
  | reset => rfl
  | send data => exact (congrArg SessionState.sigwinch? (trySend_state s.session data)).trans closed
  | _ => exact closed

theorem run_phaseAfter {s : SizedSession} {events : List SizedEvent} {n : Nat}
    (calm : ∀ e ∈ events, e.Calm) (noReconnect : ∀ e ∈ events, e.isReconnect = false)
    (set : s.size.Initialized) (is : s.sigwinch? = some (phaseAfter n)) :
    (Runs.run step s events).sigwinch? =
      if .reset ∈ events then none else some (phaseAfter (n + s.activePolls events)) := by
  induction events generalizing s n with
  | nil => exact is
  | cons e events ih =>
    obtain ⟨calmNow, calmLater⟩ := List.forall_mem_cons.mp calm
    obtain ⟨notReconnect, noLater⟩ := List.forall_mem_cons.mp noReconnect
    have setNext := step_initialized calmNow set
    have unpolled (notReset : e ≠ .reset) (quiet : s.polledPhase e = [])
        (same : (s.step e).sigwinch? = s.sigwinch?) :
        (Runs.run step (s.step e) events).sigwinch? =
          if .reset ∈ e :: events then none
          else some (phaseAfter (n + s.activePolls (e :: events))) := by
      rw [ih calmLater noLater setNext (same.trans is), activePolls_cons, quiet, List.length_nil,
        Nat.zero_add]
      simp only [List.mem_cons, notReset.symm, false_or]
    rw [Runs.run_cons]
    cases e with
    | poll terminalId arrivals waitFails callOk =>
      cases calmNow
      have next := poll_phaseAfter set is arrivals waitFails
      have count : n + s.activePolls (.poll terminalId arrivals waitFails true :: events) =
          n + 1 + (s.step (.poll terminalId arrivals waitFails true)).activePolls events := by
        rw [activePolls_cons]
        simp only [polledPhase, is, Option.toList_some, List.length_singleton]
        omega
      rw [count]
      simpa using ih calmLater noLater setNext next
    | reconnect rows cols arrivals => cases notReconnect
    | reset =>
      have closed : (s.step .reset).sigwinch? = none := rfl
      rw [if_pos List.mem_cons_self]
      exact run_closed closed noLater
    | send data =>
      exact unpolled (fun same => by cases same) rfl
        (congrArg SessionState.sigwinch? (trySend_state s.session data))
    | _ => exact unpolled (fun same => by cases same) rfl rfl

/-- **The two resizes of a reconnect settle.** While the PTY takes every resize, an
active session that is idle has a PTY of the size it records, which is the last
`ResizeTerminal`, or else the size it was made with. From the last reconnect of a
session whose size is then initialized, the first poll of the active session is
followed by the restore and the second by idle. -/
theorem resizes_settle (rows cols : UInt32) (events : List SizedEvent)
    (calm : ∀ e ∈ events, e.Calm) :
    ((Runs.run step (opened rows cols) events).sigwinch? = some .idle →
      (Runs.run step (opened rows cols) events).pty =
          (Runs.run step (opened rows cols) events).size ∧
        (Runs.run step (opened rows cols) events).size =
          Runs.run requested (.ofMessage rows cols) events) ∧
      ∀ (before after : List SizedEvent) (openRows openCols : UInt32) (arrivals : List Bytes),
        events = before ++ .reconnect openRows openCols arrivals :: after →
        (∀ e ∈ after, e.isReconnect = false) →
        (Runs.run requested (.ofMessage rows cols) before).Initialized →
        (Runs.run step (opened rows cols) events).sigwinch? =
          if .reset ∈ after then none
          else some (phaseAfter (activePolls
            (Runs.run step (opened rows cols)
              (before ++ [SizedEvent.reconnect openRows openCols arrivals]))
            after)) := by
  refine ⟨fun idle => ?_, fun before after openRows openCols arrivals split last set => ?_⟩
  · have fits := fits_run (fits_opened rows cols) calm
    exact ⟨fits.active .idle idle, run_size (opened rows cols) events⟩
  · have calmAfter : ∀ e ∈ after, e.Calm := fun e mem => calm e (by simp [split, mem])
    have sizeThen : (Runs.run step (opened rows cols)
        (before ++ [SizedEvent.reconnect openRows openCols arrivals])).size.Initialized := by
      rw [run_size, Runs.run_append]
      exact set
    have reconnected : (Runs.run step (opened rows cols)
        (before ++ [SizedEvent.reconnect openRows openCols arrivals])).sigwinch? =
      some (phaseAfter 0) := by
      rw [Runs.run_append]
      rfl
    have settled := run_phaseAfter calmAfter last sizeThen reconnected
    rw [← Runs.run_append, List.append_assoc, List.singleton_append, ← split, Nat.zero_add]
      at settled
    exact settled

theorem resizes_settle_redrawn :
    (Runs.run step (opened 24 80) [.reset, .reconnect 24 80 [], .poll 1 [] false true,
      .resize 40 120 true, .poll 1 [] false true]).sigwinch? = some .idle ∧
    (Runs.run step (opened 24 80) [.reset, .reconnect 24 80 [], .poll 1 [] false true,
      .resize 40 120 true, .poll 1 [] false true]).pty = ⟨40, 120⟩ := by
  have settles := resizes_settle 24 80 [.reset, .reconnect 24 80 [], .poll 1 [] false true,
    .resize 40 120 true, .poll 1 [] false true] (by decide)
  have idle := settles.2 [.reset] [.poll 1 [] false true, .resize 40 120 true,
    .poll 1 [] false true] 24 80 [] rfl (by decide) (by decide)
  have idle := idle.trans (by decide : _ = some SigwinchPhase.idle)
  exact ⟨idle, (settles.1 idle).1.trans ((settles.1 idle).2.trans (by decide))⟩

/-- A terminal opened at 0×0 is still in phase one two polls after a reconnect; one
that reconnects asking for another size keeps the size it had; and a second
reconnect between the two polls starts over. -/
theorem resizes_unsettled :
    (Runs.run step (opened 0 0) [.reset, .reconnect 0 0 [], .poll 1 [] false true,
      .poll 1 [] false true]).sigwinch? = some (.tempResize 1) ∧
    (Runs.run step (opened 24 80) [.reset, .reconnect 50 100 [], .poll 1 [] false true,
      .poll 1 [] false true]).sigwinch? = some .idle ∧
    (Runs.run step (opened 24 80) [.reset, .reconnect 50 100 [], .poll 1 [] false true,
      .poll 1 [] false true]).pty = ⟨24, 80⟩ ∧
    (Runs.run step (opened 24 80) [.reset, .reconnect 24 80 [], .poll 1 [] false true,
      .reset, .reconnect 24 80 [], .poll 1 [] false true]).sigwinch? = some (.restore 3) := by
  decide

end SizedSession

end CamelliaRemote.Terminal
