import CamelliaRemote.Lib.Runs

/-!
The listener of a port forward, `port_forward.rs`. `listen`, `connect_and_login` and the
`confirm_insecure_connection` that it calls wait at one place at a time, and take from the one
receiver of the interface where they wait. An event is what ends the wait; what a phase does not
wait for changes nothing.
-/

namespace CamelliaRemote.Forward

/-- `Data`, as far as the loops tell it apart; `M` is a message to the peer. -/
inductive UiData (M : Type) where
  | close
  | rejectInsecureConnection
  | continueInsecureConnection
  | login (osUsername osPassword password : String) (remember : Bool)
  | message (msg : M)
  | newRdp
  | other
  deriving DecidableEq

/-- A message from the peer; of a login error, what `handle_login_error` says. -/
inductive PeerMessage (M : Type) where
  | hash (hash : M)
  | loginError (err : String) (again : Bool)
  | peerInfo (info : M)
  | loginOther
  | testDelay (delay : M)
  | other
  deriving DecidableEq

inductive Event (M : Type) where
  | accept
  /-- `Client::start` is through. -/
  | started (direct secured : Bool)
  | startFailed (err : String)
  | ui (data : Option (UiData M))
  | peer (message : PeerMessage M)
  | peerUnparsed (err : String)
  | peerTimeout
  | peerFailed (err : String)
  | peerEnded
  | fromLocal (bytes : List UInt8)
  | localEnded
  deriving DecidableEq

/-- What can be seen from outside, in its order. -/
inductive Action (M : Type) where
  | accepted
  | setPortForward (remoteHost : String) (remotePort : Int)
  | took (data : Option (UiData M))
  | runRdp (port : Nat)
  | msgbox (type title text link : String)
  | updateDirect (direct : Bool)
  | updateReceived
  | handleHash (hash : M)
  | handleLoginError (err : String)
  | handlePeerInfo (info : M)
  | handleTestDelay (delay : M)
  | handleLoginFromUi (osUsername osPassword password : String) (remember : Bool)
  | sent (msg : M)
  | setRaw
  | sentBytes (bytes : List UInt8)
  | spawnedForward
  | establishError (err : String)
  deriving DecidableEq

inductive Phase where
  | listening
  | starting
  | confirming
  | loggingIn (received : Bool) (buffer : List UInt8)
  | returned
  deriving DecidableEq

/-- The arguments, with the port that is listened on and whether the id is an address. -/
structure Config where
  port : Int
  localPort : Nat
  remoteHost : String
  remotePort : Int
  directIpAccess : Bool
  deriving DecidableEq

def Config.isRdp (c : Config) : Bool := c.port = 0

variable {M : Type} (c : Config)

/-- The `select!` of `listen`. -/
def listening : Event M → Phase × List (Action M)
  | .accept => (.starting, [.accepted, .setPortForward c.remoteHost c.remotePort])
  | .ui (some .close) => (.returned, [.took (some .close)])
  | .ui (some .newRdp) => (.listening, [.took (some .newRdp), .runRdp c.localPort])
  | .ui data => (.listening, [.took data])
  | _ => (.listening, [])

/-- `connect_and_login` ends in an error. -/
def failed (err : String) : Phase × List (Action M) := (.listening, [.establishError err])

def starting : Event M → Phase × List (Action M)
  | .started direct secured =>
    if !secured && !c.directIpAccess then
      (.confirming, [.updateDirect direct,
        .msgbox "insecure-connection-nocancel-hasclose" "Insecure Connection"
          "conn-e2ee-unavailable-tip" ""])
    else (.loggingIn false [], [.updateDirect direct])
  | .startFailed err => failed err
  | _ => (.starting, [])

/-- `confirm_insecure_connection`; without it `close_port_forward` is set. -/
def confirming : Event M → Phase × List (Action M)
  | .ui (some .continueInsecureConnection) =>
    (.loggingIn false [], [.took (some .continueInsecureConnection)])
  | .ui (some .rejectInsecureConnection) =>
    (.returned, [.took (some .rejectInsecureConnection)])
  | .ui (some .close) => (.returned, [.took (some .close)])
  | .ui none => (.returned, [.took none])
  | .ui data => (.confirming, [.took data])
  | _ => (.confirming, [])

/-- What follows the loop of `connect_and_login` once the peer has sent its info. -/
def loggedIn (buffer : List UInt8) : List (Action M) :=
  .setRaw :: (if buffer.isEmpty then [] else [Action.sentBytes buffer]) ++ [Action.spawnedForward]

def onPeer (buffer : List UInt8) : PeerMessage M → Phase × List (Action M)
  | .hash hash => (.loggingIn true buffer, [.handleHash hash])
  | .loginError err again =>
    (if again then .loggingIn true buffer else .listening, [.handleLoginError err])
  | .peerInfo info => (.listening, .handlePeerInfo info :: loggedIn buffer)
  | .loginOther => (.loggingIn true buffer, [])
  | .testDelay delay => (.loggingIn true buffer, [.handleTestDelay delay])
  | .other => (.loggingIn true buffer, [])

def firstReceived (received : Bool) : List (Action M) :=
  if received then [] else [.updateReceived]

/-- The loop of `connect_and_login`. -/
def loggingIn (received : Bool) (buffer : List UInt8) : Event M → Phase × List (Action M)
  | .peer message =>
    ((onPeer buffer message).1, firstReceived received ++ (onPeer buffer message).2)
  | .peerUnparsed err => (.listening, firstReceived received ++ [Action.establishError err])
  | .peerTimeout => failed "Timeout"
  | .peerFailed err => failed s!"Connection closed: {err}"
  | .peerEnded => failed "Reset by the peer"
  | .ui (some (.login osUsername osPassword password remember)) =>
    (.loggingIn received buffer, [.took (some (.login osUsername osPassword password remember)),
      .handleLoginFromUi osUsername osPassword password remember])
  | .ui (some (.message msg)) =>
    (.loggingIn received buffer, [.took (some (.message msg)), .sent msg])
  | .ui data => (.loggingIn received buffer, [.took data])
  | .fromLocal bytes => (.loggingIn received (buffer ++ bytes), [])
  | .localEnded => (.listening, [])
  | _ => (.loggingIn received buffer, [])

def react : Phase → Event M → Phase × List (Action M)
  | .listening => listening c
  | .starting => starting c
  | .confirming => confirming
  | .loggingIn received buffer => loggingIn received buffer
  | .returned => fun _ => (.returned, [])

structure Listener (M : Type) where
  phase : Phase
  actions : List (Action M)
  deriving DecidableEq

def Listener.step (s : Listener M) (event : Event M) : Listener M :=
  ⟨(react c s.phase event).1, s.actions ++ (react c s.phase event).2⟩

def listen : Listener M := ⟨.listening, if c.isRdp then [.runRdp c.localPort] else []⟩

def after (events : List (Event M)) : Listener M := Runs.run (Listener.step c) (listen c) events

/-- Once a close has been taken, `listen` has returned and has not accepted any more. -/
structure Honoured (s : Listener M) : Prop where
  returned : .took (some .close) ∈ s.actions → s.phase = .returned
  noMore : ∀ before later, s.actions = before ++ Action.took (some .close) :: later →
    .accepted ∉ later

def Phase.InLogin : Phase → Prop
  | .loggingIn _ _ => True
  | _ => False

/-- The close is not one that the loop of `connect_and_login` takes. -/
def TakenElsewhere (s : Listener M) (event : Event M) : Prop :=
  event = .ui (some .close) → ¬ s.phase.InLogin

variable {c} {s : Listener M} {event : Event M} {events : List (Event M)} {phase : Phase}

theorem not_took_onPeer {buffer : List UInt8} {message : PeerMessage M} :
    .took (some .close) ∉ (onPeer buffer message).2 := by
  cases message with
  | peerInfo info =>
    rw [onPeer, loggedIn]
    split <;> simp
  | _ => simp [onPeer]

theorem not_took_firstReceived {received : Bool} :
    Action.took (some UiData.close) ∉ firstReceived (M := M) received := by
  cases received <;> simp [firstReceived]

theorem listening_took (took : .took (some .close) ∈ (listening c event).2) :
    event = .ui (some .close) := by
  revert took
  fun_cases listening c event <;> simp_all

theorem not_took_starting : .took (some .close) ∉ (starting c event).2 := by
  fun_cases starting c event <;> simp [failed]

theorem confirming_took (took : .took (some .close) ∈ (confirming event).2) :
    event = .ui (some .close) := by
  revert took
  fun_cases confirming event <;> simp_all

theorem loggingIn_took {received : Bool} {buffer : List UInt8}
    (took : .took (some .close) ∈ (loggingIn received buffer event).2) :
    event = .ui (some .close) := by
  revert took
  fun_cases loggingIn received buffer event <;>
    simp_all [not_took_firstReceived, not_took_onPeer, failed]

/-- Only the event itself is a close taken, and outside of the login it is the last thing. -/
theorem react_took (took : .took (some .close) ∈ (react c phase event).2) :
    event = .ui (some .close) ∧
      (phase.InLogin ∨ react c phase event = (.returned, [.took (some .close)])) := by
  cases phase with
  | listening =>
    obtain rfl := listening_took took
    exact ⟨rfl, .inr rfl⟩
  | starting => exact absurd took not_took_starting
  | confirming =>
    obtain rfl := confirming_took took
    exact ⟨rfl, .inr rfl⟩
  | loggingIn received buffer => exact ⟨loggingIn_took took, .inl trivial⟩
  | returned => cases took

theorem step_actions : (s.step c event).actions = s.actions ++ (react c s.phase event).2 := rfl

theorem step_returned (returned : s.phase = .returned) : s.step c event = s := by
  obtain ⟨phase, actions⟩ := s
  obtain rfl : phase = .returned := returned
  simp [Listener.step, react]

theorem honoured_of_untaken (untaken : .took (some .close) ∉ s.actions) : Honoured s :=
  ⟨fun taken => absurd taken untaken, fun before _ split =>
    absurd (split ▸ List.mem_append_right before List.mem_cons_self) untaken⟩

theorem step_honoured (honoured : Honoured s) (elsewhere : TakenElsewhere s event) :
    Honoured (s.step c event) := by
  by_cases returned : s.phase = .returned
  · rwa [step_returned returned]
  have untaken : .took (some .close) ∉ s.actions := fun taken => returned (honoured.returned taken)
  by_cases took : .took (some .close) ∈ (react c s.phase event).2
  · obtain ⟨is, inLogin | last⟩ := react_took took
    · exact absurd inLogin (elsewhere is)
    have stepped : s.step c event = ⟨.returned, s.actions ++ [Action.took (some .close)]⟩ := by
      rw [Listener.step, last]
    rw [stepped]
    refine ⟨fun _ => rfl, fun before later split accepted => ?_⟩
    obtain ⟨rfl, -⟩ | ⟨_, -, old⟩ := Runs.snoc_eq_split.mp split
    · cases accepted
    · exact untaken (old ▸ List.mem_append_right before List.mem_cons_self)
  · refine honoured_of_untaken ?_
    rw [step_actions, List.mem_append]
    exact not_or.mpr ⟨untaken, took⟩

theorem listen_honoured : Honoured (listen c : Listener M) := by
  refine honoured_of_untaken ?_
  unfold listen
  split <;> simp

theorem after_snoc : after c (events ++ [event]) = (after c events).step c event := by
  rw [after, Runs.run_append]
  rfl

/-- The login loop goes on with the next event. -/
theorem not_honoured_login (inLogin : s.phase.InLogin) :
    ¬ Honoured (s.step c (.ui (some .close))) := by
  intro honoured
  obtain ⟨phase, actions⟩ := s
  cases phase with
  | loggingIn received buffer =>
    have returned := honoured.returned (by simp [step_actions, react, loggingIn])
    cases returned
  | _ => exact inLogin

/-- After a close that the login loop has taken, the next connection is accepted. -/
theorem accepted_after_login (inLogin : s.phase.InLogin) :
    ∃ more before later,
      (Runs.run (Listener.step c) s (.ui (some .close) :: more)).actions =
        before ++ .took (some .close) :: later ∧ .accepted ∈ later := by
  obtain ⟨phase, actions⟩ := s
  cases phase with
  | loggingIn received buffer =>
    refine ⟨[.localEnded, .accept], actions,
      [.accepted, .setPortForward c.remoteHost c.remotePort], ?_, List.mem_cons_self⟩
    simp [Listener.step, react, loggingIn, listening]
  | _ => exact inLogin.elim

/-- **A close ends the listening unless the login loop takes it**: in the states of a run a
close that has been taken has ended `listen`, with no connection accepted after it, exactly
when none was taken while a connection logged in; where one was, another connection can be
accepted after it. -/
theorem close_honoured_iff (c : Config) (events : List (Event M)) :
    ((∀ before, before <+: events → Honoured (after c before)) ↔
      Runs.Along (Listener.step c) TakenElsewhere (listen c) events) ∧
    ((after c events).phase.InLogin → ∃ more before later,
      (after c (events ++ .ui (some .close) :: more)).actions =
        before ++ Action.took (some .close) :: later ∧ .accepted ∈ later) := by
  refine ⟨⟨fun honoured => ?_, fun elsewhere => ?_⟩, fun inLogin => ?_⟩
  · induction events using List.reverseRecOn with
    | nil => trivial
    | append_singleton events event ih =>
      refine Runs.along_snoc.mpr ⟨ih fun before isPrefix =>
        honoured before (isPrefix.trans (List.prefix_append events [event])), ?_⟩
      rintro rfl inLogin
      have now := honoured _ List.prefix_rfl
      rw [after_snoc] at now
      exact not_honoured_login inLogin now
  · rintro before ⟨later, rfl⟩
    exact Runs.invariant (fun s event => step_honoured) listen_honoured
      (Runs.along_append.mp elsewhere).1
  · obtain ⟨more, before, later, split, accepted⟩ := accepted_after_login (c := c) inLogin
    refine ⟨more, before, later, ?_, accepted⟩
    rw [after, Runs.run_append]
    exact split

def toDesk : Config := ⟨8080, 8080, "localhost", 80, false⟩

theorem close_honoured_iff_confirmed :
    (∀ before : List (Event Unit), before <+:
        [.accept, .started true false, .ui (some .close), .accept] →
      Honoured (after toDesk before)) ∧
    ∃ more before later, (after (M := Unit) toDesk
        ([Event.accept, .started true true] ++ .ui (some .close) :: more)).actions =
      before ++ Action.took (some .close) :: later ∧ .accepted ∈ later := by
  refine ⟨(close_honoured_iff toDesk _).1.mpr ?_, (close_honoured_iff toDesk _).2 trivial⟩
  simp [Runs.Along, TakenElsewhere, Listener.step, listen, react, listening, starting, toDesk,
    Phase.InLogin]

/-- The close of a user who waits for the peer, the end of that local connection and another
one. -/
def closedInLogin : List (Event Unit) :=
  [.accept, .started true true, .ui (some .close), .localEnded, .accept]

theorem close_ignored : ¬ Honoured (after toDesk closedInLogin) := by
  intro honoured
  refine honoured.noMore
    [.accepted, .setPortForward "localhost" 80, .updateDirect true]
    [.accepted, .setPortForward "localhost" 80] ?_ List.mem_cons_self
  decide

end CamelliaRemote.Forward
