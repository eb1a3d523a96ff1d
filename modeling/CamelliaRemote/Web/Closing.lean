import CamelliaRemote.Lib.Runs
import CamelliaRemote.Web.Sealing

namespace CamelliaRemote.Web
open Codec Runs

namespace WebSession
open WebSocketTransport

variable {setup : Setup} {s : WebSession}

/-- No call of `connect` is in flight; one that failed may yet be seen by
`tryAutoReconnect`. -/
def NoneInFlight (s : WebSession) : Prop := ∀ c ∈ s.calls, c.awaiting = .failed

/-- `close` finds no call in flight, and a session that was reported closed before is
not connected again. -/
def CloseSettled (s : WebSession) : SessionEvent → Prop
  | .close => NoneInFlight s ∧
      (s.closeNotified = true → s.state ≠ .connected ∧ s.keepaliveTimer = false)
  | _ => True

instance (s : WebSession) : ∀ e, Decidable (CloseSettled s e)
  | .close => inferInstanceAs (Decidable ((∀ c ∈ s.calls, c.awaiting = .failed) ∧ _))
  | .connect _ | .resume _ _ | .socketOpen _ | .socketError _ | .socketClosing _
  | .socketClose _ _ | .socketTimeout _ | .socketMessage _ _ _ | .reconnectTimeout
  | .keepaliveInterval _ | .sendMessage _ | .sendBinary _ | .switchDisplay _ => .isTrue trivial

/-- Closed, with nothing left that could open it again. -/
structure Quiet (s : WebSession) : Prop where
  manualClose : s.manualClose = true
  calls : NoneInFlight s
  socket : s.transport.socket = none
  state : s.state ≠ .connected
  keepalive : s.keepaliveTimer = false
  reconnect : s.reconnectTimer = none

theorem quiet_close (settled : CloseSettled s .close) : Quiet s.close := by
  obtain ⟨calls, notified⟩ := settled
  unfold WebSession.close finalizeClosedState
  dsimp only
  cases already : s.closeNotified with
  | true =>
    rw [if_pos rfl]
    exact ⟨rfl, calls, rfl, (notified already).1, (notified already).2, rfl⟩
  | false =>
    rw [if_neg (by decide)]
    exact ⟨rfl, calls, rfl, by simp, rfl, rfl⟩

/-- Without a socket nothing is sent. -/
theorem send_of_no_socket {t : WebSocketTransport} (none : t.socket = none) (origin : Origin)
    (data : Bytes) : t.send origin data = t := by
  rw [WebSocketTransport.send, none]

theorem Quiet.sendMessage (h : Quiet s) (origin : Origin) (data : Bytes) :
    s.sendMessage origin data = s := by
  unfold WebSession.sendMessage sendTransport
  rw [send_of_no_socket h.socket]
  split <;> rfl

theorem Quiet.requestInitialVideoRefresh (h : Quiet s) :
    requestInitialVideoRefresh setup s = s := by
  rw [WebSession.requestInitialVideoRefresh, if_neg (by simp [h.manualClose])]

/-- A transport without a socket stays as it is, but for the sockets it gave up. -/
theorem Quiet.transport (h : Quiet s) {t : WebSocketTransport} (none : t.socket = none) :
    Quiet { s with transport := t } :=
  ⟨h.manualClose, h.calls, none, h.state, h.keepalive, h.reconnect⟩

theorem Quiet.close (h : Quiet s) : CloseSettled s .close :=
  ⟨h.calls, fun _ => ⟨h.state, h.keepalive⟩⟩

theorem Quiet.resume (h : Quiet s) {c : Call} (mem : c ∈ s.calls) (answer : Answer) :
    s.resume setup c answer = s.endCall c := by
  unfold WebSession.resume
  rw [h.calls c mem]
  dsimp only
  rw [if_pos]
  exact h.manualClose

theorem Quiet.endCall (h : Quiet s) (c : Call) : Quiet (s.endCall c) :=
  ⟨h.manualClose, fun c' mem => h.calls c' (List.mem_filter.mp mem).1, h.socket, h.state,
    h.keepalive, h.reconnect⟩

/-- The transport keeps no socket and sends nothing. -/
structure Still (t u : WebSocketTransport) : Prop where
  socket : u.socket = none
  frames : u.frames = t.frames

theorem still_onOpen {t : WebSocketTransport} (none : t.socket = none) (id : Nat) :
    Still t (t.onOpen id) := by
  unfold WebSocketTransport.onOpen
  dsimp only
  split
  · exact ⟨by simpa [setReady] using none, by simp [setReady]⟩
  · exact ⟨by simpa [setReady] using none, by simp [setReady]⟩

theorem still_onError {t : WebSocketTransport} (none : t.socket = none) (id : Nat) :
    Still t (t.onError id) := by
  unfold WebSocketTransport.onError
  dsimp only
  split <;> exact ⟨by simpa using none, by simp⟩

theorem still_onTimeout {t : WebSocketTransport} (none : t.socket = none) (id : Nat) :
    Still t (t.onTimeout id) := by
  unfold WebSocketTransport.onTimeout
  split
  · exact ⟨none, rfl⟩
  · dsimp only
    split <;> exact ⟨by simp [none], by simp⟩

theorem onClose_of_no_socket {t : WebSocketTransport} (none : t.socket = none) (id : Nat) :
    t.onClose id = (t.setReady id .closed, false) := by
  unfold WebSocketTransport.onClose
  dsimp only
  rw [if_pos]
  simp [setReady, none]

theorem still_onMessage {t : WebSocketTransport} (none : t.socket = none) (data : Bytes)
    (opened : Option Bytes) : Still t (t.onMessage data opened).1 := by
  unfold WebSocketTransport.onMessage
  split
  · exact ⟨none, rfl⟩
  · exact ⟨none, rfl⟩

/-- A quiet session stays quiet and sends nothing, whatever happens but a `connect`. -/
theorem quiet_step (h : Quiet s) (e : SessionEvent) (other : ∀ context, e ≠ .connect context) :
    Quiet (s.step setup e) ∧ (s.step setup e).transport.frames = s.transport.frames := by
  cases e with
  | connect context => exact absurd rfl (other context)
  | close =>
    refine ⟨quiet_close h.close, ?_⟩
    dsimp only [WebSession.step, WebSession.close]
    rw [finalizeClosedState_transport]
    exact closePrevious_frames
  | resume id answer =>
    dsimp only [WebSession.step]
    split
    · rename_i c found
      rw [h.resume (List.mem_of_find?_eq_some found)]
      exact ⟨h.endCall c, rfl⟩
    · exact ⟨h, rfl⟩
  | socketOpen id =>
    dsimp only [WebSession.step]
    split
    · have still := still_onOpen h.socket id
      exact ⟨h.transport still.socket, still.frames⟩
    · exact ⟨h, rfl⟩
  | socketError id =>
    have still := still_onError h.socket id
    exact ⟨h.transport still.socket, still.frames⟩
  | socketClosing id =>
    exact ⟨h.transport ((closeSocket_socket id).trans h.socket), closeSocket_frames id⟩
  | socketClose id event =>
    dsimp only [WebSession.step]
    rw [onClose_of_no_socket h.socket]
    exact ⟨h.transport h.socket, rfl⟩
  | socketTimeout id =>
    have still := still_onTimeout h.socket id
    exact ⟨h.transport still.socket, still.frames⟩
  | socketMessage id data opened =>
    have still := still_onMessage h.socket data opened
    dsimp only [WebSession.step]
    unfold WebSession.onMessage
    split
    · exact ⟨h, rfl⟩
    · split
      · rename_i t failed
        rw [failed] at still
        exact ⟨h.transport still.socket, still.frames⟩
      · rename_i t payload delivered
        rw [delivered] at still
        refine ⟨⟨h.manualClose, fun c mem => ?_, still.socket, h.state, h.keepalive, h.reconnect⟩,
          still.frames⟩
        obtain ⟨before, was, rfl⟩ := List.mem_map.mp mem
        rw [h.calls before was]
        rfl
  | reconnectTimeout =>
    dsimp only [WebSession.step]
    rw [h.reconnect]
    exact ⟨h, rfl⟩
  | keepaliveInterval heartbeat =>
    dsimp only [WebSession.step]
    rw [h.keepalive]
    exact ⟨h, rfl⟩
  | sendMessage data =>
    dsimp only [WebSession.step]
    rw [h.sendMessage]
    exact ⟨h, rfl⟩
  | sendBinary data =>
    dsimp only [WebSession.step, sendTransport]
    rw [send_of_no_socket h.socket]
    exact ⟨h, rfl⟩
  | switchDisplay target =>
    dsimp only [WebSession.step, WebSession.switchDisplay]
    have requested : Quiet { s with requestedDisplay := some target } :=
      ⟨h.manualClose, h.calls, h.socket, h.state, h.keepalive, h.reconnect⟩
    rw [requested.sendMessage, requested.requestInitialVideoRefresh]
    split
    · exact ⟨requested, rfl⟩
    · exact ⟨h, rfl⟩

/-- What is asked of a session from the moment `close` returns: `closed` is the session
then, `later` at a later moment. -/
structure StaysClosed (closed later : WebSession) : Prop where
  state : later.state ≠ .connected
  keepalive : later.keepaliveTimer = false
  reconnect : later.reconnectTimer = none
  frames : later.transport.frames = closed.transport.frames

theorem quiet_run (h : Quiet s) {es : List SessionEvent}
    (other : ∀ context, SessionEvent.connect context ∉ es) :
    StaysClosed s (run (WebSession.step setup) s es) := by
  have admitted : Along (WebSession.step setup) (fun _ e => ∀ context, e ≠ .connect context) s
      es := by
    refine along_of_forall_mem (fun e mem context is => ?_) s
    exact other context (is ▸ mem)
  have keep : ∀ (later : WebSession) (e : SessionEvent),
      (Quiet later ∧ later.transport.frames = s.transport.frames) →
        (∀ context, e ≠ .connect context) →
          Quiet (later.step setup e) ∧
            (later.step setup e).transport.frames = s.transport.frames := by
    intro later e ⟨quiet, frames⟩ allowed
    obtain ⟨quiet, same⟩ := quiet_step quiet e allowed
    exact ⟨quiet, same.trans frames⟩
  obtain ⟨quiet, frames⟩ := invariant keep ⟨h, rfl⟩ admitted
  exact ⟨quiet.state, quiet.keepalive, quiet.reconnect, frames⟩

end WebSession

open WebSession

/-- **Closing is final.** In a run whose calls of `close` find no call of `connect` in
flight, and no session connected again after it was reported closed: from the moment
`close` returns until the user calls `connect` again, the session is not connected, no
keepalive or reconnect timer is armed, and no frame is sent. -/
theorem close_is_final (setup : Setup) {es : List SessionEvent}
    (settled : Along (WebSession.step setup) CloseSettled {} es) {past since : List SessionEvent}
    (split : es = past ++ .close :: since)
    (other : ∀ context, SessionEvent.connect context ∉ since) :
    StaysClosed (run (WebSession.step setup) {} (past ++ [SessionEvent.close]))
      (run (WebSession.step setup) {} es) := by
  subst split
  have here := (along_append.mp settled).2.1
  rw [run_append, run_append, run_cons, run_cons, run_nil]
  exact quiet_run (quiet_close here) other

/-- A connected session is closed; then a message is sent, the keepalive fires and the
socket reports. -/
theorem close_is_final_when_connected :
    let past := relayOpening ++ relayHandshake
    let since := [SessionEvent.sendMessage [8], .keepaliveInterval [9],
      .socketClose 0 ⟨1006, false⟩, .reconnectTimeout]
    (run (WebSession.step relaySetup) {} past).state = .connected ∧
      StaysClosed (run (WebSession.step relaySetup) {} (past ++ [SessionEvent.close]))
        (run (WebSession.step relaySetup) {} (past ++ .close :: since)) := by
  refine ⟨by decide +kernel, close_is_final relaySetup (by decide +kernel) rfl ?_⟩
  intro context mem
  simp at mem

/-- A session that is closed while `connect` waits for the protocol definitions sends,
is connected and keeps itself alive afterwards. Closing it again changes nothing. -/
theorem connect_goes_on_after_close :
    let es := [SessionEvent.connect relayContext, .close] ++ relayOpening.tail ++ relayHandshake
    ¬ StaysClosed (run (WebSession.step relaySetup) {} [.connect relayContext, .close])
        (run (WebSession.step relaySetup) {} es) ∧
      (run (WebSession.step relaySetup) {} es).transport.frames.map Frame.origin =
        [.relayJoin, .publicKey] ∧
      ¬ StaysClosed (run (WebSession.step relaySetup) {} (es ++ [SessionEvent.close]))
        (run (WebSession.step relaySetup) {} (es ++ [SessionEvent.close])) := by
  refine ⟨fun stays => ?_, by decide +kernel, fun stays => ?_⟩
  · exact absurd stays.state (by decide +kernel)
  · exact absurd stays.keepalive (by decide +kernel)

end CamelliaRemote.Web
