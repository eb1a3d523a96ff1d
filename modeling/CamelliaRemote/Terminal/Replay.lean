import CamelliaRemote.Terminal.Session

namespace CamelliaRemote.Terminal
open Runs TerminalSession

namespace SessionEvent

/-- Neither a reset nor a reconnection. -/
def isStreaming : SessionEvent → Bool
  | .reset | .reconnect _ => false
  | .send _ | .poll _ _ _ _ | .shellExits _ | .finishReader | .takeChild => true

def isPoll : SessionEvent → Bool
  | .poll _ _ _ _ => true
  | .send _ | .reset | .reconnect _ | .shellExits _ | .finishReader | .takeChild => false

end SessionEvent

namespace TerminalSession

/-- The payloads of the data responses of a step. -/
def returned (z : Compression) (s : TerminalSession) : SessionEvent → List Bytes
  | .poll terminalId arrivals _ _ =>
    (s.pollResponses z terminalId arrivals).map (TerminalData.payload z)
  | .send _ | .reset | .reconnect _ | .shellExits _ | .finishReader | .takeChild => []

/-- The chunks a step takes out of the channel. -/
def dequeued (s : TerminalSession) : SessionEvent → List Bytes
  | .poll _ arrivals _ _ => s.queue ++ arrivals
  | .reconnect arrivals => (s.queue ++ arrivals).take channelBufferSize
  | .send _ | .reset | .shellExits _ | .finishReader | .takeChild => []

/-- The chunks the channel accepts during a step. -/
def accepted (s : TerminalSession) : SessionEvent → List Bytes
  | .send data => if s.queue.length < channelBufferSize then [data] else []
  | .poll _ arrivals _ _ | .reconnect arrivals => arrivals
  | .reset | .shellExits _ | .finishReader | .takeChild => []

end TerminalSession

theorem step_accepted (s : TerminalSession) (e : SessionEvent) :
    s.queue ++ s.accepted e = s.dequeued e ++ (s.step e).queue := by
  cases e with
  | send data =>
    simp only [accepted, dequeued, TerminalSession.step, trySend]
    split <;> simp
  | poll => simp [accepted, dequeued, TerminalSession.step, TerminalSession.poll]
  | reconnect => simp [accepted, dequeued, TerminalSession.step, TerminalSession.reconnect]
  | reset | shellExits | finishReader | takeChild =>
    simp [accepted, dequeued, TerminalSession.step, resetStatus, TerminalSession.shellExits,
      TerminalSession.finishReader, TerminalSession.takeChild]

theorem run_accepted (s : TerminalSession) (es : List SessionEvent) :
    s.queue ++ collect step accepted s es =
      collect step dequeued s es ++ (run step s es).queue := by
  induction es generalizing s with
  | nil => simp [collect]
  | cons e es ih =>
    calc s.queue ++ collect step accepted s (e :: es)
        = (s.queue ++ s.accepted e) ++ collect step accepted (s.step e) es := by simp [collect]
      _ = s.dequeued e ++ ((s.step e).queue ++ collect step accepted (s.step e) es) := by
        rw [step_accepted, List.append_assoc]
      _ = collect step dequeued s (e :: es) ++ (run step s (e :: es)).queue := by
        rw [ih]
        simp [collect]

theorem step_content (s : TerminalSession) (e : SessionEvent) :
    (s.step e).outputBuffer.content <:+ s.outputBuffer.content ++ (s.dequeued e).flatten := by
  cases e with
  | send data =>
    simp only [dequeued, TerminalSession.step, trySend]
    split <;> simp
  | poll => exact OutputBuffer.appendAll_suffix _ _
  | reconnect => exact OutputBuffer.appendAll_suffix _ _
  | reset | shellExits | finishReader | takeChild =>
    simp [dequeued, TerminalSession.step, resetStatus, TerminalSession.shellExits,
      TerminalSession.finishReader, TerminalSession.takeChild]

theorem run_content (s : TerminalSession) (es : List SessionEvent) :
    (run step s es).outputBuffer.content <:+
      s.outputBuffer.content ++ (collect step dequeued s es).flatten := by
  induction es generalizing s with
  | nil => simp [collect]
  | cons e es ih =>
    refine (ih (s.step e)).trans ?_
    simpa [collect] using List.suffix_append_self_iff.mpr (step_content s e)

/-- What an active session has yet to replay. -/
def pending (s : TerminalSession) : Bytes :=
  match s.state with
  | .active (some buffer) _ => buffer
  | _ => []

def isActive (s : TerminalSession) : Bool :=
  match s.state with
  | .active _ _ => true
  | .closed => false

/-- Between two polls a streaming session keeps what is pending. -/
theorem quiet_step (z : Compression) (s : TerminalSession) {e : SessionEvent}
    (streaming : e.isStreaming) (quiet : e.isPoll = false) :
    isActive (s.step e) = isActive s ∧ pending (s.step e) = pending s ∧
      s.returned z e = [] ∧ s.dequeued e = [] := by
  cases e with
  | send data =>
    simp only [TerminalSession.step, trySend]
    split <;> exact ⟨rfl, rfl, rfl, rfl⟩
  | poll => simp [SessionEvent.isPoll] at quiet
  | reset | reconnect => simp [SessionEvent.isStreaming] at streaming
  | shellExits | finishReader | takeChild => exact ⟨rfl, rfl, rfl, rfl⟩

theorem poll_active {s : TerminalSession} (active : isActive s) (arrivals : List Bytes)
    (waitFails resizeOk : Bool) :
    isActive (s.poll arrivals waitFails resizeOk) ∧
      pending (s.poll arrivals waitFails resizeOk) = [] := by
  cases state : s.state with
  | closed => simp [isActive, state] at active
  | active p sigwinch => simp [isActive, pending, TerminalSession.poll, takePending, state]

theorem poll_returned (z : Compression) {s : TerminalSession} (active : isActive s)
    (terminalId : Int) (arrivals : List Bytes) :
    ((s.pollResponses z terminalId arrivals).map (TerminalData.payload z)).flatten =
      pending s ++ (s.queue ++ arrivals).flatten := by
  have payloads : (s.pollResponses z terminalId arrivals).map (TerminalData.payload z) =
      s.pollChunks arrivals := by
    simp [pollResponses, Function.comp_def, createTerminalDataResponse_payload]
  rw [payloads]
  cases state : s.state with
  | closed => simp [isActive, state] at active
  | active p sigwinch =>
    cases p with
    | none => simp [pollChunks, pending, state]
    | some buffer =>
      by_cases empty : buffer = []
      · simp [pollChunks, pending, state, empty]
      · simp [pollChunks, pending, state, empty]

/-- While a session streams, its polls return what was pending, once, and then
all that they dequeue. -/
theorem stream_returned (z : Compression) {s : TerminalSession} (active : isActive s)
    {fs : List SessionEvent} (streaming : ∀ e ∈ fs, e.isStreaming) :
    (collect step (returned z) s fs).flatten =
      (if fs.any (·.isPoll) then pending s else []) ++ (collect step dequeued s fs).flatten := by
  induction fs generalizing s with
  | nil => simp [collect]
  | cons e fs ih =>
    have rest : ∀ e ∈ fs, e.isStreaming := fun e he => streaming e (List.mem_cons_of_mem _ he)
    cases polls : e.isPoll with
    | false =>
      obtain ⟨stays, same, nothing, none⟩ :=
        quiet_step z s (streaming e List.mem_cons_self) polls
      have tail := ih (s := s.step e) (by rw [stays]; exact active) rest
      rw [same] at tail
      simpa [collect, nothing, none, polls] using tail
    | true =>
      cases e with
      | poll terminalId arrivals waitFails resizeOk =>
        obtain ⟨stays, empty⟩ := poll_active active arrivals waitFails resizeOk
        have tail := ih (s := s.poll arrivals waitFails resizeOk) stays rest
        have now := poll_returned z active terminalId arrivals
        simp only [empty, ite_self, List.nil_append] at tail
        simp only [collect, returned, dequeued, TerminalSession.step, List.flatten_append, tail,
          now]
        simp [SessionEvent.isPoll]
      | _ => simp [SessionEvent.isPoll] at polls

theorem reconnect_pending (s : TerminalSession) (arrivals : List Bytes) :
    isActive (s.reconnect arrivals) ∧ pending (s.reconnect arrivals) =
      (s.reconnect arrivals).outputBuffer.getRecent defaultReconnectBufferBytes := by
  refine ⟨rfl, ?_⟩
  simp only [pending, TerminalSession.reconnect]
  split
  · rename_i buffer _ state
    split at state
    · simp at state
    · simp only [SessionState.active.injEq, Option.some.injEq] at state
      exact state.1.symm
  · rename_i none
    by_contra nonempty
    refine none _ _ (by rw [if_neg]; simpa using fun h => nonempty h.symm)

theorem quiet_window {s : TerminalSession} (z : Compression) {fs : List SessionEvent}
    (streaming : ∀ e ∈ fs, e.isStreaming) (quiet : fs.any (·.isPoll) = false) :
    collect step (returned z) s fs = [] ∧ collect step dequeued s fs = [] := by
  induction fs generalizing s with
  | nil => exact ⟨rfl, rfl⟩
  | cons e fs ih =>
    have rest : ∀ e ∈ fs, e.isStreaming := fun e he => streaming e (List.mem_cons_of_mem _ he)
    simp only [List.any_cons, Bool.or_eq_false_iff] at quiet
    obtain ⟨-, -, nothing, none⟩ := quiet_step z s (streaming e List.mem_cons_self) quiet.1
    simpa [collect, nothing, none] using ih rest quiet.2

/-- Everything a session dequeued ends with its replay, followed by what the
window dequeued. -/
theorem replay_suffix (es fs : List SessionEvent) (arrivals : List Bytes) :
    ((run step opened es).reconnect arrivals).outputBuffer.getRecent
        defaultReconnectBufferBytes ++
      (collect step dequeued ((run step opened es).reconnect arrivals) fs).flatten <:+
    (collect step dequeued opened (es ++ .reconnect arrivals :: fs)).flatten := by
  have held := run_content opened (es ++ [SessionEvent.reconnect arrivals])
  simp only [run_append, run_cons, run_nil] at held
  have replay := (OutputBuffer.getRecent_suffix _ defaultReconnectBufferBytes).trans held
  have split : es ++ .reconnect arrivals :: fs =
      (es ++ [SessionEvent.reconnect arrivals]) ++ fs := by simp
  rw [split, collect_append, List.flatten_append]
  simp only [run_append, run_cons, run_nil]
  exact List.suffix_append_self_iff.mpr replay

/-- **Replay, then live output.** In the streaming window after a reconnection,
once a poll has processed the session, the polls have returned the replay
followed by every chunk dequeued since. This is a suffix of all the session ever
dequeued, which is all the channel accepted but for what is still in it. A
window without a poll returns nothing and takes nothing out. -/
theorem replay_then_live (z : Compression) (es fs : List SessionEvent) (arrivals : List Bytes)
    (streaming : ∀ e ∈ fs, e.isStreaming) :
    (fs.any (·.isPoll) →
      (collect step (returned z) ((run step opened es).reconnect arrivals) fs).flatten =
        ((run step opened es).reconnect arrivals).outputBuffer.getRecent
          defaultReconnectBufferBytes ++
        (collect step dequeued ((run step opened es).reconnect arrivals) fs).flatten) ∧
    (fs.any (·.isPoll) = false →
      collect step (returned z) ((run step opened es).reconnect arrivals) fs = [] ∧
      collect step dequeued ((run step opened es).reconnect arrivals) fs = []) ∧
    (collect step (returned z) ((run step opened es).reconnect arrivals) fs).flatten <:+
      (collect step dequeued opened (es ++ .reconnect arrivals :: fs)).flatten ∧
    collect step accepted opened (es ++ .reconnect arrivals :: fs) =
      collect step dequeued opened (es ++ .reconnect arrivals :: fs) ++
        (run step opened (es ++ .reconnect arrivals :: fs)).queue := by
  obtain ⟨active, replay⟩ := reconnect_pending (run step opened es) arrivals
  have window := stream_returned z active streaming
  rw [replay] at window
  refine ⟨fun polled => ?_, quiet_window z streaming, ?_, ?_⟩
  · rw [window, if_pos polled]
  · cases polled : fs.any (·.isPoll) with
    | true =>
      rw [window, if_pos polled]
      exact replay_suffix es fs arrivals
    | false => simp [(quiet_window z streaming polled).1]
  · simpa [opened] using run_accepted opened (es ++ .reconnect arrivals :: fs)

theorem replay_then_live_echo :
    (collect step (returned Compression.stored)
      ((run step opened [.send [97], .reset]).reconnect [])
      [.send [98], .poll 1 [] false true]).flatten = [97, 98] := by
  have live := (replay_then_live Compression.stored [.send [97], .reset]
    [.send [98], .poll 1 [] false true] [] (by decide)).1 (by decide)
  rw [live]
  decide +kernel

/-- A window that ends before a poll returns nothing of the replay, and a chunk
that is accepted after the last poll of a window is not returned by it. -/
theorem replay_waits_for_poll :
    (¬ ∀ (z : Compression) (es fs : List SessionEvent) (arrivals : List Bytes),
      (∀ e ∈ fs, e.isStreaming) →
      (collect step (returned z) ((run step opened es).reconnect arrivals) fs).flatten =
        ((run step opened es).reconnect arrivals).outputBuffer.getRecent
          defaultReconnectBufferBytes ++
        (collect step dequeued ((run step opened es).reconnect arrivals) fs).flatten) ∧
    ¬ ∀ (z : Compression) (es fs : List SessionEvent) (arrivals : List Bytes),
      (∀ e ∈ fs, e.isStreaming) → fs.any (·.isPoll) →
      (collect step (returned z) ((run step opened es).reconnect arrivals) fs).flatten <:+
        (collect step accepted opened (es ++ .reconnect arrivals :: fs)).flatten := by
  constructor
  · intro h
    have equal := h Compression.stored [.send [97], .reset] [] [] (by simp)
    revert equal
    decide +kernel
  · intro h
    have all := h Compression.stored [.send [97], .reset] [.poll 1 [] false true, .send [98]] []
      (by decide) (by decide)
    revert all
    decide +kernel

end CamelliaRemote.Terminal
