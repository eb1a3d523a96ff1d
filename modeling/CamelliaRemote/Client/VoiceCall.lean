import CamelliaRemote.Lib.Runs

/-!
The voice call of a client, `src/client/io_loop.rs`. A `Remote` keeps the timestamp of an
unanswered request and the sender that stops its recorder. A recorder is a thread that ends once
it is told to, or once its sender is gone. A session for files, ports or a terminal never starts
one.
-/

namespace CamelliaRemote.Client
open Runs

abbrev NonZeroI64 := { t : Int // t ≠ 0 }

def NonZeroI64.new (n : Int) : Option NonZeroI64 := if h : n ≠ 0 then some ⟨n, h⟩ else none

inductive VoiceEffect where
  | sendVoiceCallRequest (isConnect : Bool) (reqTimestamp : Int)
  | onVoiceCallWaiting
  | onVoiceCallStarted
  | onVoiceCallClosed (reason : String)
  deriving DecidableEq

structure VoiceCall where
  /-- `start_voice_call` starts a recorder in this kind of session. -/
  records : Bool
  voiceCallRequestTimestamp : Option NonZeroI64 := none
  /-- The number of the recorder that the sender stops. -/
  stopVoiceCallSender : Option Nat := none
  /-- How many recorders were started. -/
  started : Nat := 0
  /-- The recorders that nobody has told to stop. -/
  recorders : List Nat := []
  effects : List VoiceEffect := []

inductive VoiceEvent where
  /-- `Data::NewVoiceCall`, with what the clock says when the request is made and after. -/
  | newVoiceCall (reqTimestamp : Int) (now : NonZeroI64)
  /-- `Data::CloseVoiceCall`. -/
  | closeVoiceCall (reqTimestamp : Int)
  | voiceCallRequest (isConnect : Bool)
  | voiceCallResponse (accepted : Bool) (reqTimestamp : Int)
  deriving DecidableEq

namespace VoiceCall
variable (s : VoiceCall)

def emit (effect : VoiceEffect) : VoiceCall := { s with effects := s.effects ++ [effect] }

/-- The sender is used or dropped, which its recorder takes as the end. -/
def takeSender : VoiceCall :=
  { s with stopVoiceCallSender := none
           recorders := s.recorders.filter fun r => s.stopVoiceCallSender ≠ some r }

def stopVoiceCall : VoiceCall := s.takeSender

/-- `self.stop_voice_call_sender = self.start_voice_call()`. -/
def startVoiceCall : VoiceCall :=
  let s := s.takeSender
  if s.records then
    { s with stopVoiceCallSender := some s.started, started := s.started + 1
             recorders := s.recorders ++ [s.started] }
  else s

def onVoiceCallResponse (accepted : Bool) (reqTimestamp : Int) : VoiceCall :=
  let taken := { s with voiceCallRequestTimestamp := none }
  match s.voiceCallRequestTimestamp with
  | none => taken
  | some ts =>
    if reqTimestamp ≠ ts then taken
    else if accepted then (taken.emit .onVoiceCallStarted).startVoiceCall
    else taken.emit (.onVoiceCallClosed "")

def step (s : VoiceCall) : VoiceEvent → VoiceCall
  | .newVoiceCall reqTimestamp now =>
    let s := { s with voiceCallRequestTimestamp :=
                        some ((NonZeroI64.new reqTimestamp).getD now) }
    (s.emit (.sendVoiceCallRequest true reqTimestamp)).emit .onVoiceCallWaiting
  | .closeVoiceCall reqTimestamp =>
    (s.stopVoiceCall.emit (.onVoiceCallClosed "Closed manually by the peer")).emit
      (.sendVoiceCallRequest false reqTimestamp)
  | .voiceCallRequest isConnect =>
    if isConnect then s
    else if s.stopVoiceCallSender.isSome then s.takeSender.emit (.onVoiceCallClosed "")
    else s
  | .voiceCallResponse accepted reqTimestamp => s.onVoiceCallResponse accepted reqTimestamp

end VoiceCall

/-- The timestamp that a `NewVoiceCall` leaves to compare with. -/
def VoiceEvent.asks : VoiceEvent → Option NonZeroI64
  | .newVoiceCall reqTimestamp now => some ((NonZeroI64.new reqTimestamp).getD now)
  | _ => none

/-- The user ends the call, or the peer ends a running one. -/
def Closing (s : VoiceCall) : VoiceEvent → Prop
  | .closeVoiceCall _ => True
  | .voiceCallRequest isConnect => isConnect = false ∧ s.recorders ≠ []
  | _ => False

/-- `ts` is the timestamp of the latest `NewVoiceCall`, and nothing closed the call since. -/
def Asked (s : VoiceCall) (es : List VoiceEvent) (ts : NonZeroI64) : Prop :=
  ∃ before call since, es = before ++ call :: since ∧ call.asks = some ts ∧
    (∀ e ∈ since, e.asks = none) ∧
    Along VoiceCall.step (fun s e => ¬ Closing s e)
      (run VoiceCall.step s (before ++ [call])) since

/-- The peer accepted the latest `NewVoiceCall`, and nothing closed the call since. -/
def Wanted (s : VoiceCall) (es : List VoiceEvent) : Prop :=
  ∃ before ts after, es = before ++ .voiceCallResponse true ts.val :: after ∧
    Asked s before ts ∧
    Along VoiceCall.step (fun s e => ¬ Closing s e) (run VoiceCall.step s before)
      (.voiceCallResponse true ts.val :: after)

/-- A call is closed only when no request is unanswered. -/
def ClosesAnswered (s : VoiceCall) (e : VoiceEvent) : Prop :=
  s.records = true → Closing s e → s.voiceCallRequestTimestamp = none

section Run
variable {s₀ : VoiceCall} {es : List VoiceEvent} {e : VoiceEvent} {ts : NonZeroI64}

theorem asked_snoc : Asked s₀ (es ++ [e]) ts ↔
    e.asks = some ts ∨
      e.asks = none ∧ Asked s₀ es ts ∧ ¬ Closing (run VoiceCall.step s₀ es) e := by
  constructor
  · rintro ⟨before, call, since, eq, asks, none, along⟩
    rcases snoc_eq_split.mp eq with ⟨rfl, rfl, rfl⟩ | ⟨since, rfl, rfl⟩
    · exact .inl asks
    · rw [along_snoc, ← run_append] at along
      refine .inr ⟨none e (by simp), ⟨before, call, since, rfl, asks, ?_, along.1⟩, ?_⟩
      · exact fun f mem => none f (List.mem_append_left _ mem)
      · simpa using along.2
  · rintro (asks | ⟨same, ⟨before, call, since, rfl, asks, none, along⟩, goesOn⟩)
    · exact ⟨es, e, [], rfl, asks, by simp, trivial⟩
    · refine ⟨before, call, since ++ [e], by simp, asks, ?_, ?_⟩
      · intro f mem
        rcases List.mem_append.mp mem with mem | mem
        · exact none f mem
        · rw [List.mem_singleton.mp mem]
          exact same
      · rw [along_snoc, ← run_append]
        exact ⟨along, by simpa using goesOn⟩

theorem wanted_snoc : Wanted s₀ (es ++ [e]) ↔
    (∃ ts, e = .voiceCallResponse true ts.val ∧ Asked s₀ es ts) ∨
      Wanted s₀ es ∧ ¬ Closing (run VoiceCall.step s₀ es) e := by
  constructor
  · rintro ⟨before, ts, after, eq, asked, along⟩
    rcases snoc_eq_split.mp eq with ⟨rfl, rfl, rfl⟩ | ⟨after, rfl, rfl⟩
    · exact .inl ⟨ts, rfl, asked⟩
    · rw [← List.cons_append, along_snoc, ← run_append] at along
      exact .inr ⟨⟨before, ts, after, rfl, asked, along.1⟩, along.2⟩
  · rintro (⟨ts, rfl, asked⟩ | ⟨⟨before, ts, after, rfl, asked, along⟩, goesOn⟩)
    · exact ⟨es, ts, [], rfl, asked, by simp [Along, Closing]⟩
    · refine ⟨before, ts, after ++ [e], by simp, asked, ?_⟩
      rw [← List.cons_append, along_snoc, ← run_append]
      exact ⟨along, goesOn⟩

theorem Wanted.keep (wanted : Wanted s₀ es) (goesOn : ¬ Closing (run VoiceCall.step s₀ es) e) :
    Wanted s₀ (es ++ [e]) :=
  wanted_snoc.mpr (.inr ⟨wanted, goesOn⟩)

/-- What is known of the state after `es`. -/
structure Tracked (s₀ : VoiceCall) (es : List VoiceEvent) (s : VoiceCall) : Prop where
  held : s.recorders = s.stopVoiceCallSender.toList
  silent : s.records = false → s.recorders = []
  asked : s.records = true → ∀ ts, s.voiceCallRequestTimestamp = some ts → Asked s₀ es ts
  wanted : s.recorders ≠ [] → Wanted s₀ es

theorem recorders_takeSender {s : VoiceCall} (held : s.recorders = s.stopVoiceCallSender.toList) :
    s.takeSender.recorders = [] := by
  unfold VoiceCall.takeSender
  cases sender : s.stopVoiceCallSender with
  | none => simp [held, sender]
  | some r => simp [held, sender]

/-- A new recorder takes the place of the old one. -/
theorem startVoiceCall_fields {s : VoiceCall} (held : s.recorders = s.stopVoiceCallSender.toList) :
    s.startVoiceCall.records = s.records ∧
      s.startVoiceCall.voiceCallRequestTimestamp = s.voiceCallRequestTimestamp ∧
      s.startVoiceCall.recorders = (if s.records then [s.started] else []) ∧
      s.startVoiceCall.stopVoiceCallSender = if s.records then some s.started else none := by
  have ended := recorders_takeSender held
  unfold VoiceCall.startVoiceCall
  have records : s.takeSender.records = s.records := rfl
  have started : s.takeSender.started = s.started := rfl
  have pending : s.takeSender.voiceCallRequestTimestamp = s.voiceCallRequestTimestamp := rfl
  have gone : s.takeSender.stopVoiceCallSender = none := rfl
  cases kind : s.records with
  | true => simp [records, started, pending, kind, ended]
  | false => simp [records, pending, gone, kind, ended]

theorem Tracked.newVoiceCall {s : VoiceCall} (tracked : Tracked s₀ es s)
    (reqTimestamp : Int) (now : NonZeroI64) :
    Tracked s₀ (es ++ [VoiceEvent.newVoiceCall reqTimestamp now])
      (s.step (.newVoiceCall reqTimestamp now)) := by
  refine ⟨tracked.held, tracked.silent, ?_, ?_⟩
  · intro _ ts same
    exact asked_snoc.mpr (.inl same)
  · intro running
    refine (tracked.wanted running).keep ?_
    simp [Closing]

theorem Tracked.take {s : VoiceCall} (tracked : Tracked s₀ es s) (closes : Closing s e)
    (answered : ClosesAnswered s e) : Tracked s₀ (es ++ [e]) s.takeSender := by
  have ended := recorders_takeSender tracked.held
  refine ⟨by rw [ended]; rfl, fun _ => ended, ?_, fun running => absurd ended running⟩
  intro records ts same
  exact absurd ((answered records closes).symm.trans same) (by simp)

theorem Tracked.voiceCallRequest {s : VoiceCall} (tracked : Tracked s₀ es s)
    (at' : run VoiceCall.step s₀ es = s) {isConnect : Bool}
    (answered : ClosesAnswered s (.voiceCallRequest isConnect)) :
    Tracked s₀ (es ++ [VoiceEvent.voiceCallRequest isConnect])
      (s.step (.voiceCallRequest isConnect)) := by
  by_cases closes : Closing s (.voiceCallRequest isConnect)
  · have taken := tracked.take closes answered
    obtain ⟨rfl, running⟩ := closes
    have some : s.stopVoiceCallSender.isSome := by
      cases sender : s.stopVoiceCallSender with
      | none => exact absurd (by simp [tracked.held, sender]) running
      | some r => rfl
    simp only [VoiceCall.step, some, if_true, Bool.false_eq_true, if_false]
    exact ⟨taken.held, taken.silent, taken.asked, taken.wanted⟩
  · have same : s.step (.voiceCallRequest isConnect) = s := by
      unfold VoiceCall.step
      cases isConnect with
      | true => rfl
      | false =>
        have none : s.stopVoiceCallSender = none := by
          by_contra some
          refine closes ⟨rfl, ?_⟩
          rw [tracked.held]
          simpa using some
        simp [none]
    rw [same]
    refine ⟨tracked.held, tracked.silent, ?_, ?_⟩
    · intro records ts pending
      exact asked_snoc.mpr (.inr ⟨rfl, tracked.asked records ts pending, by rwa [at']⟩)
    · intro running
      exact (tracked.wanted running).keep (by rwa [at'])

/-- The request is answered and no recorder is touched. -/
structure AnswerOnly (s s' : VoiceCall) : Prop where
  answered : s'.voiceCallRequestTimestamp = none
  records : s'.records = s.records
  sender : s'.stopVoiceCallSender = s.stopVoiceCallSender
  started : s'.started = s.started
  recorders : s'.recorders = s.recorders

theorem onVoiceCallResponse_cases (s : VoiceCall) (accepted : Bool) (reqTimestamp : Int) :
    AnswerOnly s (s.onVoiceCallResponse accepted reqTimestamp) ∨
    ∃ ts, accepted = true ∧ s.voiceCallRequestTimestamp = some ts ∧ reqTimestamp = ts.val ∧
      s.onVoiceCallResponse accepted reqTimestamp =
        ({ s with voiceCallRequestTimestamp := none }.emit .onVoiceCallStarted).startVoiceCall := by
  unfold VoiceCall.onVoiceCallResponse
  cases pending : s.voiceCallRequestTimestamp with
  | none => exact .inl ⟨rfl, rfl, rfl, rfl, rfl⟩
  | some ts =>
    by_cases other : reqTimestamp = ts.val
    · cases accepted with
      | false =>
        left
        simp only [other, ne_eq, not_true_eq_false, if_false, Bool.false_eq_true]
        exact ⟨rfl, rfl, rfl, rfl, rfl⟩
      | true => exact .inr ⟨ts, rfl, rfl, other, by simp [other]⟩
    · left
      simp only [other, ne_eq, not_false_eq_true, if_true]
      exact ⟨rfl, rfl, rfl, rfl, rfl⟩

theorem Tracked.voiceCallResponse {s : VoiceCall} (tracked : Tracked s₀ es s)
    (accepted : Bool) (reqTimestamp : Int) :
    Tracked s₀ (es ++ [VoiceEvent.voiceCallResponse accepted reqTimestamp])
      (s.onVoiceCallResponse accepted reqTimestamp) := by
  rcases onVoiceCallResponse_cases s accepted reqTimestamp with
    only | ⟨ts, rfl, pending, rfl, eq⟩
  · refine ⟨?_, ?_, ?_, ?_⟩
    · rw [only.recorders, only.sender, tracked.held]
    · rw [only.records, only.recorders]
      exact tracked.silent
    · intro _ ts pending
      rw [only.answered] at pending
      cases pending
    · rw [only.recorders]
      exact fun running => (tracked.wanted running).keep (by simp [Closing])
  · have fields := startVoiceCall_fields (s := { s with voiceCallRequestTimestamp := none }.emit
      .onVoiceCallStarted) tracked.held
    obtain ⟨records, answered, recorders, sender⟩ := fields
    rw [eq]
    refine ⟨?_, ?_, ?_, ?_⟩
    · rw [recorders, sender]
      split <;> rfl
    · intro silent
      rw [records] at silent
      rw [recorders, if_neg (by simp [silent])]
    · intro _ ts pending
      rw [answered] at pending
      cases pending
    · intro running
      rw [recorders] at running
      have kind : s.records = true := by
        by_contra silent
        exact running (if_neg silent)
      exact wanted_snoc.mpr (.inl ⟨ts, rfl, tracked.asked kind ts pending⟩)

theorem Tracked.step {s : VoiceCall} (tracked : Tracked s₀ es s)
    (at' : run VoiceCall.step s₀ es = s) (answered : ClosesAnswered s e) :
    Tracked s₀ (es ++ [e]) (s.step e) := by
  cases e with
  | newVoiceCall reqTimestamp now => exact tracked.newVoiceCall reqTimestamp now
  | closeVoiceCall reqTimestamp =>
    have taken := tracked.take (e := .closeVoiceCall reqTimestamp) trivial answered
    exact ⟨taken.held, taken.silent, taken.asked, taken.wanted⟩
  | voiceCallRequest isConnect => exact tracked.voiceCallRequest at' answered
  | voiceCallResponse accepted reqTimestamp =>
    exact tracked.voiceCallResponse accepted reqTimestamp

theorem tracked_run {records : Bool}
    (answered : Along VoiceCall.step ClosesAnswered { records } es) :
    Tracked { records } es (run VoiceCall.step { records } es) := by
  induction es using List.reverseRecOn with
  | nil => exact ⟨rfl, fun _ => rfl, by simp, by simp⟩
  | append_singleton es e ih =>
    rw [along_snoc] at answered
    rw [run_append]
    exact (ih answered.1).step rfl answered.2

theorem started_of_ne {s : VoiceCall} (more : (s.step e).started ≠ s.started) :
    s.records = true ∧
      ∃ ts, e = .voiceCallResponse true ts.val ∧ s.voiceCallRequestTimestamp = some ts := by
  cases e with
  | newVoiceCall reqTimestamp now => exact absurd rfl more
  | closeVoiceCall reqTimestamp => exact absurd rfl more
  | voiceCallRequest isConnect =>
    refine absurd ?_ more
    simp only [VoiceCall.step]
    split
    · rfl
    · split <;> rfl
  | voiceCallResponse accepted reqTimestamp =>
    rcases onVoiceCallResponse_cases s accepted reqTimestamp with
      only | ⟨ts, rfl, pending, rfl, eq⟩
    · exact absurd only.started more
    · refine ⟨?_, ts, rfl, pending⟩
      by_contra silent
      refine more ?_
      simp only [VoiceCall.step]
      rw [eq]
      simp [VoiceCall.startVoiceCall, VoiceCall.takeSender, VoiceCall.emit, silent]

/-- **The microphone follows the user's intent** where no call is closed with a request
unanswered: a recorder is started by the answer to the latest call, and one runs only
after such an answer with nothing closing the call since. -/
theorem microphone_follows_intent (records : Bool) (es : List VoiceEvent)
    (answered : Along VoiceCall.step ClosesAnswered { records } es) :
    ((run VoiceCall.step { records } es).recorders ≠ [] → Wanted { records } es) ∧
    ∀ e, ((run VoiceCall.step { records } es).step e).started ≠
        (run VoiceCall.step { records } es).started →
      ∃ ts, e = .voiceCallResponse true ts.val ∧ Asked { records } es ts := by
  have tracked := tracked_run answered
  refine ⟨tracked.wanted, ?_⟩
  intro e more
  obtain ⟨kind, ts, rfl, pending⟩ := started_of_ne more
  exact ⟨ts, rfl, tracked.asked kind ts pending⟩

end Run

/-- A call and its acceptance. -/
def acceptedCall : List VoiceEvent := [.newVoiceCall 5 ⟨5, by decide⟩, .voiceCallResponse true 5]

/-- The recorder runs from the acceptance of a call to its end. -/
theorem microphone_follows_intent_call :
    Along VoiceCall.step ClosesAnswered { records := true }
        (acceptedCall ++ [VoiceEvent.closeVoiceCall 6]) ∧
      (run VoiceCall.step { records := true } acceptedCall).recorders = [0] ∧
      Wanted { records := true } acceptedCall ∧
      (run VoiceCall.step { records := true }
        (acceptedCall ++ [VoiceEvent.closeVoiceCall 6])).recorders = [] := by
  have answered : Along VoiceCall.step ClosesAnswered { records := true } acceptedCall := by
    simp [acceptedCall, Along, ClosesAnswered, Closing]
  refine ⟨?_, rfl, (microphone_follows_intent true _ answered).1 (by decide), by decide⟩
  exact along_snoc.mpr ⟨answered, fun _ _ => rfl⟩

/-- The user cancels before the answer. -/
def cancelledCall : List VoiceEvent :=
  [VoiceEvent.newVoiceCall 5 ⟨5, by decide⟩] ++ [VoiceEvent.closeVoiceCall 6]

/-- The answer to a cancelled call starts a recorder. -/
theorem cancelled_call_records :
    (run VoiceCall.step { records := true }
      (cancelledCall ++ [VoiceEvent.voiceCallResponse true 5])).recorders = [0] ∧
    ¬ Wanted { records := true } (cancelledCall ++ [VoiceEvent.voiceCallResponse true 5]) := by
  refine ⟨rfl, ?_⟩
  rw [wanted_snoc]
  rintro (⟨ts, -, asked⟩ | ⟨wanted, -⟩)
  · rcases asked_snoc.mp asked with asks | ⟨-, -, goesOn⟩
    · cases asks
    · exact goesOn trivial
  · rcases wanted_snoc.mp wanted with ⟨ts, response, -⟩ | ⟨-, goesOn⟩
    · cases response
    · exact goesOn trivial

end CamelliaRemote.Client
