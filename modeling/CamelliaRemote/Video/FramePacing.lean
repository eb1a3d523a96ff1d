import CamelliaRemote.Lib.Runs
import Mathlib.Data.Finset.Card
import Mathlib.Data.Finset.Lattice.Lemmas
import Mathlib.Logic.Function.Basic

/-!
Waiting for the viewers of a frame, `server/video_service.rs`. The threads of the video services
and the connections share two tables that have the index of a display as their key. `sent`,
`acked` and `meant` say for whom a frame and an acknowledgement are; the program does not have
them.
-/

namespace CamelliaRemote.Video.FramePacing

inductive VideoSource where
  | monitor
  | camera
  deriving DecidableEq

structure VideoId where
  source : VideoSource
  idx : Nat
  deriving DecidableEq

/-- What a notifier carries. -/
structure Ack where
  connId : Int
  meant : VideoSource
  deriving DecidableEq

/-- `notify_video_frame_fetched_by_conn_id` between its two locks. -/
structure Notice where
  connId : Int
  displays : Nat → Option VideoSource

/-- Where a service is in `run`. -/
inductive Phase where
  | absent
  | stopped
  /-- At the head of the loop. -/
  | top
  | ready
  /-- The frame is with the connections, and `set_send` is next. -/
  | framed (connIds : Finset Int)
  | paced
  | waiting (since : Nat)
  | receiving (since : Nat)
  /-- After the wait, before the entry of the display is removed. -/
  | leaving
  deriving DecidableEq

structure Service where
  phase : Phase := .absent
  sendConnIds : Finset Int := ∅
  fetchedConnIds : Finset Int := ∅
  /-- The connections of the frame that is waited for. -/
  sent : Finset Int := ∅
  /-- Those that have been acknowledged since that frame. -/
  acked : Finset Int := ∅

/-- The end of a wait; `early` if it is before the deadline. -/
structure Ended where
  service : VideoId
  early : Bool
  sent : Finset Int
  acked : Finset Int
  deriving DecidableEq

structure Pacing where
  frameFetchedNotifiers : Nat → Option (List Ack) := fun _ => none
  displayConnIds : Nat → Option (VideoSource × Finset Int) := fun _ => none
  services : VideoId → Service := fun _ => {}
  notifying : List Notice := []
  taken : List (VideoId × Ack) := []
  ended : List Ended := []

inductive Event where
  | new (v : VideoId)
  | start (v : VideoId)
  | stop (v : VideoId)
  | reset (v : VideoId)
  | frame (v : VideoId) (connIds : Finset Int)
  | setSend (v : VideoId)
  | begin (v : VideoId) (now : Nat)
  | check (v : VideoId) (now : Nat) (privacyModeChanged : Bool)
  | receive (v : VideoId)
  | leave (v : VideoId)
  | fetched (v : VideoId) (connId : Int)
  | fetchedByConnId (connId : Int)
  | deliver (notice : Nat)

namespace Pacing

variable (s : Pacing) (v : VideoId)

def update (service : Service) : Pacing :=
  { s with services := Function.update s.services v service }

def forget : Pacing :=
  { s with displayConnIds := Function.update s.displayConnIds v.idx none }

/-- `new`, whose caller has looked for the service. -/
def new : Pacing :=
  match (s.services v).phase with
  | .absent =>
    { s.update v { phase := .stopped } with
      frameFetchedNotifiers := Function.update s.frameFetchedNotifiers v.idx
        (some ((s.frameFetchedNotifiers v.idx).getD [])) }
  | _ => s

def start : Pacing :=
  match (s.services v).phase with
  | .stopped => s.update v { phase := .top }
  | _ => s

/-- `run` returns, with or without an error, and drops its `Raii`. -/
def stop : Pacing :=
  match (s.services v).phase with
  | .absent => s
  | _ => (s.forget v).update v { phase := .stopped }

/-- `reset`; the loop also comes to its head by `continue`. -/
def reset : Pacing :=
  match (s.services v).phase with
  | .top => s.update v { s.services v with phase := .ready, sendConnIds := ∅ }
  | .ready => s.update v { s.services v with phase := .ready, sendConnIds := ∅ }
  | _ => s

/-- `send_video_frame`. -/
def frame (connIds : Finset Int) : Pacing :=
  match (s.services v).phase with
  | .ready => s.update v { s.services v with phase := .framed connIds, sent := connIds, acked := ∅ }
  | _ => s

def setSend : Pacing :=
  match (s.services v).phase with
  | .framed connIds =>
    if connIds.Nonempty then
      { s.update v { s.services v with phase := .paced, sendConnIds := connIds } with
        displayConnIds := Function.update s.displayConnIds v.idx (some (v.source, connIds)) }
    else s.update v { s.services v with phase := .paced }
  | _ => s

/-- What is before the loop of the wait; there is not a frame each time. -/
def begin (now : Nat) : Pacing :=
  match (s.services v).phase with
  | .ready => s.update v { s.services v with phase := .waiting now, fetchedConnIds := ∅ }
  | .paced => s.update v { s.services v with phase := .waiting now, fetchedConnIds := ∅ }
  | _ => s

def timeoutMillis : Nat := 3000

def finish (early : Bool) (service : Service) : Pacing :=
  { s.update v { service with phase := .leaving } with
    ended := s.ended ++ [⟨v, early, service.sent, service.acked⟩] }

/-- The condition of the loop and `check_privacy_mode_changed`, which ends not the wait but
`run`. -/
def check (now : Nat) (privacyModeChanged : Bool) : Pacing :=
  match (s.services v).phase with
  | .waiting since =>
    if timeoutMillis ≤ now - since then s.finish v false (s.services v)
    else if v.source = .monitor ∧ privacyModeChanged then s.stop v
    else s.update v { s.services v with phase := .receiving since }
  | _ => s

/-- What `try_wait_next` finds in the notifier. -/
def received : List Ack :=
  if (s.services v).sendConnIds = ∅ then [] else (s.frameFetchedNotifiers v.idx).getD []

/-- `try_wait_next`, after which the notifier is empty, with or without a timeout. -/
def tryWaitNext : Pacing :=
  { s with
    frameFetchedNotifiers :=
      if (s.services v).sendConnIds = ∅ then s.frameFetchedNotifiers
      else Function.update s.frameFetchedNotifiers v.idx
        ((s.frameFetchedNotifiers v.idx).map fun _ => [])
    taken := s.taken ++ (s.received v).map fun ack => (v, ack) }

def fetchedNow : Finset Int :=
  (s.services v).fetchedConnIds ∪ ((s.received v).map Ack.connId).toFinset

def receive : Pacing :=
  match (s.services v).phase with
  | .receiving since =>
    let service := { s.services v with fetchedConnIds := s.fetchedNow v }
    if service.sendConnIds.card ≤ service.fetchedConnIds.card then
      (s.tryWaitNext v).finish v true service
    else (s.tryWaitNext v).update v { service with phase := .waiting since }
  | _ => s

/-- Nothing is waited for after it. -/
def leave : Pacing :=
  match (s.services v).phase with
  | .leaving => (s.forget v).update v { s.services v with phase := .top, sent := ∅, acked := ∅ }
  | _ => s

/-- An acknowledgement of the connection for the services that it is meant for. -/
def acknowledge (connId : Int) (displays : Nat → Option VideoSource) : Pacing :=
  { s with
    services := fun v =>
      if displays v.idx = some v.source then
        { s.services v with acked := Insert.insert connId (s.services v).acked }
      else s.services v }

/-- `send`, to the notifiers there are. -/
def put (connId : Int) (displays : Nat → Option VideoSource) : Pacing :=
  { s with
    frameFetchedNotifiers := fun idx =>
      match displays idx with
      | some meant => (s.frameFetchedNotifiers idx).map (· ++ [⟨connId, meant⟩])
      | none => s.frameFetchedNotifiers idx }

def only (idx : Nat) : Option VideoSource := if idx = v.idx then some v.source else none

def notifyVideoFrameFetched (connId : Int) : Pacing :=
  (s.acknowledge connId (only v)).put connId (only v)

/-- The displays whose last frame went to the connection, and the source that it came from. -/
def displaysOf (connId : Int) (idx : Nat) : Option VideoSource :=
  match s.displayConnIds idx with
  | some (source, connIds) => if connId ∈ connIds then some source else none
  | none => none

/-- The first half of `notify_video_frame_fetched_by_conn_id`. -/
def notifyByConnId (connId : Int) : Pacing :=
  { s.acknowledge connId (s.displaysOf connId) with
    notifying := s.notifying ++ [⟨connId, s.displaysOf connId⟩] }

/-- Its second half. -/
def deliver (i : Nat) : Pacing :=
  match s.notifying[i]? with
  | some notice =>
    { s.put notice.connId notice.displays with notifying := s.notifying.eraseIdx i }
  | none => s

def step : Event → Pacing
  | .new v => s.new v
  | .start v => s.start v
  | .stop v => s.stop v
  | .reset v => s.reset v
  | .frame v connIds => s.frame v connIds
  | .setSend v => s.setSend v
  | .begin v now => s.begin v now
  | .check v now privacyModeChanged => s.check v now privacyModeChanged
  | .receive v => s.receive v
  | .leave v => s.leave v
  | .fetched v connId => s.notifyVideoFrameFetched v connId
  | .fetchedByConnId connId => s.notifyByConnId connId
  | .deliver i => s.deliver i

end Pacing

def after (events : List Event) : Pacing := Runs.run Pacing.step {} events

/-- A wait that ends early has waited for every viewer, and every acknowledgement is taken
by the service that it is for. -/
structure Paced (s : Pacing) : Prop where
  waited : ∀ wait ∈ s.ended, wait.early → wait.sent ⊆ wait.acked
  own : ∀ took ∈ s.taken, took.2.meant = took.1.source

/-- A frame is sent to viewers when no acknowledgement is left at its index, nor on its way
there, and the service of the other source waits for none; and while a frame is waited for, what
is acknowledged at its index is that frame, by a connection it was sent to. -/
def Admitted (s : Pacing) : Event → Prop
  | .frame v connIds =>
    connIds.Nonempty →
      (s.frameFetchedNotifiers v.idx).getD [] = [] ∧
        (∀ notice ∈ s.notifying, notice.displays v.idx = none) ∧
        ∀ w : VideoId, w.idx = v.idx → w ≠ v → (s.services w).sent = ∅
  | .fetched v connId =>
    ∀ w : VideoId, w.idx = v.idx → (s.services w).sent.Nonempty →
      w = v ∧ connId ∈ (s.services w).sent
  | _ => True

/-- What each place of `run` knows of the frame that is waited for. -/
def Service.Sound (x : Service) : Prop :=
  match x.phase with
  | .ready => x.sent = ∅ ∧ x.sendConnIds = ∅
  | .framed connIds => x.sent = connIds ∧ x.sendConnIds = ∅
  | .paced => x.sent = x.sendConnIds
  | .waiting _ => x.sent = x.sendConnIds ∧ x.fetchedConnIds ⊆ x.sent ∩ x.acked
  | .receiving _ => x.sent = x.sendConnIds ∧ x.fetchedConnIds ⊆ x.sent ∩ x.acked
  | .leaving => True
  | _ => x.sent = ∅

/-- The acknowledgement is for the service's frame. -/
def Service.Awaits (x : Service) (source : VideoSource) (ack : Ack) : Prop :=
  ack.meant = source ∧ ack.connId ∈ x.sent ∩ x.acked

structure Sound (s : Pacing) : Prop where
  each : ∀ v, (s.services v).Sound
  one : ∀ v w : VideoId, v.idx = w.idx → (s.services v).sent.Nonempty →
    (s.services w).sent.Nonempty → v = w
  queued : ∀ v : VideoId, (s.services v).sent.Nonempty →
    ∀ ack ∈ (s.frameFetchedNotifiers v.idx).getD [], (s.services v).Awaits v.source ack
  noticed : ∀ v : VideoId, (s.services v).sent.Nonempty → ∀ notice ∈ s.notifying, ∀ source,
    notice.displays v.idx = some source → (s.services v).Awaits v.source ⟨notice.connId, source⟩
  recorded : ∀ idx source connIds, s.displayConnIds idx = some (source, connIds) →
    connIds.Nonempty ∧ (s.services ⟨source, idx⟩).sent = connIds
  paced : Paced s

variable {s t : Pacing} {v w : VideoId} {x : Service} {connId : Int}
  {displays : Nat → Option VideoSource}

theorem update_ne (other : w ≠ v) : (s.update v x).services w = s.services w :=
  Function.update_of_ne other _ _

theorem sound_init : Sound {} := by
  constructor
  · intro v
    rfl
  · rintro v w - ⟨_, mem⟩
    cases mem
  · rintro v ⟨_, mem⟩
    cases mem
  · rintro v ⟨_, mem⟩
    cases mem
  · intro idx source connIds found
    cases found
  · constructor <;> simp

/-- What is waited for is not new, nor is any acknowledgement. -/
theorem sound_less (sound : Sound s) (each : ∀ v, (t.services v).Sound)
    (less : ∀ v, (t.services v).sent.Nonempty → (t.services v).sent = (s.services v).sent ∧
      (s.services v).acked ⊆ (t.services v).acked)
    (queued : ∀ idx, ∀ ack ∈ (t.frameFetchedNotifiers idx).getD [],
      ack ∈ (s.frameFetchedNotifiers idx).getD [])
    (noticed : ∀ notice ∈ t.notifying, notice ∈ s.notifying)
    (recorded : ∀ idx source connIds, t.displayConnIds idx = some (source, connIds) →
      connIds.Nonempty ∧ (t.services ⟨source, idx⟩).sent = connIds) (paced : Paced t) :
    Sound t := by
  have awaits : ∀ {v source ack}, (t.services v).sent.Nonempty →
      (s.services v).Awaits source ack → (t.services v).Awaits source ack := by
    rintro v source ack waits ⟨meant, mem⟩
    obtain ⟨same, more⟩ := less v waits
    obtain ⟨sent, acked⟩ := Finset.mem_inter.mp mem
    exact ⟨meant, Finset.mem_inter.mpr ⟨same ▸ sent, more acked⟩⟩
  refine ⟨each, ?_, ?_, ?_, recorded, paced⟩
  · intro v w idx waits waits'
    exact sound.one v w idx ((less v waits).1 ▸ waits) ((less w waits').1 ▸ waits')
  · intro v waits ack mem
    exact awaits waits (sound.queued v ((less v waits).1 ▸ waits) ack (queued _ ack mem))
  · intro v waits notice mem source is
    exact awaits waits
      (sound.noticed v ((less v waits).1 ▸ waits) notice (noticed notice mem) source is)

theorem sound_forget (sound : Sound s) : Sound (s.forget v) := by
  refine sound_less sound sound.each (fun _ _ => ⟨rfl, Finset.Subset.refl _⟩)
    (fun _ _ mem => mem) (fun _ mem => mem) ?_ ⟨sound.paced.waited, sound.paced.own⟩
  intro idx source connIds found
  by_cases same : idx = v.idx
  · subst same
    simp [Pacing.forget] at found
  · refine sound.recorded idx source connIds ?_
    simpa [Pacing.forget, same] using found

theorem each_update (sound : Sound s) (fits : x.Sound) (w : VideoId) :
    ((s.update v x).services w).Sound := by
  by_cases eq : w = v
  · subst eq
    simpa [Pacing.update] using fits
  · simpa [Pacing.update, eq] using sound.each w

/-- A step of one service that leaves its frame as it is. -/
theorem sound_update (sound : Sound s) (fits : x.Sound) (sent : x.sent = (s.services v).sent)
    (acked : x.acked = (s.services v).acked) : Sound (s.update v x) := by
  have same : ∀ w, ((s.update v x).services w).sent = (s.services w).sent ∧
      ((s.update v x).services w).acked = (s.services w).acked := by
    intro w
    by_cases eq : w = v
    · subst eq
      simp [Pacing.update, sent, acked]
    · simp [Pacing.update, eq]
  refine sound_less sound (each_update sound fits)
    (fun w _ => ⟨(same w).1, (same w).2 ▸ Finset.Subset.refl _⟩)
    (fun _ _ mem => mem) (fun _ mem => mem) ?_ ⟨sound.paced.waited, sound.paced.own⟩
  intro idx source connIds found
  obtain ⟨some', is⟩ := sound.recorded idx source connIds found
  exact ⟨some', (same _).1.trans is⟩

/-- A service that waits for no frame, and has not recorded one. -/
theorem sound_idle (sound : Sound s) (fits : x.Sound) (sent : x.sent = ∅)
    (unrecorded : ∀ connIds, s.displayConnIds v.idx ≠ some (v.source, connIds)) :
    Sound (s.update v x) := by
  refine sound_less sound (each_update sound fits) ?_ (fun _ _ mem => mem) (fun _ mem => mem) ?_
    ⟨sound.paced.waited, sound.paced.own⟩
  · intro w waits
    by_cases eq : w = v
    · subst eq
      simp [Pacing.update, sent] at waits
    · simp [Pacing.update, eq]
  · intro idx source connIds found
    have other : (⟨source, idx⟩ : VideoId) ≠ v := by
      rintro rfl
      exact unrecorded connIds found
    simpa [Pacing.update, other] using sound.recorded idx source connIds found

theorem unrecorded_of_idle (sound : Sound s) (idle : (s.services v).sent = ∅)
    (connIds : Finset Int) : s.displayConnIds v.idx ≠ some (v.source, connIds) := by
  intro found
  obtain ⟨some', is⟩ := sound.recorded _ _ _ found
  rw [← is, idle] at some'
  exact Finset.not_nonempty_empty some'

theorem sound_ended (sound : Sound s) {early : Bool} {sent acked : Finset Int}
    (waited : early → sent ⊆ acked) :
    Sound { s with ended := s.ended ++ [⟨v, early, sent, acked⟩] } := by
  refine sound_less sound sound.each (fun _ _ => ⟨rfl, Finset.Subset.refl _⟩)
    (fun _ _ mem => mem) (fun _ mem => mem) sound.recorded ⟨?_, sound.paced.own⟩
  intro wait mem is
  obtain old | new := List.mem_append.mp mem
  · exact sound.paced.waited wait old is
  · obtain rfl := List.mem_singleton.mp new
    exact waited is

theorem sound_notifiers (sound : Sound s) {notifiers : Nat → Option (List Ack)}
    (queued : ∀ idx, ∀ ack ∈ (notifiers idx).getD [], ack ∈ (s.frameFetchedNotifiers idx).getD []) :
    Sound { s with frameFetchedNotifiers := notifiers } :=
  sound_less sound sound.each (fun _ _ => ⟨rfl, Finset.Subset.refl _⟩) queued (fun _ mem => mem)
    sound.recorded ⟨sound.paced.waited, sound.paced.own⟩

theorem sound_new (sound : Sound s) : Sound (s.new v) := by
  unfold Pacing.new
  split
  · rename_i absent
    have idle : (s.services v).sent = ∅ := by
      have fits := sound.each v
      rwa [Service.Sound, absent] at fits
    refine sound_notifiers (sound_idle (x := { phase := .stopped }) sound rfl rfl
      (unrecorded_of_idle sound idle)) fun idx ack mem => ?_
    by_cases same : idx = v.idx
    · subst same
      simpa [Pacing.update] using mem
    · simpa [Pacing.update, same] using mem
  · exact sound

theorem sound_start (sound : Sound s) : Sound (s.start v) := by
  unfold Pacing.start
  split
  · rename_i stopped
    have idle : (s.services v).sent = ∅ := by
      have fits := sound.each v
      rwa [Service.Sound, stopped] at fits
    exact sound_idle sound rfl rfl (unrecorded_of_idle sound idle)
  · exact sound

theorem forget_unrecorded (connIds : Finset Int) :
    (s.forget v).displayConnIds v.idx ≠ some (v.source, connIds) := by
  simp [Pacing.forget]

theorem sound_stop (sound : Sound s) : Sound (s.stop v) := by
  unfold Pacing.stop
  split
  · exact sound
  · exact sound_idle (sound_forget sound) rfl rfl forget_unrecorded

theorem sound_reset (sound : Sound s) : Sound (s.reset v) := by
  have fits := sound.each v
  unfold Pacing.reset
  split
  · rename_i top
    rw [Service.Sound, top] at fits
    exact sound_update sound ⟨fits, rfl⟩ rfl rfl
  · rename_i ready
    rw [Service.Sound, ready] at fits
    exact sound_update sound ⟨fits.1, rfl⟩ rfl rfl
  · exact sound

theorem sound_setSend (sound : Sound s) : Sound (s.setSend v) := by
  have fits := sound.each v
  unfold Pacing.setSend
  split
  · rename_i connIds framed
    rw [Service.Sound, framed] at fits
    split
    · rename_i viewers
      have updated := sound_update (x := { s.services v with
        phase := .paced, sendConnIds := connIds }) sound fits.1 rfl rfl
      refine sound_less updated updated.each (fun _ _ => ⟨rfl, Finset.Subset.refl _⟩)
        (fun _ _ mem => mem) (fun _ mem => mem) ?_ ⟨updated.paced.waited, updated.paced.own⟩
      intro idx source set found
      by_cases same : idx = v.idx
      · subst same
        obtain ⟨rfl, rfl⟩ : v.source = source ∧ connIds = set := by simpa using found
        exact ⟨viewers, by simp [Pacing.update, fits.1]⟩
      · refine updated.recorded idx source set ?_
        simpa [Pacing.update, same] using found
    · rename_i none'
      have empty : connIds = ∅ := Finset.not_nonempty_iff_eq_empty.mp none'
      refine sound_update sound ?_ rfl rfl
      exact fits.1.trans (empty.trans fits.2.symm)
  · exact sound

theorem sound_begin (sound : Sound s) {now : Nat} : Sound (s.begin v now) := by
  have fits := sound.each v
  unfold Pacing.begin
  split
  · rename_i ready
    rw [Service.Sound, ready] at fits
    exact sound_update sound ⟨fits.1.trans fits.2.symm, Finset.empty_subset _⟩ rfl rfl
  · rename_i paced
    rw [Service.Sound, paced] at fits
    exact sound_update sound ⟨fits, Finset.empty_subset _⟩ rfl rfl
  · exact sound

theorem sound_finish (sound : Sound s) {early : Bool} (sent : x.sent = (s.services v).sent)
    (acked : x.acked = (s.services v).acked) (waited : early → x.sent ⊆ x.acked) :
    Sound (s.finish v early x) :=
  sound_ended (sound_update (x := { x with phase := .leaving }) sound trivial sent acked) waited

theorem sound_check (sound : Sound s) {now : Nat} {privacyModeChanged : Bool} :
    Sound (s.check v now privacyModeChanged) := by
  have fits := sound.each v
  unfold Pacing.check
  split
  · rename_i since waiting
    rw [Service.Sound, waiting] at fits
    split
    · exact sound_finish sound rfl rfl (fun early => by cases early)
    split
    · exact sound_stop sound
    · exact sound_update sound fits rfl rfl
  · exact sound

theorem sound_leave (sound : Sound s) : Sound (s.leave v) := by
  unfold Pacing.leave
  split
  · exact sound_idle (sound_forget sound) rfl rfl forget_unrecorded
  · exact sound

/-- What a service takes is for the frame that it has sent. -/
theorem received_awaited (sound : Sound s) (sent : (s.services v).sent = (s.services v).sendConnIds)
    {ack : Ack} (mem : ack ∈ s.received v) : (s.services v).Awaits v.source ack := by
  unfold Pacing.received at mem
  split at mem
  · cases mem
  · rename_i viewers
    exact sound.queued v (sent ▸ Finset.nonempty_iff_ne_empty.mpr viewers) ack mem

theorem sound_tryWaitNext (sound : Sound s)
    (sent : (s.services v).sent = (s.services v).sendConnIds) : Sound (s.tryWaitNext v) := by
  refine sound_less sound sound.each (fun _ _ => ⟨rfl, Finset.Subset.refl _⟩) ?_
    (fun _ mem => mem) sound.recorded ⟨sound.paced.waited, ?_⟩
  · intro idx ack mem
    unfold Pacing.tryWaitNext at mem
    split at mem
    · exact mem
    · by_cases same : idx = v.idx
      · subst same
        cases found : s.frameFetchedNotifiers v.idx with
        | none => simp [found] at mem
        | some acks => simp [found] at mem
      · simpa [same] using mem
  · intro took mem
    obtain old | new := List.mem_append.mp mem
    · exact sound.paced.own took old
    · obtain ⟨ack, received, rfl⟩ := List.mem_map.mp new
      exact (received_awaited sound sent received).1

theorem fetchedNow_subset (sound : Sound s)
    (sent : (s.services v).sent = (s.services v).sendConnIds)
    (fetched : (s.services v).fetchedConnIds ⊆ (s.services v).sent ∩ (s.services v).acked) :
    s.fetchedNow v ⊆ (s.services v).sent ∩ (s.services v).acked := by
  refine Finset.union_subset fetched fun connId mem => ?_
  obtain ⟨ack, received, rfl⟩ := List.mem_map.mp (List.mem_toFinset.mp mem)
  exact (received_awaited sound sent received).2

/-- As many as there are viewers are all of them. -/
theorem sound_receive (sound : Sound s) : Sound (s.receive v) := by
  have fits := sound.each v
  unfold Pacing.receive
  split
  · rename_i since receiving
    rw [Service.Sound, receiving] at fits
    obtain ⟨sent, fetched⟩ := fits
    have taken := sound_tryWaitNext sound sent
    have subset := fetchedNow_subset sound sent fetched
    dsimp only
    split
    · rename_i many
      refine sound_finish taken rfl rfl fun _ => ?_
      have inSent := subset.trans Finset.inter_subset_left
      have all : s.fetchedNow v = (s.services v).sent :=
        Finset.eq_of_subset_of_card_le inSent (sent ▸ many)
      exact all ▸ subset.trans Finset.inter_subset_right
    · exact sound_update taken ⟨sent, subset⟩ rfl rfl
  · exact sound

theorem sound_frame (sound : Sound s) {connIds : Finset Int}
    (admitted : Admitted s (.frame v connIds)) : Sound (s.frame v connIds) := by
  have fits := sound.each v
  unfold Pacing.frame
  split
  · rename_i ready
    rw [Service.Sound, ready] at fits
    have unrecorded := unrecorded_of_idle sound fits.1
    rcases connIds.eq_empty_or_nonempty with rfl | viewers
    · exact sound_idle sound ⟨rfl, fits.2⟩ rfl unrecorded
    obtain ⟨left, coming, others⟩ := admitted viewers
    have other : ∀ w : VideoId, w.idx = v.idx → (s.services w).sent.Nonempty → w = v := by
      intro w idx waits
      by_contra differ
      rw [others w idx differ] at waits
      exact Finset.not_nonempty_empty waits
    constructor
    · intro w
      by_cases eq : w = v
      · subst eq
        simp [Pacing.update, Service.Sound, fits.2]
      · simpa [Pacing.update, eq] using sound.each w
    · intro w u idx waits waits'
      by_cases eq : w = v
      · by_cases eq' : u = v
        · exact eq.trans eq'.symm
        · subst eq
          exact (other u idx.symm (by simpa [Pacing.update, eq'] using waits')).symm
      · by_cases eq' : u = v
        · subst eq'
          exact other w idx (by simpa [Pacing.update, eq] using waits)
        · exact sound.one w u idx (by simpa [Pacing.update, eq] using waits)
            (by simpa [Pacing.update, eq'] using waits')
    · intro w waits ack mem
      by_cases eq : w = v
      · subst eq
        rw [Pacing.update, left] at mem
        cases mem
      · rw [update_ne eq] at waits ⊢
        exact sound.queued w waits ack mem
    · intro w waits notice mem source is
      by_cases eq : w = v
      · subst eq
        rw [coming notice mem] at is
        cases is
      · rw [update_ne eq] at waits ⊢
        exact sound.noticed w waits notice mem source is
    · intro idx source set found
      have differ : (⟨source, idx⟩ : VideoId) ≠ v := by
        rintro rfl
        exact unrecorded set found
      simpa [Pacing.update, differ] using sound.recorded idx source set found
    · exact ⟨sound.paced.waited, sound.paced.own⟩
  · exact sound

theorem Service.Sound.acknowledged (fits : x.Sound) :
    Service.Sound { x with acked := Insert.insert connId x.acked } := by
  have more : x.sent ∩ x.acked ⊆ x.sent ∩ Insert.insert connId x.acked :=
    Finset.inter_subset_inter_left (Finset.subset_insert connId x.acked)
  unfold Service.Sound at fits ⊢
  cases phase : x.phase with
  | waiting since =>
    rw [phase] at fits
    exact ⟨fits.1, fits.2.trans more⟩
  | receiving since =>
    rw [phase] at fits
    exact ⟨fits.1, fits.2.trans more⟩
  | _ => simp_all

theorem acknowledge_sent : ((s.acknowledge connId displays).services v).sent =
    (s.services v).sent := by
  unfold Pacing.acknowledge
  dsimp only
  split <;> rfl

theorem sound_acknowledge (sound : Sound s) : Sound (s.acknowledge connId displays) := by
  refine sound_less sound ?_ ?_ (fun _ _ mem => mem) (fun _ mem => mem) ?_
    ⟨sound.paced.waited, sound.paced.own⟩
  · intro v
    unfold Pacing.acknowledge
    dsimp only
    split
    · exact (sound.each v).acknowledged
    · exact sound.each v
  · intro v _
    refine ⟨acknowledge_sent, ?_⟩
    unfold Pacing.acknowledge
    dsimp only
    split
    · exact Finset.subset_insert _ _
    · exact Finset.Subset.refl _
  · intro idx source connIds found
    obtain ⟨viewers, is⟩ := sound.recorded idx source connIds found
    exact ⟨viewers, acknowledge_sent.trans is⟩

theorem acknowledge_awaits (mem : connId ∈ (s.services v).sent)
    (meant : displays v.idx = some v.source) :
    ((s.acknowledge connId displays).services v).Awaits v.source ⟨connId, v.source⟩ := by
  refine ⟨rfl, Finset.mem_inter.mpr ⟨acknowledge_sent.symm ▸ mem, ?_⟩⟩
  simp [Pacing.acknowledge, meant]

theorem sound_put (sound : Sound s)
    (awaited : ∀ v : VideoId, (s.services v).sent.Nonempty → ∀ source,
      displays v.idx = some source → (s.services v).Awaits v.source ⟨connId, source⟩) :
    Sound (s.put connId displays) := by
  refine ⟨sound.each, sound.one, ?_, sound.noticed, sound.recorded,
    sound.paced.waited, sound.paced.own⟩
  intro v waits ack mem
  unfold Pacing.put at mem
  dsimp only at mem
  split at mem
  · rename_i meant is
    cases found : s.frameFetchedNotifiers v.idx with
    | none => simp [found] at mem
    | some acks =>
      obtain old | new : ack ∈ acks ∨ ack = ⟨connId, meant⟩ := by simpa [found] using mem
      · exact sound.queued v waits ack (by simpa [found] using old)
      · exact new ▸ awaited v waits meant is
  · exact sound.queued v waits ack mem

theorem sound_notifyVideoFrameFetched (sound : Sound s)
    (admitted : Admitted s (.fetched v connId)) : Sound (s.notifyVideoFrameFetched v connId) := by
  refine sound_put (sound_acknowledge sound) fun w waits source is => ?_
  rw [acknowledge_sent] at waits
  unfold Pacing.only at is
  split at is
  · rename_i idx
    obtain ⟨rfl, mem⟩ := admitted w idx waits
    obtain rfl := Option.some.inj is
    exact acknowledge_awaits mem (if_pos rfl)
  · cases is

/-- The displays of a connection have a service that waits for it. -/
theorem displaysOf_awaits (sound : Sound s) (waits : (s.services v).sent.Nonempty)
    {source : VideoSource} (is : s.displaysOf connId v.idx = some source) :
    source = v.source ∧ connId ∈ (s.services v).sent := by
  unfold Pacing.displaysOf at is
  split at is
  · rename_i owner connIds found
    split at is
    · rename_i mem
      obtain rfl := Option.some.inj is
      obtain ⟨viewers, sent⟩ := sound.recorded _ _ _ found
      have same : v = ⟨owner, v.idx⟩ := sound.one v ⟨owner, v.idx⟩ rfl waits (sent ▸ viewers)
      rw [← same] at sent
      exact ⟨(congrArg VideoId.source same).symm, sent ▸ mem⟩
    · cases is
  · cases is

theorem sound_notifyByConnId (sound : Sound s) : Sound (s.notifyByConnId connId) := by
  have acknowledged : Sound (s.acknowledge connId (s.displaysOf connId)) :=
    sound_acknowledge sound
  refine ⟨acknowledged.each, acknowledged.one, acknowledged.queued, ?_, acknowledged.recorded,
    acknowledged.paced.waited, acknowledged.paced.own⟩
  intro v waits notice mem source is
  obtain old | new := List.mem_append.mp mem
  · exact acknowledged.noticed v waits notice old source is
  · obtain rfl := List.mem_singleton.mp new
    obtain ⟨rfl, mem⟩ := displaysOf_awaits sound (acknowledge_sent ▸ waits) is
    exact acknowledge_awaits mem is

theorem sound_deliver (sound : Sound s) {i : Nat} : Sound (s.deliver i) := by
  unfold Pacing.deliver
  split
  · rename_i notice found
    have put : Sound (s.put notice.connId notice.displays) :=
      sound_put sound fun v waits source is =>
        sound.noticed v waits notice (List.mem_of_getElem? found) source is
    exact sound_less put put.each (fun _ _ => ⟨rfl, Finset.Subset.refl _⟩) (fun _ _ mem => mem)
      (fun _ mem => List.mem_of_mem_eraseIdx mem) put.recorded
      ⟨put.paced.waited, put.paced.own⟩
  · exact sound

theorem sound_step (s : Pacing) (event : Event) (sound : Sound s) (admitted : Admitted s event) :
    Sound (s.step event) := by
  cases event with
  | new v => exact sound_new sound
  | start v => exact sound_start sound
  | stop v => exact sound_stop sound
  | reset v => exact sound_reset sound
  | frame v connIds => exact sound_frame sound admitted
  | setSend v => exact sound_setSend sound
  | begin v now => exact sound_begin sound
  | check v now privacyModeChanged => exact sound_check sound
  | receive v => exact sound_receive sound
  | leave v => exact sound_leave sound
  | fetched v connId => exact sound_notifyVideoFrameFetched sound admitted
  | fetchedByConnId connId => exact sound_notifyByConnId sound
  | deliver i => exact sound_deliver sound

/-- **The wait is for the viewers**, where each frame is sent with no acknowledgement left over
and no wait of the other source at its index, and nothing else is acknowledged there during
its wait: then a wait that ends early has waited for each viewer, and each acknowledgement is
taken by the service that it is for. -/
theorem frames_paced (events : List Event) (admitted : Runs.Along Pacing.step Admitted {} events) :
    Paced (after events) :=
  (Runs.invariant sound_step sound_init admitted).paced

def monitor : VideoId := ⟨.monitor, 0⟩

/-- A frame for two viewers, up to the wait. -/
def framedFor (connIds : Finset Int) (now : Nat) : List Event :=
  [.reset monitor, .frame monitor connIds, .setSend monitor, .begin monitor now,
    .check monitor now false]

theorem frames_paced_two :
    Paced (after ([Event.new monitor, .start monitor] ++ framedFor {1, 2} 0 ++
      [Event.fetched monitor 1, .fetchedByConnId 2, .deliver 0, .receive monitor])) := by
  refine frames_paced _ ⟨trivial, trivial, trivial, fun _ => ⟨rfl, ?_, ?_⟩, trivial, trivial,
    trivial, ?_, trivial, trivial, trivial, trivial⟩
  · exact fun notice mem => absurd mem (List.not_mem_nil)
  · rintro ⟨source, idx⟩ same other
    obtain rfl : idx = 0 := same
    cases source with
    | monitor => exact absurd rfl other
    | camera => rfl
  · rintro ⟨source, idx⟩ same waits
    obtain rfl : idx = 0 := same
    cases source with
    | monitor => exact ⟨rfl, by decide⟩
    | camera => exact absurd waits (by decide)

/-- The second viewer acknowledges its first frame after the deadline. -/
def late : List Event :=
  [Event.new monitor, .start monitor] ++ framedFor {1, 2} 0 ++
    [Event.fetched monitor 1, .receive monitor, .check monitor 3000 false, .leave monitor,
      .fetched monitor 2] ++ framedFor {1, 2} 3000 ++ [Event.fetched monitor 1, .receive monitor]

theorem late_not_paced : ¬ Paced (after late) := by
  intro paced
  have waited := paced.waited ⟨monitor, true, {1, 2}, {1}⟩ (by decide) rfl
  exact absurd waited (by decide)

end CamelliaRemote.Video.FramePacing
