import CamelliaRemote.Server.ReadJobView
import Mathlib.Data.List.Nodup

namespace CamelliaRemote.Server.ReadJobs
open Runs

variable {f : Format}

def Event.asksFor : Event → Option Int
  | .send r _ => some r.id
  | _ => none

def Event.cancels (id : Int) : Event → Bool
  | .cancel id' => id' = id
  | _ => false

/-- A job reads blocks of its own. -/
def Event.Own : Event → Prop
  | .tick answer => ∀ id block, (answer id).read = .ok (some block) → block.id = id
  | _ => True

/-- What is relied on: a directory that was written is read back, a job reads blocks of its
own, and the peer does not ask twice under one id. -/
structure Proper (f : Format) (es : List Event) : Prop where
  roundTrips : ∀ dir bytes, f.write dir = .ok bytes → f.parse bytes = .ok dir
  own : ∀ e ∈ es, e.Own
  distinct : (es.filterMap Event.asksFor).Nodup

def reportsOf (f : Format) (id : Int) (es : List Event) : List Report :=
  (collect (State.step f) (State.reported f) {} es).filter (·.id = id)

def sentOf (f : Format) (id : Int) (es : List Event) : List PeerMessage :=
  (collect (State.step f) (State.sent f) {} es).filter (·.id = id)

def askedOf (id : Int) : FS → Option Asked
  | .readFile _ id' _ _ _ => if id' = id then some .read else none
  | .cancelRead id' => if id' = id then some .cancel else none
  | _ => none

/-- The job `id` in a state, with its history. -/
def seen (id : Int) (s : State) (requested cancelled : Bool) (reported : List Report)
    (sent : List PeerMessage) : View where
  requested := requested
  cancelled := cancelled
  expected := id ∈ s.ids
  asked := s.toCm.filterMap (askedOf id)
  running := id ∈ s.jobs
  pending := s.fromCm.filter (·.id = id)
  reported := reported
  sent := sent

def viewOf (f : Format) (id : Int) (es : List Event) : View :=
  seen id (run (State.step f) {} es) (id ∈ es.filterMap Event.asksFor) (es.any (Event.cancels id))
    (reportsOf f id es) (sentOf f id es)

/-- The job after a step from `s`. -/
def View.after (f : Format) (id : Int) (v : View) (s : State) (e : Event) : View :=
  seen id (s.step f e) (v.requested || e.asksFor = some id) (v.cancelled || e.cancels id)
    (v.reported ++ (s.reported f e).filter (·.id = id)) (v.sent ++ (s.sent f e).filter (·.id = id))

theorem viewOf_snoc (id : Int) (es : List Event) (e : Event) :
    viewOf f id (es ++ [e]) = (viewOf f id es).after f id (run (State.step f) {} es) e := by
  have requested : decide (id ∈ (es ++ [e]).filterMap Event.asksFor) =
      (decide (id ∈ es.filterMap Event.asksFor) || decide (e.asksFor = some id)) := by
    cases is : e.asksFor <;> simp [List.filterMap_append, is, eq_comm]
  simp only [viewOf, View.after, seen, requested, run_append, run_cons, run_nil, List.any_append,
    List.any_cons, List.any_nil, Bool.or_false, reportsOf, sentOf, collect_append, collect,
    List.append_nil, List.filter_append]

theorem handleReport_eq (s : State) (r : Report) :
    s.handleReport f r =
      if r.id ∈ s.ids then
        ({ s with ids := if r.ends f then s.ids.filter (· ≠ r.id) else s.ids }, [forward f r])
      else (s, []) := by
  by_cases expected : r.id ∈ s.ids
  · rw [if_pos expected]
    cases r with
    | readJobInitResult id fileNum includeHidden result =>
      simp only [State.handleReport, State.handleReadJobInitResult,
        if_neg (not_not_intro (show id ∈ s.ids from expected))]
      cases result with
      | error e => rfl
      | ok bytes => cases parsed : f.parse bytes <;> simp [Report.ends, forward, parsed] <;> rfl
    | fileBlockFromCm => exact if_neg (not_not_intro expected)
    | fileReadDone => exact if_neg (not_not_intro expected)
    | fileReadError => exact if_neg (not_not_intro expected)
    | fileDigestFromCm => exact if_neg (not_not_intro expected)
  · rw [if_neg expected]
    cases r with
    | readJobInitResult => exact if_pos expected
    | fileBlockFromCm => exact if_pos expected
    | fileReadDone => exact if_pos expected
    | fileReadError => exact if_pos expected
    | fileDigestFromCm => exact if_pos expected

theorem id_forward (r : Report) : (forward f r).id = r.id := by
  cases r with
  | readJobInitResult id fileNum includeHidden result =>
    cases result with
    | error e => rfl
    | ok bytes => cases parsed : f.parse bytes <;> simp [forward, parsed, PeerMessage.id, Report.id]
  | fileBlockFromCm | fileReadDone | fileReadError | fileDigestFromCm => rfl

theorem startReadJob_spec
    (roundTrips : ∀ dir bytes, f.write dir = .ok bytes → f.parse bytes = .ok dir)
    (path : String) (fileNum : Int) (includeHidden : Bool) (id : Int) (result : NewRead) :
    (startReadJob f path fileNum includeHidden id result).2.id = id ∧
      Phase.next f .waiting (startReadJob f path fileNum includeHidden id result).2 =
        some (if (startReadJob f path fileNum includeHidden id result).1 then .opened
          else .ended) := by
  cases result with
  | failed e => exact ⟨rfl, rfl⟩
  | taskFailed e => exact ⟨rfl, rfl⟩
  | job files =>
    cases limited : checkFileCountLimit f files.length with
    | error msg => simp [startReadJob, limited, Report.id, Phase.next]
    | ok done =>
      cases written : f.write ⟨id, path, files⟩ with
      | error e => simp [startReadJob, limited, written, Report.id, Phase.next]
      | ok bytes =>
        simp [startReadJob, limited, written, Report.id, Phase.next, roundTrips _ _ written,
          Except.isOk, Except.toBool]

/-- What one job reports when it is read: nothing, a block, or its end. -/
theorem readReports_spec {id : Int} {a : JobAnswer}
    (own : ∀ block, a.read = .ok (some block) → block.id = id) :
    (∀ r ∈ (readReports id a).1, r.id = id) ∧
      phaseFrom f .opened (readReports id a).1 =
        some (if (readReports id a).2 then .ended else .opened) := by
  cases read : a.read with
  | error err => simp [readReports, read, Report.id, phaseFrom_singleton, Phase.next]
  | ok block? =>
    cases block? with
    | some block =>
      simp [readReports, read, Report.id, phaseFrom_singleton, Phase.next, own block read]
    | none =>
      cases completed : a.completed with
      | false => simp [readReports, read, completed, phaseFrom]
      | true =>
        cases failed : a.error <;>
          simp [readReports, read, completed, failed, Report.id, phaseFrom_singleton, Phase.next]

/-- What a round reports of one job, and whether the job is among the finished. -/
theorem tickReports_spec {answer : Int → JobAnswer}
    (own : ∀ id block, (answer id).read = .ok (some block) → block.id = id) (id : Int)
    {jobs : List Int} (once : jobs.Nodup) :
    phaseFrom f .opened ((tickReports answer jobs).1.filter (·.id = id)) =
        some (if id ∈ (tickReports answer jobs).2 then .ended else .opened) ∧
      ((∃ r ∈ (tickReports answer jobs).1, r.id = id) ∨ id ∈ (tickReports answer jobs).2 →
        id ∈ jobs) := by
  induction jobs with
  | nil => simp [tickReports, phaseFrom]
  | cons job jobs ih =>
    obtain ⟨fresh, once⟩ := List.nodup_cons.mp once
    obtain ⟨later, mine⟩ := ih once
    have own' := readReports_spec (f := f) (own job)
    cases last : (answer job).isLastJob with
    | true =>
      simp only [tickReports, last, if_true]
      exact ⟨later, fun h => List.mem_cons_of_mem _ (mine h)⟩
    | false =>
      cases init : (answer job).initDataStream with
      | error err =>
        simp only [tickReports, last, init, Bool.false_eq_true, if_false, List.mem_cons]
        by_cases same : id = job
        · subst same
          have silent : (tickReports answer jobs).1.filter (·.id = id) = [] := by
            refine List.filter_eq_nil_iff.mpr fun r mem is => fresh (mine (.inl ⟨r, mem, ?_⟩))
            exact of_decide_eq_true is
          refine ⟨?_, fun _ => .inl rfl⟩
          rw [List.filter_cons_of_pos (by simp [Report.id]), silent, phaseFrom_singleton]
          simp [Phase.next]
        · refine ⟨?_, ?_⟩
          · rw [List.filter_cons_of_neg (by simp [Report.id, Ne.symm same])]
            simpa [same] using later
          · simpa [Report.id, Ne.symm same, same] using mine
      | ok digest =>
        simp only [tickReports, last, init, Bool.false_eq_true, if_false, List.mem_append]
        obtain ⟨all, accepted⟩ := own'
        have mineAsked (r : Report) (mem : r ∈ digest.toList.map fun d =>
            Report.fileDigestFromCm job (answer job).fileNum d.1 d.2 (answer job).isResume) :
            r.id = job := by
          obtain ⟨d, -, rfl⟩ := List.mem_map.mp mem
          rfl
        by_cases same : id = job
        · subst same
          refine ⟨?_, fun _ => List.mem_cons_self⟩
          rw [List.filter_append, List.filter_eq_self.mpr (by simpa using mineAsked),
            List.filter_eq_self.mpr (by simpa using all), phaseFrom_append]
          have asked : phaseFrom f .opened (digest.toList.map fun d =>
              Report.fileDigestFromCm id (answer id).fileNum d.1 d.2 (answer id).isResume) =
              some .opened := by
            cases digest <;> rfl
          rw [asked, Option.bind_some, accepted]
          cases exhausted : (readReports id (answer id)).2 <;> simp
        · have theirs (r : Report) (is : r.id = job) : r.id ≠ id := fun is' =>
            same (is'.symm.trans is)
          refine ⟨?_, ?_⟩
          · rw [List.filter_append,
              List.filter_eq_nil_iff.mpr (fun r mem => by simpa using theirs r (mineAsked r mem)),
              List.filter_eq_nil_iff.mpr (fun r mem => by simpa using theirs r (all r mem))]
            cases exhausted : (readReports job (answer job)).2 <;> simp [same, phaseFrom]
          · rintro (⟨r, mem | mem, is⟩ | mem)
            · exact absurd is (theirs r (mineAsked r mem))
            · exact absurd is (theirs r (all r mem))
            · cases exhausted : (readReports job (answer job)).2 <;> simp [exhausted, same] at mem

theorem mem_finished {jobs : List Int} (once : jobs.Nodup) (finished : List Int) (id : Int) :
    id ∈ finished.foldl List.erase jobs ↔ id ∈ jobs ∧ id ∉ finished := by
  rw [← List.diff_eq_foldl]
  exact once.mem_sdiff_iff

section Steps

variable {id : Int} {s : State} {requested cancelled : Bool} {reported : List Report}
  {sent : List PeerMessage}

theorem move_send (r : SendRequest) (od : Bool) (fresh : r.id = id → requested = false) :
    Move f (seen id s requested cancelled reported sent)
      ((seen id s requested cancelled reported sent).after f id s (.send r od)) := by
  by_cases same : r.id = id
  · have after : (seen id s requested cancelled reported sent).after f id s (.send r od) =
        { seen id s requested cancelled reported sent with
          requested := true
          expected := true
          asked := (seen id s requested cancelled reported sent).asked ++ [Asked.read] } := by
      simp [View.after, seen, State.step, State.handle, State.reported, State.sent, State.onSend,
        Event.asksFor, Event.cancels, same, askedOf]
    rw [after]
    exact .request (fresh same)
  · have after : (seen id s requested cancelled reported sent).after f id s (.send r od) =
        seen id s requested cancelled reported sent := by
      simp [View.after, seen, State.step, State.handle, State.reported, State.sent, State.onSend,
        Event.asksFor, Event.cancels, same, Ne.symm same, askedOf]
      rfl
    rw [after]
    exact .still

theorem move_cancel (id' : Int) :
    Move f (seen id s requested cancelled reported sent)
      ((seen id s requested cancelled reported sent).after f id s (.cancel id')) := by
  by_cases same : id' = id
  · have after : (seen id s requested cancelled reported sent).after f id s (.cancel id') =
        { seen id s requested cancelled reported sent with
          cancelled := true
          expected := false
          asked := (seen id s requested cancelled reported sent).asked ++ [Asked.cancel] } := by
      simp [View.after, seen, State.step, State.handle, State.reported, State.sent,
        State.onCancel, Event.asksFor, Event.cancels, same, askedOf, List.filterMap_cons]
    rw [after]
    exact .cancel
  · have after : (seen id s requested cancelled reported sent).after f id s (.cancel id') =
        seen id s requested cancelled reported sent := by
      simp [View.after, seen, State.step, State.handle, State.reported, State.sent,
        State.onCancel, Event.asksFor, Event.cancels, same, Ne.symm same, askedOf]
    rw [after]
    exact .still

theorem move_sendConfirm (r : SendConfirm) :
    Move f (seen id s requested cancelled reported sent)
      ((seen id s requested cancelled reported sent).after f id s (.sendConfirm r)) := by
  have after : (seen id s requested cancelled reported sent).after f id s (.sendConfirm r) =
      seen id s requested cancelled reported sent := by
    by_cases expected : r.id ∈ s.ids <;>
      simp [View.after, seen, State.step, State.handle, State.reported, State.sent,
        State.onSendConfirm, Event.asksFor, Event.cancels, expected, askedOf]
  rw [after]
  exact .still

theorem move_handleFs (result : NewRead)
    (roundTrips : ∀ dir bytes, f.write dir = .ok bytes → f.parse bytes = .ok dir)
    (once : s.jobs.Nodup) :
    Move f (seen id s requested cancelled reported sent)
      ((seen id s requested cancelled reported sent).after f id s (.handleFs result)) := by
  cases queue : s.toCm with
  | nil =>
    have after : (seen id s requested cancelled reported sent).after f id s (.handleFs result) =
        seen id s requested cancelled reported sent := by
      simp [View.after, seen, State.step, State.handle, State.reported, State.sent,
        State.handleFs, Event.asksFor, Event.cancels, queue]
    rw [after]
    exact .still
  | cons fs toCm =>
    have others (unasked : askedOf id fs = none)
        (idle : State.handleFs f s result = ({ s with toCm }, [])) :
        Move f (seen id s requested cancelled reported sent)
          ((seen id s requested cancelled reported sent).after f id s (.handleFs result)) := by
      have after : (seen id s requested cancelled reported sent).after f id s (.handleFs result) =
          seen id s requested cancelled reported sent := by
        simp [View.after, seen, State.step, State.handle, State.reported, State.sent, idle,
          Event.asksFor, Event.cancels, queue, unasked]
      rw [after]
      exact .still
    cases fs with
    | readFile path id' fileNum includeHidden od =>
      obtain ⟨mine, next⟩ := startReadJob_spec roundTrips path fileNum includeHidden id' result
      have idle : State.handleFs f s result = ({ s with
          toCm
          jobs := if (startReadJob f path fileNum includeHidden id' result).1 then s.jobs ++ [id']
            else s.jobs
          fromCm := s.fromCm ++ [(startReadJob f path fileNum includeHidden id' result).2] },
          [(startReadJob f path fileNum includeHidden id' result).2]) := by
        simp [State.handleFs, queue]
      generalize startReadJob f path fileNum includeHidden id' result = started at mine next idle
      obtain ⟨added, r⟩ := started
      by_cases same : id' = id
      · subst same
        have after :
            (seen id' s requested cancelled reported sent).after f id' s (.handleFs result) =
              { seen id' s requested cancelled reported sent with
                asked := toCm.filterMap (askedOf id')
                running := (seen id' s requested cancelled reported sent).running || added
                pending := (seen id' s requested cancelled reported sent).pending ++ [r]
                reported := (seen id' s requested cancelled reported sent).reported ++ [r] } := by
          cases added <;>
            simp [View.after, seen, State.step, State.handle, State.reported, State.sent,
              idle, Event.asksFor, Event.cancels, mine]
        rw [after]
        refine .start _ ?_ _ _ next
        simp [seen, queue, askedOf]
      · have after : (seen id s requested cancelled reported sent).after f id s (.handleFs result) =
            seen id s requested cancelled reported sent := by
          have theirs : r.id ≠ id := fun is => same (mine.symm.trans is)
          cases added <;>
            simp [View.after, seen, State.step, State.handle, State.reported, State.sent, idle,
              Event.asksFor, Event.cancels, queue, theirs, askedOf, same, Ne.symm same]
        rw [after]
        exact .still
    | cancelRead id' =>
      by_cases same : id' = id
      · have after :
            (seen id s requested cancelled reported sent).after f id s (.handleFs result) =
              { seen id s requested cancelled reported sent with
                asked := toCm.filterMap (askedOf id)
                running := false } := by
          have gone : id ∉ s.jobs.erase id := once.not_mem_erase
          simp [View.after, seen, State.step, State.handle, State.reported, State.sent,
            State.handleFs, Event.asksFor, Event.cancels, queue, same, gone]
        rw [after]
        refine .remove _ ?_
        simp [seen, queue, askedOf, same]
      · have after : (seen id s requested cancelled reported sent).after f id s (.handleFs result) =
            seen id s requested cancelled reported sent := by
          simp [View.after, seen, State.step, State.handle, State.reported, State.sent,
            State.handleFs, Event.asksFor, Event.cancels, queue, askedOf, same,
            List.mem_erase_of_ne (Ne.symm same)]
        rw [after]
        exact .still
    | _ => exact others rfl (by simp [State.handleFs, queue])

theorem move_tick (answer : Int → JobAnswer)
    (own : ∀ id block, (answer id).read = .ok (some block) → block.id = id) (once : s.jobs.Nodup) :
    Move f (seen id s requested cancelled reported sent)
      ((seen id s requested cancelled reported sent).after f id s (.tick answer)) := by
  obtain ⟨accepted, mine⟩ := tickReports_spec (f := f) own id once
  have kept := mem_finished once (tickReports answer s.jobs).2 id
  by_cases running : id ∈ s.jobs
  · have after : (seen id s requested cancelled reported sent).after f id s (.tick answer) =
        { seen id s requested cancelled reported sent with
          running := id ∉ (tickReports answer s.jobs).2
          pending := (seen id s requested cancelled reported sent).pending ++
            (tickReports answer s.jobs).1.filter (·.id = id)
          reported := (seen id s requested cancelled reported sent).reported ++
            (tickReports answer s.jobs).1.filter (·.id = id) } := by
      simp [View.after, seen, State.step, State.handle, State.reported, State.sent, State.tick,
        Event.asksFor, Event.cancels, kept, running]
      rfl
    rw [after]
    refine .work (by simpa [seen] using running) _ _ ?_
    by_cases exhausted : id ∈ (tickReports answer s.jobs).2 <;> simpa [exhausted] using accepted
  · have silent : (tickReports answer s.jobs).1.filter (·.id = id) = [] :=
      List.filter_eq_nil_iff.mpr fun r mem is =>
        running (mine (.inl ⟨r, mem, of_decide_eq_true is⟩))
    have after : (seen id s requested cancelled reported sent).after f id s (.tick answer) =
        seen id s requested cancelled reported sent := by
      simp [View.after, seen, State.step, State.handle, State.reported, State.sent, State.tick,
        Event.asksFor, Event.cancels, kept, running, silent]
      rfl
    rw [after]
    exact .still

theorem move_report :
    Move f (seen id s requested cancelled reported sent)
      ((seen id s requested cancelled reported sent).after f id s .report) := by
  cases queue : s.fromCm with
  | nil =>
    have after : (seen id s requested cancelled reported sent).after f id s .report =
        seen id s requested cancelled reported sent := by
      simp [View.after, seen, State.step, State.handle, State.reported, State.sent,
        Event.asksFor, Event.cancels, queue]
    rw [after]
    exact .still
  | cons r fromCm =>
    have handled : s.handle f .report =
        ((State.handleReport f { s with fromCm } r).1, [],
          (State.handleReport f { s with fromCm } r).2) := by
      simp [State.handle, queue]
    rw [handleReport_eq] at handled
    by_cases same : r.id = id
    · have after : (seen id s requested cancelled reported sent).after f id s .report =
          { seen id s requested cancelled reported sent with
            pending := fromCm.filter (·.id = id)
            expected := (seen id s requested cancelled reported sent).expected && !r.ends f
            sent := (seen id s requested cancelled reported sent).sent ++
              if (seen id s requested cancelled reported sent).expected then [forward f r]
              else [] } := by
        by_cases expected : id ∈ s.ids <;> cases ends : r.ends f <;>
          simp [View.after, seen, State.step, State.reported, State.sent, handled, same, expected,
            ends, Event.asksFor, Event.cancels, id_forward]
      rw [after]
      refine .deliver r _ ?_
      simp [seen, queue, same]
    · have after : (seen id s requested cancelled reported sent).after f id s .report =
          seen id s requested cancelled reported sent := by
        by_cases expected : r.id ∈ s.ids <;> cases ends : r.ends f <;>
          simp [View.after, seen, State.step, State.reported, State.sent, handled, same, expected,
            ends, Event.asksFor, Event.cancels, id_forward, queue, Ne.symm same]
      rw [after]
      exact .still

end Steps

/-- **What one step of the two processes does to a job.** -/
theorem move_step {es : List Event} {e : Event} (proper : Proper f (es ++ [e]))
    (once : (run (State.step f) {} es).jobs.Nodup) (id : Int) :
    Move f (viewOf f id es) (viewOf f id (es ++ [e])) := by
  rw [viewOf_snoc, viewOf]
  cases e with
  | send r od =>
    refine move_send r od fun same => ?_
    have distinct := proper.distinct
    rw [List.filterMap_append, List.nodup_append'] at distinct
    subst same
    have asked : r.id ∈ [Event.send r od].filterMap Event.asksFor := by simp [Event.asksFor]
    exact decide_eq_false fun before => distinct.2.2 before asked
  | cancel id' => exact move_cancel id'
  | sendConfirm r => exact move_sendConfirm r
  | handleFs result => exact move_handleFs result proper.roundTrips once
  | tick answer => exact move_tick answer (proper.own (.tick answer) (by simp)) once
  | report => exact move_report

theorem Proper.before {es fs : List Event} (proper : Proper f (es ++ fs)) : Proper f es where
  roundTrips := proper.roundTrips
  own := fun e mem => proper.own e (List.mem_append_left fs mem)
  distinct := by
    have distinct := proper.distinct
    rw [List.filterMap_append] at distinct
    exact distinct.of_append_left

/-- The connection manager has no job twice. -/
theorem jobs_step {s : State} (once : s.jobs.Nodup)
    (waits : ∀ id, (s.toCm.filterMap (askedOf id)).head? = some .read → id ∉ s.jobs) (e : Event) :
    (s.step f e).jobs.Nodup := by
  cases e with
  | send | cancel | sendConfirm => exact once
  | handleFs result =>
    cases queue : s.toCm with
    | nil => simpa [State.step, State.handle, State.handleFs, queue] using once
    | cons fs toCm =>
      cases fs with
      | readFile path id fileNum includeHidden od =>
        have fresh : id ∉ s.jobs := waits id (by simp [queue, askedOf])
        have added : (s.jobs ++ [id]).Nodup := by simpa using once.concat fresh
        cases started : (startReadJob f path fileNum includeHidden id result).1 with
        | false => simpa [State.step, State.handle, State.handleFs, queue, started] using once
        | true => simpa [State.step, State.handle, State.handleFs, queue, started] using added
      | cancelRead id =>
        simpa [State.step, State.handle, State.handleFs, queue] using once.erase id
      | _ => simpa [State.step, State.handle, State.handleFs, queue] using once
  | tick answer =>
    simp only [State.step, State.handle, State.tick, ← List.diff_eq_foldl]
    exact once.diff
  | report =>
    cases queue : s.fromCm with
    | nil => simpa [State.step, State.handle, queue] using once
    | cons r fromCm =>
      by_cases expected : r.id ∈ s.ids <;>
        simpa [State.step, State.handle, queue, handleReport_eq, expected] using once

/-- **The invariant of every run.** -/
theorem run_sound {es : List Event} (proper : Proper f es) :
    (run (State.step f) {} es).jobs.Nodup ∧ ∀ id, (viewOf f id es).Sound f := by
  induction es using List.reverseRecOn with
  | nil => exact ⟨List.nodup_nil, fun id => View.sound_new⟩
  | append_singleton es e ih =>
    obtain ⟨once, sound⟩ := ih proper.before
    refine ⟨?_, fun id => (sound id).move (move_step proper once id)⟩
    rw [run_append, run_cons, run_nil]
    refine jobs_step once (fun id first => ?_) e
    obtain ⟨phase, -, waits, -⟩ := (sound id).phase
    have asked : Asked.read ∈ (viewOf f id es).asked := List.mem_of_head? first
    simpa [viewOf, seen] using (waits asked).2

/-- **What the peer gets of a job**: what was reported of it, message by message and in the
order of the reports. -/
structure Forwarded (f : Format) (es : List Event) (id : Int) : Prop where
  /-- The files, then digests and blocks, then one end. -/
  oneLife : (phaseFrom f .waiting (reportsOf f id es)).isSome
  inOrder : sentOf f id es <+: (reportsOf f id es).map (forward f)
  complete : id ∈ es.filterMap Event.asksFor → es.any (Event.cancels id) = false →
    id ∉ (run (State.step f) {} es).ids → sentOf f id es = (reportsOf f id es).map (forward f)

theorem forwarded_of_proper {es : List Event} (proper : Proper f es) (id : Int) :
    Forwarded f es id := by
  have sound := (run_sound proper).2 id
  refine ⟨?_, sound.inOrder, ?_⟩
  · obtain ⟨phase, accepted, -⟩ := sound.phase
    exact Option.isSome_iff_exists.mpr ⟨phase, accepted⟩
  · intro asked uncancelled unexpected
    rcases sound.complete (decide_eq_true asked) uncancelled with expected | ⟨-, all⟩
    · exact absurd (of_decide_eq_true expected) unexpected
    · exact all

theorem Move.stays_silent {v v' : View} (move : Move f v v') (requested : v.requested = true)
    (unexpected : v.expected = false) :
    v'.requested = true ∧ v'.expected = false ∧ v'.sent = v.sent := by
  cases move with
  | request fresh => exact absurd (requested.symm.trans fresh) (by simp)
  | cancel => exact ⟨requested, rfl, rfl⟩
  | deliver r rest first => exact ⟨requested, by simp [unexpected], by simp [unexpected]⟩
  | _ => exact ⟨requested, unexpected, rfl⟩

theorem silent_run {id : Int} {before after : List Event} (proper : Proper f (before ++ after))
    (requested : (viewOf f id before).requested = true)
    (unexpected : (viewOf f id before).expected = false) :
    (viewOf f id (before ++ after)).requested = true ∧
      (viewOf f id (before ++ after)).expected = false ∧
      (viewOf f id (before ++ after)).sent = (viewOf f id before).sent := by
  induction after using List.reverseRecOn with
  | nil => simpa using ⟨requested, unexpected⟩
  | append_singleton after e ih =>
    rw [← List.append_assoc] at proper ⊢
    obtain ⟨requested, unexpected, same⟩ := ih proper.before
    have move := move_step proper (run_sound proper.before).1 id
    obtain ⟨requested, unexpected, sent⟩ := move.stays_silent requested unexpected
    exact ⟨requested, unexpected, sent.trans same⟩

/-- **The peer gets of a read job what the connection manager reports of it**, in every order
in which the two processes take their turns: the messages are those of the first reports, of
all of them once nothing more is expected and the job was not cancelled, and of none from the
moment the peer cancels what it has asked for. -/
theorem read_job_forwarded {es : List Event} (proper : Proper f es) (id : Int) :
    Forwarded f es id ∧ ∀ before after, es = before ++ .cancel id :: after →
      id ∈ before.filterMap Event.asksFor → sentOf f id es = sentOf f id before := by
  refine ⟨forwarded_of_proper proper id, ?_⟩
  rintro before after rfl asked
  have snoc : before ++ .cancel id :: after = before ++ [Event.cancel id] ++ after := by simp
  rw [snoc] at proper ⊢
  have cancelled : viewOf f id (before ++ [Event.cancel id]) =
      (viewOf f id before).after f id (run (State.step f) {} before) (.cancel id) :=
    viewOf_snoc id before (.cancel id)
  have requested : (viewOf f id (before ++ [Event.cancel id])).requested = true := by
    rw [cancelled]
    simp [View.after, seen, viewOf, asked]
  have unexpected : (viewOf f id (before ++ [Event.cancel id])).expected = false := by
    rw [cancelled]
    simp [View.after, seen, State.step, State.handle, State.onCancel]
  obtain ⟨-, -, same⟩ := silent_run proper requested unexpected
  have before : (viewOf f id (before ++ [Event.cancel id])).sent = (viewOf f id before).sent := by
    rw [cancelled]
    simp [View.after, seen, viewOf, State.sent, State.handle]
  exact same.trans before

/-- One file of three bytes, as it is written. -/
def sampleDirectory : FileDirectory := ⟨7, "d", [("a", 3)]⟩

def sampleFormat : Format where
  write dir :=
    if dir = sampleDirectory then
      .ok [0x08, 7, 0x12, 1, 0x64, 0x1a, 7, 0x08, 4, 0x12, 1, 0x61, 0x20, 3]
    else .error "not the sample"
  parse bytes :=
    if bytes = [0x08, 7, 0x12, 1, 0x64, 0x1a, 7, 0x08, 4, 0x12, 1, 0x61, 0x20, 3] then
      .ok sampleDirectory
    else .error "not the sample"
  maxValidatedFiles := 10000

def sampleBlock (id : Int) : JobAnswer := { read := .ok (some ⟨id, 0, [1, 2, 3], false⟩) }

def sampleEnd : JobAnswer := { fileNum := 1, completed := true }

def sampleRun : List Event :=
  [.send { id := 7, path := "d" } false, .handleFs (.job [("a", 3)]), .tick sampleBlock, .report,
    .report, .tick fun _ => sampleEnd]

theorem sampleRun_proper : Proper sampleFormat (sampleRun ++ [Event.report]) where
  roundTrips := by
    intro dir bytes written
    simp only [sampleFormat] at written
    split at written
    · rename_i is
      cases written
      simp [sampleFormat, is]
    · cases written
  own := by
    intro e mem
    cases e with
    | tick answer =>
      simp only [sampleRun, List.cons_append, List.nil_append, List.mem_cons, reduceCtorEq,
        List.not_mem_nil, false_or, or_false, Event.tick.injEq] at mem
      intro id block read
      rcases mem with rfl | rfl
      · cases read
        rfl
      · cases read
    | _ => trivial
  distinct := by decide +kernel

theorem read_job_forwarded_sample :
    Forwarded sampleFormat (sampleRun ++ [Event.report]) 7 ∧
      sentOf sampleFormat 7 (sampleRun ++ [Event.report]) =
        [.dir 7 "d" [("a", 3)], .block 7 0 [1, 2, 3] false, .done 7 1] :=
  ⟨(read_job_forwarded sampleRun_proper 7).1, by decide +kernel⟩

theorem View.Sound.end_pending {v : View} (sound : v.Sound f)
    (exhausted : phaseFrom f .waiting v.reported = some .ended) (left : v.pending ≠ []) :
    ∃ r ∈ v.pending, r.ends f = true := by
  obtain ⟨handled, split, -⟩ := sound.handled
  rcases List.eq_nil_or_concat v.pending with none | ⟨init, r, is⟩
  · exact absurd none left
  · rw [List.concat_eq_append] at is
    rw [split, is, ← List.append_assoc] at exhausted
    exact ⟨r, by simp [is], (ends_first exhausted).mpr ⟨rfl, rfl⟩⟩

/-- **The two sides agree on the jobs**: a job that the connection expects is asked for, being
read, or its end is on the way; one that is being read is expected, or its removal is on the
way; and when nothing is on the way they have the same jobs. -/
theorem read_jobs_agree {es : List Event} (proper : Proper f es) (id : Int) :
    let s := run (State.step f) {} es
    (id ∈ s.ids →
      (∃ path fileNum includeHidden od, .readFile path id fileNum includeHidden od ∈ s.toCm) ∨
        id ∈ s.jobs ∨ ∃ r ∈ s.fromCm, r.id = id ∧ r.ends f = true) ∧
    (id ∈ s.jobs → id ∈ s.ids ∨ .cancelRead id ∈ s.toCm) ∧
    (s.toCm = [] → s.fromCm = [] → (id ∈ s.ids ↔ id ∈ s.jobs)) := by
  intro s
  have sound := (run_sound proper).2 id
  have expected : id ∈ s.ids →
      (∃ path fileNum includeHidden od, .readFile path id fileNum includeHidden od ∈ s.toCm) ∨
        id ∈ s.jobs ∨ ∃ r ∈ s.fromCm, r.id = id ∧ r.ends f = true := by
    intro expected
    obtain ⟨phase, accepted, -, -, account⟩ := sound.phase
    rcases account (decide_eq_true expected) with asked | running | ⟨rfl, left⟩
    · left
      obtain ⟨fs, mem, is⟩ := List.mem_filterMap.mp asked
      cases fs with
      | readFile path id' fileNum includeHidden od =>
        simp only [askedOf, Option.ite_none_right_eq_some] at is
        exact ⟨path, fileNum, includeHidden, od, is.1 ▸ mem⟩
      | _ => simp [askedOf] at is
    · exact .inr (.inl (of_decide_eq_true running))
    · obtain ⟨r, mem, ends⟩ := sound.end_pending accepted left
      obtain ⟨mem, is⟩ := List.mem_filter.mp mem
      exact .inr (.inr ⟨r, mem, of_decide_eq_true is, ends⟩)
  have running : id ∈ s.jobs → id ∈ s.ids ∨ .cancelRead id ∈ s.toCm := by
    intro running
    by_cases mem : id ∈ s.ids
    · exact .inl mem
    · have cancel : Asked.cancel ∈ (viewOf f id es).asked := by
        by_contra none
        exact mem (of_decide_eq_true ((sound.kept (decide_eq_true running)).mpr none))
      obtain ⟨fs, mem, is⟩ := List.mem_filterMap.mp cancel
      cases fs with
      | cancelRead id' =>
        simp only [askedOf, Option.ite_none_right_eq_some] at is
        exact .inr (is.1 ▸ mem)
      | _ => simp [askedOf] at is
  refine ⟨expected, running, fun noRequest noReport => ⟨fun mem => ?_, fun mem => ?_⟩⟩
  · simpa [noRequest, noReport] using expected mem
  · simpa [noRequest] using running mem

theorem read_jobs_agree_sample :
    7 ∈ (run (State.step sampleFormat) {} sampleRun).ids ∧
      7 ∉ (run (State.step sampleFormat) {} sampleRun).jobs ∧
      ∃ r ∈ (run (State.step sampleFormat) {} sampleRun).fromCm,
        r.id = 7 ∧ r.ends sampleFormat = true := by
  have expected : 7 ∈ (run (State.step sampleFormat) {} sampleRun).ids := by decide +kernel
  have exhausted : 7 ∉ (run (State.step sampleFormat) {} sampleRun).jobs := by decide +kernel
  have asked : (run (State.step sampleFormat) {} sampleRun).toCm = [] := rfl
  refine ⟨expected, exhausted, ?_⟩
  simpa [asked, exhausted] using (read_jobs_agree sampleRun_proper.before 7).1 expected

end CamelliaRemote.Server.ReadJobs
