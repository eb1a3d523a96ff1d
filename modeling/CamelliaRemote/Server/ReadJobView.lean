import CamelliaRemote.Server.ReadJobs
import Mathlib.Data.List.Basic

namespace CamelliaRemote.Server.ReadJobs
open Runs

inductive Phase where
  | waiting
  | opened
  | ended
  deriving DecidableEq, Repr

/-- What may be reported next: the files or why there are none, then digests and blocks, then
the end or an error, and nothing after it. -/
def Phase.next (f : Format) : Phase → Report → Option Phase
  | .waiting, .readJobInitResult _ _ _ (.error _) => some .ended
  | .waiting, .readJobInitResult _ _ _ (.ok bytes) =>
    if (f.parse bytes).isOk then some .opened else none
  | .opened, .fileBlockFromCm _ _ _ _ | .opened, .fileDigestFromCm _ _ _ _ _ => some .opened
  | .opened, .fileReadDone _ _ | .opened, .fileReadError _ _ _ => some .ended
  | _, _ => none

def phaseFrom (f : Format) (phase : Phase) (reports : List Report) : Option Phase :=
  reports.foldlM (Phase.next f) phase

/-- The message for a report of a job that is expected. -/
def forward (f : Format) : Report → PeerMessage
  | .readJobInitResult id _ _ (.error error) => .error id error 0
  | .readJobInitResult id _ _ (.ok bytes) =>
    match f.parse bytes with
    | .ok dir => .dir id dir.path dir.entries
    | .error _ => .error id "internal error" 0
  | .fileBlockFromCm id fileNum data compressed => .block id fileNum data compressed
  | .fileReadDone id fileNum => .done id fileNum
  | .fileReadError id fileNum err => .error id err fileNum
  | .fileDigestFromCm id fileNum lastModified fileSize isResume =>
    .digest id fileNum lastModified fileSize false isResume

/-- After the report nothing more of the job is expected. -/
def Report.ends (f : Format) : Report → Bool
  | .readJobInitResult _ _ _ (.error _) => true
  | .readJobInitResult _ _ _ (.ok bytes) => !(f.parse bytes).isOk
  | .fileBlockFromCm _ _ _ _ | .fileDigestFromCm _ _ _ _ _ => false
  | .fileReadDone _ _ | .fileReadError _ _ _ => true

variable {f : Format}

theorem phaseFrom_append (phase : Phase) (a b : List Report) :
    phaseFrom f phase (a ++ b) = (phaseFrom f phase a).bind fun phase' => phaseFrom f phase' b := by
  simp [phaseFrom, List.foldlM_append]

theorem phaseFrom_singleton (phase : Phase) (r : Report) :
    phaseFrom f phase [r] = Phase.next f phase r := by
  simp [phaseFrom]

/-- Nothing is reported after the end. -/
theorem phaseFrom_ended {reports : List Report} {phase : Phase}
    (accepted : phaseFrom f .ended reports = some phase) : reports = [] ∧ phase = .ended := by
  cases reports with
  | nil => exact ⟨rfl, (Option.some.inj accepted).symm⟩
  | cons r reports => simp [phaseFrom, Phase.next] at accepted

theorem ends_iff {phase phase' : Phase} {r : Report} (next : Phase.next f phase r = some phase') :
    r.ends f = true ↔ phase' = .ended := by
  cases phase with
  | ended => simp [Phase.next] at next
  | opened =>
    cases r with
    | readJobInitResult => simp [Phase.next] at next
    | fileBlockFromCm | fileReadDone | fileReadError | fileDigestFromCm =>
      simp only [Phase.next, Option.some.injEq] at next
      simp [Report.ends, ← next]
  | waiting =>
    cases r with
    | readJobInitResult id fileNum includeHidden result =>
      cases result with
      | error e =>
        simp only [Phase.next, Option.some.injEq] at next
        simp [Report.ends, ← next]
      | ok bytes =>
        simp only [Phase.next, Option.ite_none_right_eq_some, Option.some.injEq] at next
        obtain ⟨parsed, rfl⟩ := next
        simp [Report.ends, parsed]
    | fileBlockFromCm | fileReadDone | fileReadError | fileDigestFromCm =>
      simp [Phase.next] at next

/-- A request about the job on its way to the connection manager. -/
inductive Asked where
  | read
  | cancel
  deriving DecidableEq, Repr

structure View where
  requested : Bool := false
  cancelled : Bool := false
  /-- The connection expects something of the job. -/
  expected : Bool := false
  asked : List Asked := []
  /-- The connection manager has the job. -/
  running : Bool := false
  pending : List Report := []
  reported : List Report := []
  sent : List PeerMessage := []

/-- What a step can do to a job. -/
inductive Move (f : Format) (v : View) : View → Prop where
  | still : Move f v v
  | request (fresh : v.requested = false) :
      Move f v { v with requested := true, expected := true, asked := v.asked ++ [Asked.read] }
  | cancel :
      Move f v { v with cancelled := true, expected := false, asked := v.asked ++ [Asked.cancel] }
  | start (rest : List Asked) (first : v.asked = .read :: rest) (added : Bool) (r : Report)
      (next : Phase.next f .waiting r = some (if added then .opened else .ended)) :
      Move f v { v with
        asked := rest
        running := v.running || added
        pending := v.pending ++ [r]
        reported := v.reported ++ [r] }
  | remove (rest : List Asked) (first : v.asked = .cancel :: rest) :
      Move f v { v with asked := rest, running := false }
  | work (running : v.running = true) (reports : List Report) (stays : Bool)
      (accepted : phaseFrom f .opened reports = some (if stays then .opened else .ended)) :
      Move f v { v with
        running := stays
        pending := v.pending ++ reports
        reported := v.reported ++ reports }
  | deliver (r : Report) (rest : List Report) (first : v.pending = r :: rest) :
      Move f v { v with
        pending := rest
        expected := v.expected && !r.ends f
        sent := v.sent ++ if v.expected then [forward f r] else [] }

/-- **The invariant of a job.** -/
structure View.Sound (f : Format) (v : View) : Prop where
  fresh : v.requested = false →
    v.expected = false ∧ v.running = false ∧ .read ∉ v.asked ∧ v.pending = [] ∧ v.reported = [] ∧
      v.sent = []
  once : v.asked.count .read ≤ 1
  phase : ∃ phase, phaseFrom f .waiting v.reported = some phase ∧
    (.read ∈ v.asked → phase = .waiting ∧ v.running = false) ∧
    (v.running = true → phase = .opened) ∧
    (v.expected = true → .read ∈ v.asked ∨ v.running = true ∨ phase = .ended ∧ v.pending ≠ [])
  handled : ∃ handled, v.reported = handled ++ v.pending ∧
    (v.expected = true → v.sent = handled.map (forward f))
  inOrder : v.sent <+: v.reported.map (forward f)
  complete : v.requested = true → v.cancelled = false →
    v.expected = true ∨ v.pending = [] ∧ v.sent = v.reported.map (forward f)
  kept : v.running = true → (v.expected = true ↔ .cancel ∉ v.asked)
  awaited : ∀ before after, v.asked = before ++ .read :: after →
    (v.expected = true ↔ .cancel ∉ after)
  stopped : .cancel ∈ v.asked → v.cancelled = true

variable {v v' : View}

theorem View.sound_new : View.Sound f {} where
  fresh := fun _ => ⟨rfl, rfl, List.not_mem_nil, rfl, rfl, rfl⟩
  once := Nat.zero_le 1
  phase := ⟨.waiting, rfl, fun _ => ⟨rfl, rfl⟩, by simp, by simp⟩
  handled := ⟨[], rfl, fun _ => rfl⟩
  inOrder := List.prefix_refl _
  complete := by simp
  kept := by simp
  awaited := by simp
  stopped := by simp

theorem phaseFrom_waiting {reports : List Report}
    (accepted : phaseFrom f .waiting reports = some .waiting) : reports = [] := by
  have leaves (phase phase' : Phase) (r : Report) (next : Phase.next f phase r = some phase') :
      phase' ≠ .waiting := by
    intro is
    subst is
    cases phase with
    | ended => simp [Phase.next] at next
    | opened => cases r <;> simp [Phase.next] at next
    | waiting =>
      cases r with
      | readJobInitResult id fileNum includeHidden result =>
        cases result <;> simp [Phase.next] at next
      | fileBlockFromCm | fileReadDone | fileReadError | fileDigestFromCm =>
        simp [Phase.next] at next
  rcases List.eq_nil_or_concat reports with rfl | ⟨init, r, rfl⟩
  · rfl
  · rw [List.concat_eq_append, phaseFrom_append] at accepted
    obtain ⟨phase, -, last⟩ := Option.bind_eq_some_iff.mp accepted
    rw [phaseFrom_singleton] at last
    exact absurd rfl (leaves phase .waiting r last)

/-- The first of the reports that are left ends the job just if it is the last that ends it. -/
theorem ends_first {phase : Phase} {handled rest : List Report} {r : Report}
    (accepted : phaseFrom f .waiting (handled ++ r :: rest) = some phase) :
    r.ends f = true ↔ phase = .ended ∧ rest = [] := by
  rw [phaseFrom_append] at accepted
  obtain ⟨phase₁, -, accepted⟩ := Option.bind_eq_some_iff.mp accepted
  have cons : r :: rest = [r] ++ rest := rfl
  rw [cons, phaseFrom_append, phaseFrom_singleton] at accepted
  obtain ⟨phase₂, next, accepted⟩ := Option.bind_eq_some_iff.mp accepted
  rw [ends_iff next]
  constructor
  · rintro rfl
    obtain ⟨nothing, ended⟩ := phaseFrom_ended accepted
    exact ⟨ended, nothing⟩
  · rintro ⟨rfl, rfl⟩
    exact Option.some.inj accepted

theorem View.Sound.request (sound : v.Sound f) (fresh : v.requested = false) :
    View.Sound f
      { v with requested := true, expected := true, asked := v.asked ++ [Asked.read] } := by
  obtain ⟨-, stopped, unread, noPending, noReport, noSent⟩ := sound.fresh fresh
  refine ⟨by simp, ?_, ?_, ?_, ?_, by simp, by simp [stopped], ?_, ?_⟩
  · simp [List.count_eq_zero_of_not_mem unread]
  · exact ⟨.waiting, by rw [noReport]; rfl, by simp [stopped], by simp [stopped], by simp⟩
  · exact ⟨[], by simp [noReport, noPending], by simp [noSent]⟩
  · simp [noSent]
  · intro before after is
    rcases (snoc_eq_split.mp is) with ⟨rfl, -⟩ | ⟨rest, -, is⟩
    · simp
    · exact absurd (by simp [is]) unread
  · simpa using sound.stopped

theorem View.Sound.cancel (sound : v.Sound f) :
    View.Sound f
      { v with cancelled := true, expected := false, asked := v.asked ++ [Asked.cancel] } := by
  obtain ⟨phase, accepted, waits, opened, -⟩ := sound.phase
  obtain ⟨handled, split, -⟩ := sound.handled
  refine ⟨?_, by simpa using sound.once, ⟨phase, accepted, by simpa using waits, opened, by simp⟩,
    ⟨handled, split, by simp⟩, sound.inOrder, by simp, by simp, ?_, by simp⟩
  · intro fresh
    obtain ⟨-, stopped, unread, noPending, noReport, noSent⟩ := sound.fresh fresh
    exact ⟨rfl, stopped, by simpa using unread, noPending, noReport, noSent⟩
  · intro before after is
    rcases (snoc_eq_split.mp is) with ⟨-, -, same⟩ | ⟨rest, rfl, -⟩
    · exact absurd same (by simp)
    · simp

theorem View.Sound.requested_of_asked (sound : v.Sound f) (asked : .read ∈ v.asked) :
    v.requested = true := by
  cases is : v.requested with
  | true => rfl
  | false => exact absurd asked (sound.fresh is).2.2.1

theorem View.Sound.start (sound : v.Sound f) {rest : List Asked} (first : v.asked = .read :: rest)
    {added : Bool} {r : Report}
    (next : Phase.next f .waiting r = some (if added then .opened else .ended)) :
    View.Sound f { v with
      asked := rest
      running := v.running || added
      pending := v.pending ++ [r]
      reported := v.reported ++ [r] } := by
  obtain ⟨phase, accepted, waits, -, -⟩ := sound.phase
  obtain ⟨rfl, stopped⟩ := waits (by simp [first])
  obtain ⟨handled, split, done⟩ := sound.handled
  have requested : v.requested = true := sound.requested_of_asked (by simp [first])
  have once := sound.once
  rw [first, List.count_cons_self] at once
  have unread : Asked.read ∉ rest := List.count_eq_zero.mp (by omega)
  have awaited := sound.awaited [] rest first
  refine ⟨by simp [requested], ?_, ?_, ⟨handled, by simp [split], done⟩, ?_, ?_, ?_, ?_, ?_⟩
  · show rest.count .read ≤ 1
    omega
  · refine ⟨if added then .opened else .ended, ?_, fun mem => absurd mem unread, ?_, ?_⟩
    · rw [phaseFrom_append, accepted, Option.bind_some, phaseFrom_singleton, next]
    · cases added <;> simp [stopped]
    · cases added <;> simp
  · rw [List.map_append]
    exact sound.inOrder.trans (List.prefix_append _ _)
  · intro _ uncancelled
    refine .inl (awaited.mpr fun cancel => ?_)
    have cancelled := sound.stopped (by simp [first, cancel])
    exact absurd (cancelled.symm.trans uncancelled) (by simp)
  · exact fun _ => awaited
  · intro before after is
    have is : rest = before ++ .read :: after := is
    exact absurd (by simp [is]) unread
  · exact fun cancel => sound.stopped (by simp [first, show Asked.cancel ∈ rest from cancel])

theorem View.Sound.remove (sound : v.Sound f) {rest : List Asked}
    (first : v.asked = .cancel :: rest) :
    View.Sound f { v with asked := rest, running := false } := by
  obtain ⟨phase, accepted, waits, opened, account⟩ := sound.phase
  have cancelled := sound.stopped (by simp [first])
  have unread (mem : .read ∈ v.asked) : Asked.read ∈ rest := by simpa [first] using mem
  refine ⟨?_, ?_, ⟨phase, accepted, ?_, by simp, ?_⟩, sound.handled, sound.inOrder, ?_, by simp,
    ?_, fun _ => cancelled⟩
  · intro fresh
    obtain ⟨ids, -, none, noPending, noReport, noSent⟩ := sound.fresh fresh
    refine ⟨ids, rfl, ?_, noPending, noReport, noSent⟩
    rw [first] at none
    exact fun mem => none (List.mem_cons_of_mem _ mem)
  · have once := sound.once
    rw [first] at once
    simpa using once
  · exact fun mem => ⟨(waits (by simp [first, show Asked.read ∈ rest from mem])).1, rfl⟩
  · intro expected
    rcases account expected with asked | running | exhausted
    · exact .inl (unread asked)
    · exact absurd (by simp [first]) ((sound.kept running).mp expected)
    · exact .inr (.inr exhausted)
  · simp [cancelled]
  · intro before after is
    have is : rest = before ++ .read :: after := is
    exact sound.awaited (.cancel :: before) after (by rw [first, is, List.cons_append])

theorem View.Sound.work (sound : v.Sound f) (running : v.running = true) {reports : List Report}
    {stays : Bool}
    (more : phaseFrom f .opened reports = some (if stays then .opened else .ended)) :
    View.Sound f { v with
      running := stays
      pending := v.pending ++ reports
      reported := v.reported ++ reports } := by
  obtain ⟨phase, accepted, waits, opened, -⟩ := sound.phase
  obtain ⟨handled, split, done⟩ := sound.handled
  have unread (mem : .read ∈ v.asked) : False := by
    simpa [running] using (waits mem).2
  have phase := opened running
  subst phase
  refine ⟨?_, sound.once, ?_, ⟨handled, by simp [split], done⟩, ?_, ?_, ?_, sound.awaited,
    sound.stopped⟩
  · intro fresh
    exact absurd (running.symm.trans (sound.fresh fresh).2.1) (by simp)
  · refine ⟨if stays then .opened else .ended, ?_, fun mem => (unread mem).elim, ?_, ?_⟩
    · rw [phaseFrom_append, accepted, Option.bind_some, more]
    · simp
    · intro _
      cases stays with
      | true => exact .inr (.inl rfl)
      | false =>
        refine .inr (.inr ⟨rfl, ?_⟩)
        rintro none
        obtain ⟨-, rfl⟩ := List.append_eq_nil_iff.mp none
        simp [phaseFrom] at more
  · rw [List.map_append]
    exact sound.inOrder.trans (List.prefix_append _ _)
  · intro _ uncancelled
    refine .inl ((sound.kept running).mpr fun cancel => ?_)
    exact absurd ((sound.stopped cancel).symm.trans uncancelled) (by simp)
  · exact fun _ => sound.kept running

theorem View.Sound.deliver (sound : v.Sound f) {r : Report} {rest : List Report}
    (first : v.pending = r :: rest) :
    View.Sound f { v with
      pending := rest
      expected := v.expected && !r.ends f
      sent := v.sent ++ if v.expected then [forward f r] else [] } := by
  obtain ⟨phase, accepted, waits, opened, account⟩ := sound.phase
  obtain ⟨handled, split, done⟩ := sound.handled
  rw [first] at split
  have ends := ends_first (split ▸ accepted)
  have unread (mem : .read ∈ v.asked) : False := by
    obtain ⟨rfl, -⟩ := waits mem
    simp [phaseFrom_waiting accepted] at split
  have goes (running : v.running = true) : r.ends f = false := by
    simpa [opened running] using ends
  refine ⟨?_, sound.once, ⟨phase, accepted, waits, opened, ?_⟩, ⟨handled ++ [r], ?_, ?_⟩, ?_, ?_,
    ?_, ?_, sound.stopped⟩
  · intro fresh
    exact absurd (first.symm.trans (sound.fresh fresh).2.2.2.1) (by simp)
  · intro expected
    simp only [Bool.and_eq_true, Bool.not_eq_true'] at expected
    rcases account expected.1 with asked | running | ⟨exhausted, -⟩
    · exact (unread asked).elim
    · exact .inr (.inl running)
    · refine .inr (.inr ⟨exhausted, fun none => ?_⟩)
      simp [ends.mpr ⟨exhausted, none⟩] at expected
  · simp [split]
  · intro expected
    simp only [Bool.and_eq_true] at expected
    simp [done expected.1, expected.1]
  · cases expected : v.expected with
    | false => simpa [expected] using sound.inOrder
    | true =>
      rw [if_pos rfl, done expected, split]
      exact ⟨rest.map (forward f), by simp⟩
  · intro requested uncancelled
    have expected : v.expected = true := by
      rcases sound.complete requested uncancelled with expected | ⟨none, -⟩
      · exact expected
      · simp [first] at none
    cases last : r.ends f with
    | false => simp [expected]
    | true =>
      obtain ⟨-, rfl⟩ := ends.mp last
      exact .inr ⟨rfl, by simp [expected, done expected, split]⟩
  · intro running
    simpa [goes running] using sound.kept running
  · intro before after is
    exact (unread (by simp [show v.asked = before ++ .read :: after from is])).elim

theorem View.Sound.move (sound : v.Sound f) (move : Move f v v') : v'.Sound f := by
  cases move with
  | still => exact sound
  | request fresh => exact sound.request fresh
  | cancel => exact sound.cancel
  | start rest first added r next => exact sound.start first next
  | remove rest first => exact sound.remove first
  | work running reports stays accepted => exact sound.work running accepted
  | deliver r rest first => exact sound.deliver first

end CamelliaRemote.Server.ReadJobs
