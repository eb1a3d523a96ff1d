import CamelliaRemote.Server.ReadJobsForwarded
import CamelliaRemote.Web.DownloadSaved

namespace CamelliaRemote.Web
open Codec Runs

variable {setup : Setup} {encode : DownloadMessage → Bytes} {decompress : Bytes → Option Bytes}
  {d : Downloads} {got : Nat → List (Int × Bytes)}

/-- A job that an id stands for is not cancelled. -/
def Downloads.Live (d : Downloads) : Prop :=
  ∀ (id : Int) (j : Nat) (job : DownloadJob), d.downloadJobs[id]? = some j →
    d.jobs[j]? = some job → job.cancelled = false

/-- The jobs are cancelled or not as they were, unless some are forgotten. -/
structure SameFlags (d d' : Downloads) : Prop where
  flags : ∀ j : Nat, d'.jobs[j]?.map (·.cancelled) = d.jobs[j]?.map (·.cancelled)
  map : ∀ (id : Int) (j : Nat), d'.downloadJobs[id]? = some j → d.downloadJobs[id]? = some j

theorem SameFlags.live {d' : Downloads} (same : SameFlags d d') (live : d.Live) : d'.Live := by
  intro id j job mapped found
  have flag := same.flags j
  rw [found, Option.map_some] at flag
  obtain ⟨job', found', is⟩ := Option.map_eq_some_iff.mp flag.symm
  exact is ▸ live id j job' (same.map id j mapped) found'

theorem SameFlags.refl (d : Downloads) : SameFlags d d := ⟨fun _ => rfl, fun _ _ mapped => mapped⟩

theorem SameFlags.trans {d' d'' : Downloads} (first : SameFlags d d') (second : SameFlags d' d'') :
    SameFlags d d'' :=
  ⟨fun j => (second.flags j).trans (first.flags j),
    fun id j mapped => first.map id j (second.map id j mapped)⟩

/-- Only the jobs and the ids matter. -/
theorem SameFlags.same {d' d'' : Downloads} (flags : SameFlags d d') (jobs : d''.jobs = d'.jobs)
    (map : d''.downloadJobs = d'.downloadJobs) : SameFlags d d'' :=
  ⟨fun j => by rw [jobs, flags.flags], fun id j mapped => flags.map id j (map ▸ mapped)⟩

def DownloadEvent.Requests (id : Int) : DownloadEvent → Prop
  | .requestDownload id' _ _ _ => id' = id
  | _ => False

def DownloadEvent.Ends (id : Int) : DownloadEvent → Prop
  | .fileDone id' _ _ => id' = id
  | _ => False

structure Change (d d' : Downloads) (e : DownloadEvent) : Prop where
  core : ∀ j k, d.core j = some k → ∃ k', d'.core j = some k' ∧ k'.id = k.id
  map : ∀ (id : Int) (j : Nat), d'.downloadJobs[id]? = some j →
    d.downloadJobs[id]? = some j ∨ e.Requests id
  completing : ∀ c ∈ d'.completing,
    c ∈ d.completing ∨ e.Ends c.id ∧ d.downloadJobs[c.id]? = some c.job
  completed : ∀ c ∈ d.completing, c ∈ d'.completing ∨ d'.downloadJobs[c.id]? = none
  reports : ∀ j id n, .jobDone (some j) id n ∈ d'.reports →
    .jobDone (some j) id n ∈ d.reports ∨ ∃ c ∈ d.completing, c.job = j

theorem Quiet.change {d' : Downloads} (quiet : Quiet d d') (e : DownloadEvent) : Change d d' e where
  core := fun j k found => ⟨k, (quiet.cores j).trans found, rfl⟩
  map := fun id j mapped => .inl (quiet.map id j mapped)
  completing := fun _ mem => .inl (quiet.completing ▸ mem)
  completed := fun _ mem => .inl (quiet.completing ▸ mem)
  reports := fun j id n reported => .inl (quiet.reports j id n reported)

theorem change_fileBlock (live : d.Live) (id n : Int) (data : Bytes) (compressed : Bool) :
    Change d (d.handleFileBlock decompress id n data compressed true)
      (.fileBlock id n data compressed true) := by
  cases mapped : d.downloadJobs[id]? with
  | none =>
    simp only [Downloads.handleFileBlock, mapped]
    exact (Quiet.refl d).change _
  | some j =>
    cases found : d.jobs[j]? with
    | none =>
      simp only [Downloads.handleFileBlock, mapped, found]
      exact (Quiet.refl d).change _
    | some job =>
      have takes : Takes d (d.handleFileBlock decompress id n data compressed true) id j job.core n
          (decoded decompress data compressed) :=
        takes_fileBlock mapped found (live id j job mapped found) n data compressed
      obtain ⟨content, core, -⟩ := takes.core
      refine ⟨fun i k known => ?_, fun id' i mapped' => .inl (takes.map id' i mapped').1,
        fun c mem => .inl (takes.completing ▸ mem), fun c mem => .inl (takes.completing ▸ mem),
        fun i id' m reported => .inl (takes.reports i id' m reported)⟩
      by_cases here : i = j
      · subst here
        rw [core_of_found found, Option.some.injEq] at known
        subst known
        exact ⟨_, core, rfl⟩
      · exact ⟨k, (takes.others i here).trans known, rfl⟩

theorem change_fileDone (id n : Int) (saves : Bool) :
    Change d (d.handleFileDone id n saves) (.fileDone id n saves) := by
  cases mapped : d.downloadJobs[id]? with
  | none =>
    simp only [Downloads.handleFileDone, mapped]
    exact (quiet_emit (by simp)).change _
  | some j =>
    cases found : d.jobs[j]? with
    | none =>
      simp only [Downloads.handleFileDone, mapped, found]
      exact (Quiet.refl d).change _
    | some job =>
      cases live : job.cancelled with
      | true =>
        simp only [Downloads.handleFileDone, mapped, found, live, if_true]
        exact (quiet_emit (by simp)).change _
      | false =>
        have cleared : (d.clearDownloadConfirmRetry j).core j = some job.core := by
          rw [(quiet_clear j).cores]
          exact core_of_found found
        simp only [Downloads.handleFileDone, mapped, found, live, Bool.false_eq_true, if_false]
        generalize (if 0 ≤ job.currentFileNum then job.currentFileNum else max 0 (n - 1)) = m
        have finishes := finishes_finalize cleared id n m saves
        refine ⟨fun i k known => ?_, fun id' i mapped' => .inl (finishes.map ▸ mapped'),
          fun c mem => ?_, fun c mem => .inl ?_, fun i id' m reported => .inl (finishes.reports ▸
            reported)⟩
        · have known : (d.clearDownloadConfirmRetry j).core i = some k := by
            rw [(quiet_clear j).cores, known]
          rw [finishes.cores]
          split
          · rename_i here
            rw [here.1, cleared, Option.some.injEq] at known
            subst known
            exact ⟨_, rfl, rfl⟩
          · exact ⟨k, known, rfl⟩
        · rw [finishes.completing] at mem
          rcases List.mem_append.mp mem with mem | mem
          · exact .inl mem
          · rw [List.mem_singleton.mp mem]
            exact .inr ⟨rfl, mapped⟩
        · rw [finishes.completing]
          exact List.mem_append_left _ mem

theorem change_complete : Change d d.complete .complete := by
  cases queue : d.completing with
  | nil =>
    simp only [Downloads.complete, queue]
    exact (Quiet.refl d).change _
  | cons c completing =>
    have completes := completes_complete queue
    refine ⟨fun j k known => ⟨k, (completes.cores j).trans known, rfl⟩,
      fun id j mapped => .inl (completes.map id j mapped).2,
      fun c' mem => .inl (completes.completing ▸ List.mem_cons_of_mem c mem), fun c' mem => ?_,
      fun j id n reported => ?_⟩
    · rw [completes.completing] at mem
      rcases List.mem_cons.mp mem with rfl | mem
      · right
        cases mapped : d.complete.downloadJobs[c'.id]? with
        | none => rfl
        | some j => exact absurd rfl (completes.map c'.id j mapped).1
      · exact .inl mem
    · rcases completes.reports j id n reported with before | ⟨rfl, -⟩
      · exact .inl before
      · exact .inr ⟨c, by simp [queue], rfl⟩

theorem change_request (id : Int) (path : String) (hidden : Bool) (n : Int) :
    Change d (d.requestDownload encode id path hidden n) (.requestDownload id path hidden n) := by
  unfold Downloads.requestDownload
  split
  · exact (Quiet.refl d).change _
  · refine ⟨fun j k known => ⟨k, ?_, rfl⟩, fun id' j mapped => ?_, fun c mem => .inl mem,
      fun c mem => .inl mem, fun j id' m reported => .inl reported⟩
    · show (d.jobs ++ [({ id, remotePath := path } : DownloadJob)])[j]?.map DownloadJob.core =
        some k
      rw [List.getElem?_append_left (core_lt known)]
      exact known
    · rcases TreeMaps.of_insert mapped with ⟨rfl, -⟩ | ⟨-, mapped⟩
      · exact .inr rfl
      · exact .inl mapped

theorem change_step (live : d.Live) {e : DownloadEvent} (orderly : Orderly d e) :
    Change d (d.step setup encode decompress e) e := by
  cases e with
  | fileBlock id n data compressed saves =>
    obtain ⟨-, rfl, -⟩ := orderly
    exact change_fileBlock live id n data compressed
  | session e => exact (quiet_onSession e).change _
  | requestDownload id path hidden n => exact change_request id path hidden n
  | dir id path entries => exact (quiet_dir id path entries).change _
  | fileDigest id n => exact (quiet_fileDigest id n).change _
  | fileDone id n saves => exact change_fileDone id n saves
  | complete => exact change_complete
  | fileError id err => exact (quiet_fileError id err).change _
  | cancelJob id => exact (quiet_cancelJob id).change _
  | retry j => exact (quiet_retry j).change _

/-- The number and the bytes of a block for the id. -/
def addressed (decompress : Bytes → Option Bytes) (id : Int) :
    DownloadEvent → List (Int × Bytes)
  | .fileBlock id' n data compressed _ =>
    if id' = id then (decoded decompress data compressed).toList.map fun bytes => (n, bytes) else []
  | _ => []

theorem addressed_eq_taken (tracked : Tracked d got) (live : d.Live) {id : Int} {j : Nat}
    (mapped : d.downloadJobs[id]? = some j) (e : DownloadEvent) :
    ((d.taken decompress e).filter (·.1 = j)).map (·.2) = addressed decompress id e := by
  cases e with
  | fileBlock id' n data compressed saves =>
    by_cases same : id' = id
    · subst same
      obtain ⟨k, known, -⟩ := tracked.own id' j mapped
      obtain ⟨job, found, -⟩ := Option.map_eq_some_iff.mp known
      have uncancelled := live id' j job mapped found
      cases bytes : decoded decompress data compressed <;>
        simp [Downloads.taken, addressed, mapped, found, uncancelled, bytes]
    · cases mapped' : d.downloadJobs[id']? with
      | none => simp [Downloads.taken, addressed, mapped', same]
      | some i =>
        have apart : i ≠ j := by
          rintro rfl
          exact same (tracked.one mapped' mapped)
        by_cases uncancelled : d.jobs[i]?.any (!·.cancelled) = true <;>
          simp [Downloads.taken, addressed, mapped', same, apart, uncancelled]
  | _ => rfl

/-- A job that no id stands for takes nothing. -/
theorem taken_of_unmapped {j : Nat} (unmapped : ∀ id : Int, d.downloadJobs[id]? ≠ some j)
    (e : DownloadEvent) : ((d.taken decompress e).filter (·.1 = j)).map (·.2) = [] := by
  cases e with
  | fileBlock id n data compressed saves =>
    cases mapped : d.downloadJobs[id]? with
    | none => simp [Downloads.taken, mapped]
    | some i =>
      have apart : i ≠ j := by
        rintro rfl
        exact unmapped id mapped
      by_cases uncancelled : d.jobs[i]?.any (!·.cancelled) = true <;>
        simp [Downloads.taken, mapped, apart, uncancelled]
  | _ => rfl

/-- How a job stands with the blocks that were addressed to it since it was requested. -/
structure Follows (d : Downloads) (id : Int) (j : Nat) (took sent : List (Int × Bytes))
    (ended : Prop) : Prop where
  known : ∃ k, d.core j = some k ∧ k.id = id
  active : d.downloadJobs[id]? = some j → (∀ c ∈ d.completing, c.job ≠ j) → took = sent
  closing : ∀ c ∈ d.completing, c.job = j → took = sent ∧ ended
  done : ∀ m n, .jobDone (some j) m n ∈ d.reports → took = sent ∧ ended

theorem Follows.step {id : Int} {j : Nat} {took sent : List (Int × Bytes)} {ended : Prop}
    (tracked : Tracked d got) (live : d.Live) (follows : Follows d id j took sent ended)
    {e : DownloadEvent} (orderly : Orderly d e) (unrequested : ¬ e.Requests id)
    (inTime : ended → addressed decompress id e = []) :
    Follows (d.step setup encode decompress e) id j
      (took ++ ((d.taken decompress e).filter (·.1 = j)).map (·.2))
      (sent ++ addressed decompress id e) (ended ∨ e.Ends id) := by
  have change : Change d (d.step setup encode decompress e) e := change_step live orderly
  obtain ⟨k, known, own⟩ := follows.known
  obtain ⟨k', known', same⟩ := change.core j k known
  have only (id' : Int) (mapped : d.downloadJobs[id']? = some j) : id' = id := by
    obtain ⟨k₁, found, is⟩ := tracked.own id' j mapped
    rw [known, Option.some.injEq] at found
    rw [← is, ← found, own]
  -- What is settled stays settled, for nothing is addressed to a job after its end.
  have settled (whole : took = sent ∧ ended) :
      took ++ ((d.taken decompress e).filter (·.1 = j)).map (·.2) =
        sent ++ addressed decompress id e ∧ (ended ∨ e.Ends id) := by
    refine ⟨?_, .inl whole.2⟩
    by_cases mapped : d.downloadJobs[id]? = some j
    · rw [addressed_eq_taken tracked live mapped, whole.1]
    · rw [taken_of_unmapped (fun id' mapped' => mapped (only id' mapped' ▸ mapped')),
        inTime whole.2, whole.1]
  refine ⟨⟨k', known', same.trans own⟩, fun mapped' none => ?_, fun c mem here => ?_,
    fun m n reported => ?_⟩
  · rcases change.map id j mapped' with mapped | requests
    · rw [addressed_eq_taken tracked live mapped]
      refine congrArg (· ++ _) (follows.active mapped fun c mem here => ?_)
      rcases change.completed c mem with stays | gone
      · exact none c stays here
      · obtain ⟨k₁, found, is⟩ := tracked.ownCompleting c mem
        rw [here, known, Option.some.injEq] at found
        rw [← is, ← found, own] at gone
        exact absurd (gone.symm.trans mapped') (by simp)
    · exact absurd requests unrequested
  · rcases change.completing c mem with before | ⟨ends, mapped⟩
    · exact settled (follows.closing c before here)
    · rw [here] at mapped
      have is := only c.id mapped
      rw [is] at mapped ends
      by_cases none : ∀ c ∈ d.completing, c.job ≠ j
      · rw [addressed_eq_taken tracked live mapped, follows.active mapped none]
        exact ⟨rfl, .inr ends⟩
      · simp only [not_forall, not_not] at none
        obtain ⟨c', mem', here'⟩ := none
        exact settled (follows.closing c' mem' here')
  · rcases change.reports j m n reported with before | ⟨c, mem, here⟩
    · exact settled (follows.done m n before)
    · exact settled (follows.closing c mem here)

/-- No block of the job comes after its end. -/
def InTime (decompress : Bytes → Option Bytes) (id : Int) (es : List DownloadEvent) : Prop :=
  ∀ before e after, es = before ++ e :: after → (∃ e' ∈ before, e'.Ends id) →
    addressed decompress id e = []

open Server.ReadJobs in
/-- What a message of a read job is to the session. -/
def arriving : PeerMessage → DownloadEvent
  | .dir id path entries => .dir id path (entries.map fun (name, size) => { name, size })
  | .error id err _ => .fileError (some id) err
  | .block id fileNum data compressed => .fileBlock id fileNum data compressed true
  | .done id fileNum => .fileDone id fileNum true
  | .digest id fileNum _ _ _ _ => .fileDigest id fileNum

section Served

open Server.ReadJobs

variable {f : Format} {id : Int}

end Served

end CamelliaRemote.Web
