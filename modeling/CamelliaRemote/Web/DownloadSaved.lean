import CamelliaRemote.Web.DownloadTracked
import CamelliaRemote.Web.Sealing

namespace CamelliaRemote.Web
open Codec Runs

variable {setup : Setup} {encode : DownloadMessage → Bytes} {decompress : Bytes → Option Bytes}
  {d : Downloads} {got : Nat → List (Int × Bytes)}

/-- A job that takes a block, or is forgotten because of it. -/
structure Takes (d d' : Downloads) (id : Int) (j : Nat) (k : Core) (n : Int)
    (bytes : Option Bytes) : Prop where
  map : ∀ (id' : Int) (i : Nat), d'.downloadJobs[id']? = some i →
    d.downloadJobs[id']? = some i ∧ (bytes = none → id' ≠ id)
  completing : d'.completing = d.completing
  reports : ∀ i id' m, .jobDone (some i) id' m ∈ d'.reports → .jobDone (some i) id' m ∈ d.reports
  others : ∀ i, i ≠ j → d'.core i = d.core i
  core : ∃ content, d'.core j = some ⟨k.id, n, content⟩ ∧
    ∀ data, bytes = some data → content = (if k.fileNum ≠ n then [] else k.content) ++ data
  saved : ∀ i, d'.savedOf i = d.savedOf i ++
    if i = j then if k.fileNum ≠ n ∧ 0 ≤ k.fileNum then nonEmpty [(k.fileNum, k.content)] else []
    else []

/-- No job of the id is being completed. -/
def Downloads.Unfinished (d : Downloads) (id : Int) : Prop :=
  ∀ c ∈ d.completing, d.downloadJobs[id]? ≠ some c.job

theorem Tracked.takes (tracked : Tracked d got) {d' : Downloads} {id n : Int} {j : Nat} {k : Core}
    {bytes : Option Bytes} (mapped : d.downloadJobs[id]? = some j) (found : d.core j = some k)
    (nonneg : 0 ≤ n) (unfinished : d.Unfinished id) (takes : Takes d d' id j k n bytes) :
    Tracked d' fun i => got i ++ if i = j then bytes.toList.map fun data => (n, data) else [] := by
  have others (i : Nat) (other : i ≠ j) : d'.savedOf i = d.savedOf i := by
    rw [takes.saved, if_neg other, List.append_nil]
  have same (i : Nat) (other : i ≠ j) :
      (got i ++ if i = j then bytes.toList.map fun data => (n, data) else []) = got i := by
    rw [if_neg other, List.append_nil]
  have waiting (c : Completing) (mem : c ∈ d.completing) : c.job ≠ j := by
    rintro rfl
    exact unfinished c mem mapped
  obtain ⟨content, core, holds⟩ := takes.core
  constructor
  · intro id' i mapped'
    by_cases here : i = j
    · subst here
      obtain ⟨k', found', is⟩ := tracked.own id' i (takes.map id' i mapped').1
      rw [found, Option.some.injEq] at found'
      exact ⟨_, core, found' ▸ is⟩
    · rw [takes.others i here]
      exact tracked.own id' i (takes.map id' i mapped').1
  · intro c mem
    rw [takes.completing] at mem
    rw [takes.others _ (waiting c mem)]
    exact tracked.ownCompleting c mem
  · intro i absent
    have other : i ≠ j := by
      rintro rfl
      exact absurd (core.symm.trans absent) (by simp)
    rw [takes.others i other] at absent
    rw [others i other, same i other]
    exact tracked.fresh i absent
  · intro id' i k' mapped' found' failed
    obtain ⟨before, kept⟩ := takes.map id' i mapped'
    rw [takes.completing] at failed
    by_cases here : i = j
    · subst here
      rw [core, Option.some.injEq] at found'
      subst found'
      cases bytes with
      | none => exact absurd (tracked.one before mapped) (kept rfl)
      | some data =>
        rw [takes.saved, if_pos rfl, if_pos rfl, holds data rfl]
        exact (tracked.active id i k mapped found failed).take nonneg data
    · rw [takes.others i here] at found'
      rw [others i here, same i here]
      exact tracked.active id' i k' before found' failed
  · intro c mem saved k' found'
    rw [takes.completing] at mem
    rw [takes.others _ (waiting c mem)] at found'
    rw [others _ (waiting c mem), same _ (waiting c mem)]
    exact tracked.ended c mem saved k' found'
  · intro i id' m reported
    obtain ⟨known, gone, whole⟩ := tracked.done i id' m (takes.reports i id' m reported)
    have other : i ≠ j := by
      rintro rfl
      exact gone id mapped
    rw [takes.others i other, others i other, same i other]
    exact ⟨known, fun other mapped' => gone other (takes.map other i mapped').1, whole⟩

theorem takes_turnTo (id : Int) {j : Nat} {job : DownloadJob} (found : d.jobs[j]? = some job)
    (n : Int) : Takes d (d.turnTo j job n true) id j job.core n (some []) := by
  have core := core_of_found found
  unfold Downloads.turnTo
  split
  · rename_i other
    have other : job.core.fileNum ≠ n := other
    let e := if 0 ≤ job.currentFileNum then d.finalizeDownloadFile j job job.currentFileNum true
      else d
    have frame : e.downloadJobs = d.downloadJobs ∧ e.completing = d.completing ∧
        e.reports = d.reports := by
      unfold e
      split
      · exact finalize_frame j job _ true
      · exact ⟨rfl, rfl, rfl⟩
    have cores (i : Nat) : e.core i =
        if i = j ∧ 0 ≤ job.core.fileNum then some ⟨job.core.id, job.core.fileNum, []⟩
        else d.core i := by
      unfold e
      by_cases begun : 0 ≤ job.currentFileNum
      · rw [if_pos begun, core_finalize core]
        simp [DownloadJob.core, begun]
      · rw [if_neg begun]
        simp [DownloadJob.core, begun]
    have saved (i : Nat) : e.savedOf i = d.savedOf i ++
        if i = j then
          if job.core.fileNum ≠ n ∧ 0 ≤ job.core.fileNum then
            nonEmpty [(job.core.fileNum, job.core.content)]
          else []
        else [] := by
      unfold e
      by_cases begun : 0 ≤ job.currentFileNum
      · have begun' : 0 ≤ job.core.fileNum := begun
        rw [if_pos begun, savedOf_finalize]
        simp only [ne_eq, other, not_false_eq_true, begun', and_self, if_true]
        rfl
      · have begun' : ¬ 0 ≤ job.core.fileNum := begun
        rw [if_neg begun]
        simp [begun']
    refine ⟨fun id' i mapped => ⟨frame.1 ▸ mapped, by simp⟩, frame.2.1,
      fun i id' m reported => frame.2.2 ▸ reported, fun i apart => ?_, ⟨[], ?_, ?_⟩, saved⟩
    · have modified := core_modify_at (d := e) (fun job =>
        { job with chunks := [], currentFileNum := n }) j i
      rw [if_neg apart, cores, if_neg (fun here => apart here.1)] at modified
      exact modified
    · have modified := core_modify_at (d := e) (fun job =>
        { job with chunks := [], currentFileNum := n }) j j
      rw [if_pos rfl] at modified
      have own : ∃ k, e.core j = some k ∧ k.id = job.core.id := by
        rw [cores]
        split
        · exact ⟨_, rfl, rfl⟩
        · exact ⟨_, core, rfl⟩
      obtain ⟨k, known, is⟩ := own
      obtain ⟨job', at_j, rfl⟩ := Option.map_eq_some_iff.mp known
      rw [at_j] at modified
      simpa [DownloadJob.core, show job'.id = job.id from is] using modified
    · simp [other]
  · rename_i same
    have same : job.core.fileNum = n := not_not.mp same
    refine ⟨fun id' i mapped => ⟨mapped, by simp⟩, rfl, fun i id' m reported => reported,
      fun i other => rfl, ⟨job.core.content, ?_, by simp [same]⟩, by simp [same]⟩
    rw [core, ← same]

theorem Takes.quiet {d' d'' : Downloads} {id : Int} {j : Nat} {k : Core} {n : Int}
    {bytes : Option Bytes} (takes : Takes d d' id j k n bytes) (quiet : Quiet d' d'') :
    Takes d d'' id j k n bytes where
  map := fun id' i mapped => takes.map id' i (quiet.map id' i mapped)
  completing := quiet.completing.trans takes.completing
  reports := fun i id' m reported => takes.reports i id' m (quiet.reports i id' m reported)
  others := fun i other => (quiet.cores i).trans (takes.others i other)
  core := by
    rw [quiet.cores]
    exact takes.core
  saved := fun i => by
    rw [Downloads.savedOf, quiet.saved]
    exact takes.saved i

theorem Takes.drop {d' : Downloads} {id : Int} {j : Nat} {k : Core} {n : Int}
    {bytes : Option Bytes} (takes : Takes d d' id j k n bytes) :
    Takes d (d'.delete id) id j k n none := by
  obtain ⟨content, core, -⟩ := takes.core
  refine { takes with map := fun id' i mapped => ?_, core := ⟨content, core, by simp⟩ }
  obtain ⟨other, mapped⟩ := TreeMaps.of_erase mapped
  exact ⟨(takes.map id' i mapped).1, fun _ => other⟩

theorem Takes.push {d' : Downloads} {id : Int} {j : Nat} {k : Core} {n : Int}
    (takes : Takes d d' id j k n (some [])) (data : Bytes) (size : Nat) :
    Takes d (d'.modify j fun job =>
      { job with chunks := job.chunks ++ [data], receivedBytes := job.receivedBytes + size })
      id j k n (some data) := by
  obtain ⟨content, core, holds⟩ := takes.core
  refine { takes with
    map := fun id' i mapped => ⟨(takes.map id' i mapped).1, by simp⟩
    others := fun i other => ?_
    core := ⟨content ++ data, ?_, ?_⟩ }
  · rw [core_modify_at, if_neg other]
    exact takes.others i other
  · rw [core_modify_at, if_pos rfl]
    obtain ⟨job, at_j, is⟩ := Option.map_eq_some_iff.mp core
    have ids : job.id = k.id := congrArg Core.id is
    have nums : job.currentFileNum = n := congrArg Core.fileNum is
    have contents : job.chunks.flatten = content := congrArg Core.content is
    rw [at_j]
    simp [DownloadJob.core, ids, nums, contents]
  · intro data' is
    rw [holds [] rfl, List.append_nil, Option.some.inj is]

theorem takes_fileBlock {id : Int} {j : Nat} {job : DownloadJob}
    (mapped : d.downloadJobs[id]? = some j) (found : d.jobs[j]? = some job)
    (live : job.cancelled = false) (n : Int) (data : Bytes) (compressed : Bool) :
    Takes d (d.handleFileBlock decompress id n data compressed true) id j job.core n
      (decoded decompress data compressed) := by
  have turned := (takes_turnTo id found n).quiet (quiet_clear j)
  unfold Downloads.handleFileBlock decoded
  rw [mapped]
  dsimp only
  rw [found]
  dsimp only
  rw [live, if_neg (by simp)]
  by_cases empty : data.isEmpty = true
  · rw [if_pos empty, if_pos empty]
    exact turned
  · rw [if_neg empty, if_neg empty]
    have pushed (data : Bytes) :
        Takes d ((((d.turnTo j job n true).clearDownloadConfirmRetry j).modify j fun job =>
          { job with
            chunks := job.chunks ++ [data]
            receivedBytes := job.receivedBytes + data.length }).emit
              (.jobProgress id n (job.receivedBytes + data.length))) id j job.core n (some data) :=
      (turned.push data data.length).quiet (quiet_emit (by simp))
    have dropped (err : String) :
        Takes d ((((d.turnTo j job n true).clearDownloadConfirmRetry j).emit
          (.jobError (some id) (some n) err)).delete id) id j job.core n none :=
      (turned.quiet (quiet_emit (by simp))).drop
    cases compressed with
    | false =>
      simp only [Bool.false_eq_true, if_false]
      rw [if_neg empty]
      exact pushed data
    | true =>
      simp only [if_true]
      cases decompress data with
      | none => exact dropped "decompress_failed"
      | some data =>
        by_cases nothing : data.isEmpty = true
        · rw [Option.filter_some, if_neg (by simp [nothing])]
          simpa [nothing] using dropped "invalid_file_block"
        · rw [Option.filter_some, if_pos (by simpa using nothing)]
          simpa [nothing] using pushed data

theorem Tracked.fileBlock (tracked : Tracked d got) (id : Int) {n : Int} (data : Bytes)
    (compressed : Bool) (nonneg : 0 ≤ n) (unfinished : d.Unfinished id) :
    Tracked (d.handleFileBlock decompress id n data compressed true) fun j =>
      got j ++ ((d.taken decompress (.fileBlock id n data compressed true)).filter
        (·.1 = j)).map (·.2) := by
  cases mapped : d.downloadJobs[id]? with
  | none => simpa [Downloads.handleFileBlock, Downloads.taken, mapped] using tracked
  | some j =>
    cases found : d.jobs[j]? with
    | none => simpa [Downloads.handleFileBlock, Downloads.taken, mapped, found] using tracked
    | some job =>
      cases live : job.cancelled with
      | true =>
        simpa [Downloads.handleFileBlock, Downloads.taken, mapped, found, live] using tracked
      | false =>
        have takes : Takes d (d.handleFileBlock decompress id n data compressed true) id j job.core
            n (decoded decompress data compressed) :=
          takes_fileBlock mapped found live n data compressed
        have next := tracked.takes mapped (core_of_found found) nonneg unfinished takes
        convert next using 3 with i
        cases bytes : decoded decompress data compressed with
        | none => simp [Downloads.taken, mapped, found, live, bytes]
        | some bytes =>
          by_cases same : i = j
          · simp [Downloads.taken, mapped, found, live, bytes, same]
          · simp [Downloads.taken, mapped, found, live, bytes, same, Ne.symm same]

/-- Blocks come with the numbers of files, none while the job is being completed, and the
browser saves what they complete. -/
def Orderly (d : Downloads) : DownloadEvent → Prop
  | .fileBlock id fileNum _ _ saves => 0 ≤ fileNum ∧ saves = true ∧ d.Unfinished id
  | _ => True

instance (d : Downloads) (id : Int) : Decidable (d.Unfinished id) :=
  inferInstanceAs (Decidable (∀ c ∈ d.completing, d.downloadJobs[id]? ≠ some c.job))

instance (d : Downloads) : ∀ e, Decidable (Orderly d e)
  | .fileBlock id fileNum _ _ saves =>
    inferInstanceAs (Decidable (0 ≤ fileNum ∧ saves = true ∧ d.Unfinished id))
  | .session _ | .requestDownload _ _ _ _ | .dir _ _ _ | .fileDigest _ _ | .fileDone _ _ _
  | .complete | .fileError _ _ | .cancelJob _ | .retry _ => .isTrue trivial

/-- The blocks that the job took in a run. -/
def blocksOf (setup : Setup) (encode : DownloadMessage → Bytes)
    (decompress : Bytes → Option Bytes) (es : List DownloadEvent) (j : Nat) : List (Int × Bytes) :=
  ((collect (Downloads.step setup encode decompress) (Downloads.taken decompress) {} es).filter
    (·.1 = j)).map (·.2)

theorem Tracked.step (tracked : Tracked d got) {e : DownloadEvent} (orderly : Orderly d e) :
    Tracked (d.step setup encode decompress e) fun j =>
      got j ++ ((d.taken decompress e).filter (·.1 = j)).map (·.2) := by
  have quiet {d' : Downloads} (nothing : d.taken decompress e = []) (tracked' : Tracked d' got) :
      Tracked d' fun j => got j ++ ((d.taken decompress e).filter (·.1 = j)).map (·.2) := by
    simpa [nothing] using tracked'
  cases e with
  | fileBlock id n data compressed saves =>
    obtain ⟨nonneg, rfl, unfinished⟩ := orderly
    exact tracked.fileBlock id data compressed nonneg unfinished
  | session e => exact quiet rfl (tracked.quiet (quiet_onSession e))
  | requestDownload id path hidden n => exact quiet rfl (tracked.request id path hidden n)
  | dir id path entries => exact quiet rfl (tracked.quiet (quiet_dir id path entries))
  | fileDigest id n => exact quiet rfl (tracked.quiet (quiet_fileDigest id n))
  | fileDone id n saves => exact quiet rfl (tracked.fileDone id n saves)
  | complete => exact quiet rfl tracked.complete
  | fileError id err => exact quiet rfl (tracked.quiet (quiet_fileError id err))
  | cancelJob id => exact quiet rfl (tracked.quiet (quiet_cancelJob id))
  | retry j => exact quiet rfl (tracked.quiet (quiet_retry j))

theorem tracked_new : Tracked {} fun _ => [] := by
  refine ⟨by simp, by simp, fun j absent => ⟨rfl, rfl⟩, by simp, by simp, by simp⟩

theorem tracked_run {es : List DownloadEvent}
    (orderly : Along (Downloads.step setup encode decompress) Orderly {} es) :
    Tracked (run (Downloads.step setup encode decompress) {} es)
      (blocksOf setup encode decompress es) := by
  induction es using List.reverseRecOn with
  | nil => exact tracked_new
  | append_singleton es e ih =>
    obtain ⟨before, last⟩ := along_snoc.mp orderly
    rw [run_append, run_cons, run_nil]
    convert (ih before).step last using 2 with j
    simp [blocksOf, collect_append, collect]

end CamelliaRemote.Web
