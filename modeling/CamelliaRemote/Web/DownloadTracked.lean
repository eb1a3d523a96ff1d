import CamelliaRemote.Web.Download

namespace CamelliaRemote.Web
open Codec Runs

/-- A block before files. -/
def putFirst (b : Int × Bytes) : List (Int × Bytes) → List (Int × Bytes)
  | [] => [b]
  | file :: files =>
    if file.1 = b.1 then (b.1, b.2 ++ file.2) :: files else b :: file :: files

/-- The files that blocks make up, with their numbers. -/
def filesOf (blocks : List (Int × Bytes)) : List (Int × Bytes) := blocks.foldr putFirst []

/-- A block after files. -/
def putLast (b : Int × Bytes) : List (Int × Bytes) → List (Int × Bytes)
  | [] => [b]
  | [file] => if file.1 = b.1 then [(file.1, file.2 ++ b.2)] else [file, b]
  | file :: files => file :: putLast b files

theorem putLast_append (b file : Int × Bytes) (files : List (Int × Bytes)) :
    putLast b (files ++ [file]) = files ++ putLast b [file] := by
  induction files with
  | nil => rfl
  | cons f files ih =>
    cases files with
    | nil => rfl
    | cons g files => simpa [putLast] using ih

theorem putFirst_putLast (a b : Int × Bytes) (files : List (Int × Bytes)) :
    putFirst a (putLast b files) = putLast b (putFirst a files) := by
  cases files with
  | nil => simp [putFirst, putLast, eq_comm]
  | cons f files =>
    cases files with
    | nil =>
      by_cases fa : f.1 = a.1 <;> by_cases fb : f.1 = b.1 <;> simp_all [putFirst, putLast]
    | cons g files =>
      by_cases same : f.1 = a.1 <;> simp [putFirst, putLast, same]

theorem filesOf_snoc (blocks : List (Int × Bytes)) (b : Int × Bytes) :
    filesOf (blocks ++ [b]) = putLast b (filesOf blocks) := by
  induction blocks with
  | nil => rfl
  | cons a blocks ih =>
    have rest : (blocks ++ [b]).foldr putFirst [] = putLast b (blocks.foldr putFirst []) := ih
    simp only [filesOf, List.cons_append, List.foldr_cons, rest]
    exact putFirst_putLast a b _

/-- The files that are not empty. -/
def nonEmpty (files : List (Int × Bytes)) : List (Int × Bytes) := files.filter (¬ ·.2.isEmpty)

theorem nonEmpty_append (a b : List (Int × Bytes)) :
    nonEmpty (a ++ b) = nonEmpty a ++ nonEmpty b := List.filter_append ..

/-- A job as far as the files go. -/
structure Core where
  id : Int
  fileNum : Int
  content : Bytes

def DownloadJob.core (job : DownloadJob) : Core := ⟨job.id, job.currentFileNum, job.chunks.flatten⟩

/-- The bytes of a block, unless they cannot be had. -/
def decoded (decompress : Bytes → Option Bytes) (data : Bytes) (compressed : Bool) :
    Option Bytes :=
  if data.isEmpty then some []
  else if compressed then (decompress data).filter (!·.isEmpty)
  else some data

namespace Downloads

def core (d : Downloads) (j : Nat) : Option Core := d.jobs[j]?.map DownloadJob.core

/-- The files of a job that were saved and are not empty. -/
def savedOf (d : Downloads) (j : Nat) : List (Int × Bytes) :=
  nonEmpty ((d.saved.filter (·.job = j)).map fun f => (f.fileNum, f.content))

/-- What a job takes of an event: the number and the bytes of a block. -/
def taken (decompress : Bytes → Option Bytes) (d : Downloads) :
    DownloadEvent → List (Nat × Int × Bytes)
  | .fileBlock id fileNum data compressed _ =>
    match d.downloadJobs[id]? with
    | none => []
    | some j =>
      if d.jobs[j]?.any (!·.cancelled) then
        (decoded decompress data compressed).toList.map fun bytes => (j, fileNum, bytes)
      else []
  | _ => []

end Downloads

/-- The file that the job is at is the last that its blocks make up, and those before it are
saved. -/
inductive Active (k : Core) (blocks saved : List (Int × Bytes)) : Prop where
  | unbegun (noBlock : blocks = []) (noFile : saved = []) (nothing : k.content = [])
      (before : k.fileNum < 0)
  | at (files : List (Int × Bytes)) (make : filesOf blocks = files ++ [(k.fileNum, k.content)])
      (kept : saved = nonEmpty files) (number : 0 ≤ k.fileNum)

/-- All files are saved. -/
def Whole (blocks saved : List (Int × Bytes)) : Prop := saved = nonEmpty (filesOf blocks)

/-- **The invariant of the downloads**, with the blocks that each job took. -/
structure Tracked (d : Downloads) (got : Nat → List (Int × Bytes)) : Prop where
  own : ∀ (id : Int) (j : Nat), d.downloadJobs[id]? = some j → ∃ k, d.core j = some k ∧ k.id = id
  ownCompleting : ∀ c ∈ d.completing, ∃ k, d.core c.job = some k ∧ k.id = c.id
  fresh : ∀ j, d.core j = none → got j = [] ∧ d.savedOf j = []
  active : ∀ (id : Int) (j : Nat) (k : Core), d.downloadJobs[id]? = some j → d.core j = some k →
    (∀ c ∈ d.completing, c.job = j → c.saved = false) → Active k (got j) (d.savedOf j)
  ended : ∀ c ∈ d.completing, c.saved = true → ∀ k, d.core c.job = some k →
    k.content = [] ∧ Whole (got c.job) (d.savedOf c.job)
  done : ∀ j id n, .jobDone (some j) id n ∈ d.reports → (∃ k, d.core j = some k) ∧
    (∀ id' : Int, d.downloadJobs[id']? ≠ some j) ∧ Whole (got j) (d.savedOf j)

theorem Active.whole {k : Core} {blocks saved : List (Int × Bytes)} (active : Active k blocks saved)
    {n : Int} (number : 0 ≤ k.fileNum → n = k.fileNum) :
    Whole blocks (saved ++ nonEmpty [(n, k.content)]) := by
  cases active with
  | unbegun noBlock noFile nothing before =>
    simp [Whole, noBlock, noFile, nothing, filesOf, nonEmpty]
  | «at» files make kept nonneg =>
    rw [number nonneg]
    rw [Whole, make, nonEmpty_append, kept]

/-- A block of the file that the job is at, or of another. -/
theorem Active.take {k : Core} {blocks saved : List (Int × Bytes)} (active : Active k blocks saved)
    {n : Int} (nonneg : 0 ≤ n) (bytes : Bytes) :
    Active ⟨k.id, n, (if k.fileNum ≠ n then [] else k.content) ++ bytes⟩ (blocks ++ [(n, bytes)])
      (saved ++
        if k.fileNum ≠ n ∧ 0 ≤ k.fileNum then nonEmpty [(k.fileNum, k.content)] else []) := by
  cases active with
  | unbegun noBlock noFile nothing before =>
    have other : k.fileNum ≠ n := by omega
    refine .at [] ?_ ?_ nonneg
    · simp [noBlock, filesOf, putFirst, other]
    · simp [noFile, nothing, other, nonEmpty]
  | «at» files make kept number =>
    by_cases same : k.fileNum = n
    · refine .at files ?_ ?_ nonneg
      · simp [filesOf_snoc, make, putLast_append, putLast, same]
      · simp [kept, same]
    · refine .at (files ++ [(k.fileNum, k.content)]) ?_ ?_ nonneg
      · simp [filesOf_snoc, make, putLast_append, putLast, same]
      · simp [kept, same, number, nonEmpty_append]

/-- The downloads are as they were, unless some are forgotten. -/
structure Quiet (d d' : Downloads) : Prop where
  cores : ∀ j, d'.core j = d.core j
  map : ∀ (id : Int) (j : Nat), d'.downloadJobs[id]? = some j → d.downloadJobs[id]? = some j
  completing : d'.completing = d.completing
  saved : d'.saved = d.saved
  reports : ∀ j id n, .jobDone (some j) id n ∈ d'.reports → .jobDone (some j) id n ∈ d.reports

theorem Tracked.quiet {d d' : Downloads} {got : Nat → List (Int × Bytes)} (tracked : Tracked d got)
    (quiet : Quiet d d') : Tracked d' got := by
  have savedOf (j : Nat) : d'.savedOf j = d.savedOf j := by
    rw [Downloads.savedOf, quiet.saved, Downloads.savedOf]
  constructor
  · intro id j mapped
    rw [quiet.cores]
    exact tracked.own id j (quiet.map id j mapped)
  · intro c mem
    rw [quiet.cores]
    exact tracked.ownCompleting c (quiet.completing ▸ mem)
  · intro j absent
    rw [quiet.cores] at absent
    rw [savedOf]
    exact tracked.fresh j absent
  · intro id j k mapped found failed
    rw [quiet.cores] at found
    rw [quiet.completing] at failed
    rw [savedOf]
    exact tracked.active id j k (quiet.map id j mapped) found failed
  · intro c mem saved k found
    rw [quiet.cores] at found
    rw [savedOf]
    exact tracked.ended c (quiet.completing ▸ mem) saved k found
  · intro j id n reported
    obtain ⟨found, gone, whole⟩ := tracked.done j id n (quiet.reports j id n reported)
    rw [savedOf, quiet.cores]
    exact ⟨found, fun id' mapped => gone id' (quiet.map id' j mapped), whole⟩

theorem Quiet.refl (d : Downloads) : Quiet d d :=
  ⟨fun _ => rfl, fun _ _ mapped => mapped, rfl, rfl, fun _ _ _ reported => reported⟩

theorem Quiet.trans {d d' d'' : Downloads} (first : Quiet d d') (second : Quiet d' d'') :
    Quiet d d'' where
  cores := fun j => (second.cores j).trans (first.cores j)
  map := fun id j mapped => first.map id j (second.map id j mapped)
  completing := second.completing.trans first.completing
  saved := second.saved.trans first.saved
  reports := fun j id n reported => first.reports j id n (second.reports j id n reported)

section Quiet

variable {setup : Setup} {encode : DownloadMessage → Bytes} {d : Downloads}

theorem core_modify (f : DownloadJob → DownloadJob) (same : ∀ job, (f job).core = job.core)
    (j i : Nat) : (d.modify j f).core i = d.core i := by
  simp only [Downloads.core, Downloads.modify, List.getElem?_modify]
  by_cases here : j = i
  · cases d.jobs[i]? with
    | none => simp
    | some job => simp [here, same]
  · cases d.jobs[i]? <;> simp [here]

theorem quiet_modify (f : DownloadJob → DownloadJob) (same : ∀ job, (f job).core = job.core)
    (j : Nat) : Quiet d (d.modify j f) :=
  ⟨core_modify f same j, fun _ _ mapped => mapped, rfl, rfl, fun _ _ _ reported => reported⟩

theorem quiet_sendMessage (message : DownloadMessage) : Quiet d (d.sendMessage encode message) :=
  ⟨fun _ => rfl, fun _ _ mapped => mapped, rfl, rfl, fun _ _ _ reported => reported⟩

theorem quiet_delete (id : Int) : Quiet d (d.delete id) :=
  ⟨fun _ => rfl, fun _ _ mapped => (TreeMaps.of_erase mapped).2, rfl, rfl,
    fun _ _ _ reported => reported⟩

theorem quiet_emit {report : DownloadReport} (other : ∀ j id n, report ≠ .jobDone (some j) id n) :
    Quiet d (d.emit report) := by
  refine ⟨fun _ => rfl, fun _ _ mapped => mapped, rfl, rfl, fun j id n reported => ?_⟩
  rcases List.mem_append.mp reported with before | here
  · exact before
  · exact absurd (List.mem_singleton.mp here).symm (other j id n)

theorem quiet_clear (j : Nat) : Quiet d (d.clearDownloadConfirmRetry j) :=
  quiet_modify (fun job => { job with confirmRetryTimer := none }) (fun _ => rfl) j

theorem quiet_schedule (j : Nat) (fileNum : Int) :
    Quiet d (d.scheduleDownloadConfirmRetry j fileNum) := by
  refine quiet_modify _ (fun job => ?_) j
  split <;> rfl

theorem quiet_retry (j : Nat) : Quiet d (d.retry encode j) := by
  unfold Downloads.retry
  split
  · exact .refl d
  · split
    · exact .refl d
    · split
      · exact quiet_clear j
      · exact quiet_sendMessage _

theorem quiet_dir (id : Int) (path : String) (entries : List FileEntryInfo) :
    Quiet d (d.dir encode id path entries) := by
  unfold Downloads.dir
  refine Quiet.trans ?_ (quiet_emit (by simp))
  split
  · exact .refl d
  · split
    · exact .refl d
    · rename_i j _ _
      let size := (entries.map (·.size)).sum
      let sized (job : DownloadJob) : DownloadJob :=
        { job with files := entries, totalSize := size }
      have listed : Quiet d ((d.modify j sized).emit (.updateFolderFiles id entries.length size)) :=
        (quiet_modify sized (fun _ => rfl) j).trans (quiet_emit (by simp))
      dsimp only
      split
      · exact (listed.trans (quiet_sendMessage _)).trans (quiet_schedule j 0)
      · exact listed

theorem quiet_fileDigest (id fileNum : Int) : Quiet d (d.handleFileDigest encode id fileNum) := by
  unfold Downloads.handleFileDigest
  split
  · exact .refl d
  · exact (quiet_sendMessage _).trans (quiet_schedule _ fileNum)

theorem quiet_cancelDownload (id : Int) : Quiet d (d.cancelDownload id) := by
  unfold Downloads.cancelDownload
  split
  · exact .refl d
  · rename_i j _
    exact (quiet_modify (fun job => { job with cancelled := true, confirmRetryTimer := none })
      (fun _ => rfl) j).trans (quiet_delete id)

theorem quiet_fileError (id : Option Int) (err : String) : Quiet d (d.fileError id err) := by
  unfold Downloads.fileError
  have told : Quiet d (d.emit (.jobError id none err)) := quiet_emit (by simp)
  cases id with
  | none => exact told
  | some id => exact told.trans (quiet_cancelDownload id)

theorem quiet_cancelJob (id : Int) : Quiet d (d.cancelJob encode id) := by
  unfold Downloads.cancelJob
  split
  · exact .refl d
  · exact (quiet_cancelDownload id).trans (quiet_sendMessage _)

theorem quiet_onSession (e : SessionEvent) : Quiet d (d.onSession setup e) := by
  unfold Downloads.onSession
  dsimp only
  split
  · refine ⟨fun j => ?_, ?_, rfl, rfl, fun _ _ _ reported => reported⟩
    · simp only [Downloads.core, Downloads.cancelAll, List.getElem?_mapIdx, Option.map_map]
      rfl
    · intro id j mapped
      simp [Downloads.cancelAll] at mapped
  · exact ⟨fun _ => rfl, fun _ _ mapped => mapped, rfl, rfl, fun _ _ _ reported => reported⟩

end Quiet

variable {encode : DownloadMessage → Bytes} {decompress : Bytes → Option Bytes} {d : Downloads}
  {got : Nat → List (Int × Bytes)}

theorem core_lt {d : Downloads} {j : Nat} {k : Core} (found : d.core j = some k) :
    j < d.jobs.length := by
  obtain ⟨job, at_j, -⟩ := Option.map_eq_some_iff.mp found
  exact (List.getElem?_eq_some_iff.mp at_j).1

theorem Tracked.lt (tracked : Tracked d got) {id : Int} {j : Nat}
    (mapped : d.downloadJobs[id]? = some j) : j < d.jobs.length := by
  obtain ⟨k, found, -⟩ := tracked.own id j mapped
  exact core_lt found

/-- A job is known under one id. -/
theorem Tracked.one (tracked : Tracked d got) {id id' : Int} {j : Nat}
    (mapped : d.downloadJobs[id]? = some j) (mapped' : d.downloadJobs[id']? = some j) :
    id = id' := by
  obtain ⟨k, found, rfl⟩ := tracked.own id j mapped
  obtain ⟨k', found', rfl⟩ := tracked.own id' j mapped'
  rw [found] at found'
  rw [Option.some.inj found']

theorem Tracked.request (tracked : Tracked d got) (id : Int) (path : String) (hidden : Bool)
    (fileNum : Int) : Tracked (d.requestDownload encode id path hidden fileNum) got := by
  unfold Downloads.requestDownload
  split
  · exact tracked
  · refine Tracked.quiet ?_ (quiet_sendMessage _)
    have core (j : Nat) (k : Core) (found : d.core j = some k) :
        (d.jobs ++ [{ id, remotePath := path }])[j]?.map DownloadJob.core = some k := by
      rw [List.getElem?_append_left (core_lt found)]
      exact found
    have last : (d.jobs ++ [({ id, remotePath := path } : DownloadJob)])[d.jobs.length]? =
        some { id, remotePath := path } := List.getElem?_concat_length
    have absent : d.core d.jobs.length = none := by simp [Downloads.core]
    constructor
    · intro id' j mapped
      rcases TreeMaps.of_insert mapped with ⟨rfl, rfl⟩ | ⟨-, mapped⟩
      · exact ⟨_, congrArg (Option.map _) last, rfl⟩
      · obtain ⟨k, found, is⟩ := tracked.own id' j mapped
        exact ⟨k, core j k found, is⟩
    · intro c mem
      obtain ⟨k, found, is⟩ := tracked.ownCompleting c mem
      exact ⟨k, core c.job k found, is⟩
    · intro j none
      refine tracked.fresh j ?_
      cases found : d.core j with
      | none => rfl
      | some k => exact absurd ((core j k found).symm.trans none) (by simp)
    · intro id' j k mapped found failed
      rcases TreeMaps.of_insert mapped with ⟨-, rfl⟩ | ⟨-, mapped⟩
      · have is := (congrArg (Option.map DownloadJob.core) last).symm.trans found
        obtain ⟨noBlock, noFile⟩ := tracked.fresh _ absent
        cases is
        exact .unbegun noBlock noFile rfl (show (-1 : Int) < 0 by decide)
      · obtain ⟨k', found', -⟩ := tracked.own id' j mapped
        have same : k' = k := Option.some.inj ((core j k' found').symm.trans found)
        exact tracked.active id' j k mapped (same ▸ found') failed
    · intro c mem saved k found
      obtain ⟨k', found', -⟩ := tracked.ownCompleting c mem
      have same : k' = k := Option.some.inj ((core c.job k' found').symm.trans found)
      exact tracked.ended c mem saved k (same ▸ found')
    · intro j id' n reported
      obtain ⟨⟨k, found⟩, gone, whole⟩ := tracked.done j id' n reported
      refine ⟨⟨k, core j k found⟩, fun other mapped => ?_, whole⟩
      rcases TreeMaps.of_insert mapped with ⟨-, rfl⟩ | ⟨-, mapped⟩
      · exact absurd (found.symm.trans absent) (by simp)
      · exact gone other mapped

/-- What the end of a file adds to the saved files of a job. -/
theorem savedOf_finalize {j : Nat} {job : DownloadJob} (n : Int) (i : Nat) :
    (d.finalizeDownloadFile j job n true).savedOf i =
      d.savedOf i ++ if i = j then nonEmpty [(n, job.chunks.flatten)] else [] := by
  unfold Downloads.finalizeDownloadFile
  split
  · rename_i needless
    simp only [Bool.and_eq_true, List.isEmpty_iff] at needless
    simp [needless.1, nonEmpty]
  · by_cases same : i = j
    · simp [Downloads.savedOf, Downloads.modify, List.filter_append, nonEmpty_append, same]
    · simp [Downloads.savedOf, Downloads.modify, List.filter_append, same, Ne.symm same]

theorem finalize_frame (j : Nat) (job : DownloadJob) (n : Int) (saves : Bool) :
    (d.finalizeDownloadFile j job n saves).downloadJobs = d.downloadJobs ∧
      (d.finalizeDownloadFile j job n saves).completing = d.completing ∧
      (d.finalizeDownloadFile j job n saves).reports = d.reports := by
  unfold Downloads.finalizeDownloadFile
  split
  · exact ⟨rfl, rfl, rfl⟩
  · split <;> exact ⟨rfl, rfl, rfl⟩

/-- The core of a job after a change of one job. -/
theorem core_modify_at (f : DownloadJob → DownloadJob) (j i : Nat) :
    (d.modify j f).core i =
      if i = j then (d.jobs[j]?).map fun job => (f job).core else d.core i := by
  simp only [Downloads.core, Downloads.modify, List.getElem?_modify]
  by_cases here : i = j
  · cases found : d.jobs[j]? <;> simp [here, found]
  · cases found : d.jobs[i]? <;> simp [here, Ne.symm here]

theorem core_finalize {j : Nat} {job : DownloadJob} (found : d.core j = some job.core) (n : Int)
    (i : Nat) :
    (d.finalizeDownloadFile j job n true).core i =
      if i = j then some ⟨job.id, job.currentFileNum, []⟩ else d.core i := by
  unfold Downloads.finalizeDownloadFile
  split
  · rename_i needless
    simp only [Bool.and_eq_true, List.isEmpty_iff] at needless
    by_cases same : i = j
    · rw [if_pos same, same, found]
      simp [DownloadJob.core, needless.1]
    · simp [same]
  · obtain ⟨job', at_j, is⟩ := Option.map_eq_some_iff.mp found
    have ids : job'.id = job.id := congrArg Core.id is
    have nums : job'.currentFileNum = job.currentFileNum := congrArg Core.fileNum is
    have modified := core_modify_at (d := d) (fun job => { job with chunks := [] }) j i
    rw [at_j] at modified
    simp only [Option.map_some, DownloadJob.core, ids, nums] at modified
    exact modified

theorem finalize_unsaved (j : Nat) (job : DownloadJob) (n : Int) :
    d.finalizeDownloadFile j job n false = d := by
  unfold Downloads.finalizeDownloadFile
  split <;> simp

/-- A job whose files are all saved, or that could not save the last. -/
structure Finishes (d d' : Downloads) (j : Nat) (k : Core) (c : Completing) (n : Int) : Prop where
  map : d'.downloadJobs = d.downloadJobs
  completing : d'.completing = d.completing ++ [c]
  reports : d'.reports = d.reports
  cores : ∀ i, d'.core i = if i = j ∧ c.saved then some ⟨k.id, k.fileNum, []⟩ else d.core i
  saved : ∀ i, d'.savedOf i =
    d.savedOf i ++ if i = j ∧ c.saved then nonEmpty [(n, k.content)] else []

theorem Tracked.whole (tracked : Tracked d got) {id : Int} {j : Nat} {k : Core}
    (mapped : d.downloadJobs[id]? = some j) (found : d.core j = some k) {n : Int}
    (number : 0 ≤ k.fileNum → n = k.fileNum) :
    Whole (got j) (d.savedOf j ++ nonEmpty [(n, k.content)]) := by
  by_cases failed : ∀ c ∈ d.completing, c.job = j → c.saved = false
  · exact (tracked.active id j k mapped found failed).whole number
  · simp only [not_forall, Bool.not_eq_false] at failed
    obtain ⟨c, mem, rfl, saved⟩ := failed
    obtain ⟨empty, whole⟩ := tracked.ended c mem saved k found
    simpa [empty, nonEmpty] using whole

theorem Tracked.finishes (tracked : Tracked d got) {d' : Downloads} {id : Int} {j : Nat} {k : Core}
    {c : Completing} {n : Int} (mapped : d.downloadJobs[id]? = some j) (found : d.core j = some k)
    (finishes : Finishes d d' j k c n) (job : c.job = j) (own : c.id = id)
    (number : 0 ≤ k.fileNum → n = k.fileNum) : Tracked d' got := by
  subst job
  have whole := tracked.whole mapped found number
  have core (i : Nat) (k' : Core) (found' : d'.core i = some k') :
      d.core i = some k' ∨ i = c.job ∧ c.saved = true ∧ k'.content = [] := by
    rw [finishes.cores] at found'
    split at found'
    · rename_i here
      cases found'
      exact .inr ⟨here.1, here.2, rfl⟩
    · exact .inl found'
  have kept (i : Nat) (k' : Core) (found' : d.core i = some k') :
      ∃ k'', d'.core i = some k'' ∧ k''.id = k'.id := by
    rw [finishes.cores]
    split
    · rename_i here
      rw [here.1, found] at found'
      cases found'
      exact ⟨_, rfl, rfl⟩
    · exact ⟨k', found', rfl⟩
  obtain ⟨k₀, found₀, is₀⟩ := tracked.own id c.job mapped
  constructor
  · intro id' j mapped'
    rw [finishes.map] at mapped'
    obtain ⟨k', found', is⟩ := tracked.own id' j mapped'
    obtain ⟨k'', found'', same⟩ := kept j k' found'
    exact ⟨k'', found'', same.trans is⟩
  · intro c' mem
    rw [finishes.completing] at mem
    rcases List.mem_append.mp mem with mem | mem
    · obtain ⟨k', found', is⟩ := tracked.ownCompleting c' mem
      obtain ⟨k'', found'', same⟩ := kept c'.job k' found'
      exact ⟨k'', found'', same.trans is⟩
    · rw [List.mem_singleton.mp mem]
      obtain ⟨k'', found'', same⟩ := kept c.job k₀ found₀
      exact ⟨k'', found'', same.trans (is₀.trans own.symm)⟩
  · intro i absent'
    have absent : d.core i = none := by
      cases found' : d.core i with
      | none => rfl
      | some k' =>
        obtain ⟨k'', found'', -⟩ := kept i k' found'
        exact absurd (found''.symm.trans absent') (by simp)
    obtain ⟨noBlock, noFile⟩ := tracked.fresh i absent
    refine ⟨noBlock, ?_⟩
    rw [finishes.saved, if_neg, noFile]
    · rfl
    · rintro ⟨rfl, -⟩
      exact absurd (found.symm.trans absent) (by simp)
  · intro id' i k' mapped' found' failed
    rw [finishes.map] at mapped'
    rw [finishes.completing] at failed
    have here : ¬ (i = c.job ∧ c.saved = true) := by
      rintro ⟨rfl, saved⟩
      exact absurd (saved.symm.trans (failed c (by simp) rfl)) (by simp)
    rw [finishes.cores, if_neg here] at found'
    rw [finishes.saved, if_neg here, List.append_nil]
    exact tracked.active id' i k' mapped' found' fun c' mem => failed c' (by simp [mem])
  · intro c' mem saved k' found'
    rw [finishes.completing] at mem
    by_cases here : c'.job = c.job ∧ c.saved = true
    · rw [finishes.cores, if_pos here] at found'
      cases found'
      rw [finishes.saved, if_pos here, here.1]
      exact ⟨rfl, whole⟩
    · rw [finishes.cores, if_neg here] at found'
      rw [finishes.saved, if_neg here, List.append_nil]
      rcases List.mem_append.mp mem with mem | mem
      · exact tracked.ended c' mem saved k' found'
      · rw [List.mem_singleton.mp mem] at here saved
        exact absurd ⟨rfl, saved⟩ here
  · intro i id' m reported
    rw [finishes.reports] at reported
    obtain ⟨⟨k', found'⟩, gone, all⟩ := tracked.done i id' m reported
    have other : i ≠ c.job := by
      rintro rfl
      exact gone id mapped
    obtain ⟨k'', found'', -⟩ := kept i k' found'
    refine ⟨⟨k'', found''⟩, fun other => finishes.map ▸ gone other, ?_⟩
    rw [finishes.saved, if_neg (fun here => other here.1), List.append_nil]
    exact all

theorem core_of_found {j : Nat} {job : DownloadJob} (found : d.jobs[j]? = some job) :
    d.core j = some job.core := by
  rw [Downloads.core, found]
  rfl

theorem finishes_finalize {j : Nat} {job : DownloadJob} (found : d.core j = some job.core)
    (id n m : Int) (saves : Bool) :
    let needless := job.chunks.isEmpty && (job.entry m).map (·.size) ≠ some 0
    Finishes d { d.finalizeDownloadFile j job m saves with
      completing := (d.finalizeDownloadFile j job m saves).completing ++
        [⟨id, n, j, needless || saves⟩] } j job.core ⟨id, n, j, needless || saves⟩ m := by
  intro needless
  obtain ⟨map, completing, reports⟩ := finalize_frame (d := d) j job m saves
  refine ⟨map, by rw [completing], reports, fun i => ?_, fun i => ?_⟩
  · show (d.finalizeDownloadFile j job m saves).core i = _
    cases saves with
    | true =>
      rw [core_finalize found]
      simp [DownloadJob.core]
    | false =>
      rw [finalize_unsaved]
      split
      · rename_i here
        have empty : needless = true := by simpa using here.2
        simp only [needless, Bool.and_eq_true, List.isEmpty_iff] at empty
        rw [here.1, found]
        simp [DownloadJob.core, empty.1]
      · rfl
  · show (d.finalizeDownloadFile j job m saves).savedOf i = _
    cases saves with
    | true =>
      rw [savedOf_finalize]
      simp [DownloadJob.core]
    | false =>
      rw [finalize_unsaved]
      split
      · rename_i here
        have empty : needless = true := by simpa using here.2
        simp only [needless, Bool.and_eq_true, List.isEmpty_iff] at empty
        simp [DownloadJob.core, empty.1, nonEmpty]
      · simp

theorem Tracked.fileDone (tracked : Tracked d got) (id n : Int) (saves : Bool) :
    Tracked (d.handleFileDone id n saves) got := by
  unfold Downloads.handleFileDone
  split
  · exact tracked.quiet (quiet_emit (by simp))
  · rename_i j mapped
    split
    · exact tracked
    · rename_i job found
      split
      · exact tracked.quiet (quiet_emit (by simp))
      · have cleared : (d.clearDownloadConfirmRetry j).core j = some job.core := by
          rw [(quiet_clear j).cores]
          exact core_of_found found
        have before := tracked.quiet (quiet_clear (d := d) j)
        exact before.finishes mapped cleared (finishes_finalize cleared id n _ saves) rfl rfl
          (fun pos => if_pos pos)

/-- A job that was waiting to be completed is reported and forgotten. -/
structure Completes (d d' : Downloads) (c : Completing) : Prop where
  cores : ∀ j, d'.core j = d.core j
  map : ∀ (id : Int) (j : Nat), d'.downloadJobs[id]? = some j →
    id ≠ c.id ∧ d.downloadJobs[id]? = some j
  completing : d.completing = c :: d'.completing
  saved : d'.saved = d.saved
  reports : ∀ j id n, .jobDone (some j) id n ∈ d'.reports →
    .jobDone (some j) id n ∈ d.reports ∨ j = c.job ∧ c.saved = true

theorem Tracked.completes (tracked : Tracked d got) {d' : Downloads} {c : Completing}
    (completes : Completes d d' c) : Tracked d' got := by
  have savedOf (j : Nat) : d'.savedOf j = d.savedOf j := by
    rw [Downloads.savedOf, completes.saved, Downloads.savedOf]
  have first : c ∈ d.completing := completes.completing ▸ List.mem_cons_self
  have later (c' : Completing) (mem : c' ∈ d'.completing) : c' ∈ d.completing :=
    completes.completing ▸ List.mem_cons_of_mem c mem
  obtain ⟨k₀, found₀, is₀⟩ := tracked.ownCompleting c first
  have gone (id : Int) : d'.downloadJobs[id]? ≠ some c.job := by
    intro mapped
    obtain ⟨other, mapped⟩ := completes.map id c.job mapped
    obtain ⟨k, found, is⟩ := tracked.own id c.job mapped
    rw [found₀, Option.some.injEq] at found
    exact other (is.symm.trans (found ▸ is₀))
  constructor
  · intro id j mapped
    rw [completes.cores]
    exact tracked.own id j (completes.map id j mapped).2
  · intro c' mem
    rw [completes.cores]
    exact tracked.ownCompleting c' (later c' mem)
  · intro j absent
    rw [completes.cores] at absent
    rw [savedOf]
    exact tracked.fresh j absent
  · intro id j k mapped found failed
    rw [completes.cores] at found
    rw [savedOf]
    refine tracked.active id j k (completes.map id j mapped).2 found fun c' mem same => ?_
    rw [completes.completing] at mem
    rcases List.mem_cons.mp mem with rfl | mem
    · exact absurd (same ▸ mapped) (gone id)
    · exact failed c' mem same
  · intro c' mem saved k found
    rw [completes.cores] at found
    rw [savedOf]
    exact tracked.ended c' (later c' mem) saved k found
  · intro j id n reported
    rw [savedOf, completes.cores]
    rcases completes.reports j id n reported with before | ⟨rfl, saved⟩
    · obtain ⟨found, gone, whole⟩ := tracked.done j id n before
      exact ⟨found, fun id' mapped => gone id' (completes.map id' j mapped).2, whole⟩
    · exact ⟨⟨k₀, found₀⟩, gone, (tracked.ended c first saved k₀ found₀).2⟩

theorem completes_complete {c : Completing} {completing : List Completing}
    (queue : d.completing = c :: completing) : Completes d d.complete c := by
  unfold Downloads.complete
  rw [queue]
  dsimp only
  let waiting : Downloads := { d with completing }
  have closes {e : Downloads} (quiet : Quiet waiting e) (reports : List DownloadReport)
      (done : ∀ j id n, .jobDone (some j) id n ∈ reports → j = c.job ∧ c.saved = true) :
      Completes d ((({ e with reports := e.reports ++ reports } : Downloads)
        |>.clearDownloadConfirmRetry c.job).delete c.id) c := by
    refine ⟨fun j => ((quiet_clear c.job).cores j).trans (quiet.cores j), ?_, ?_, quiet.saved, ?_⟩
    · intro id j mapped
      obtain ⟨other, mapped⟩ := TreeMaps.of_erase mapped
      exact ⟨other, quiet.map id j mapped⟩
    · rw [queue]
      exact congrArg _ quiet.completing.symm
    · intro j id n reported
      rcases List.mem_append.mp reported with before | here
      · exact .inl (quiet.reports j id n before)
      · exact .inr (done j id n here)
  split
  · exact closes (.refl waiting) [_] (by simp)
  · rename_i saved
    have saved : c.saved = true := by simpa using saved
    split
    · simpa using closes (.refl waiting) [] (by simp)
    · rename_i job found
      have done (j : Nat) (id n : Int) (here : DownloadReport.jobDone (some j) id n ∈
          [DownloadReport.jobDone (some c.job) c.id c.reportedFileNum]) :
          j = c.job ∧ c.saved = true := by
        simp only [List.mem_singleton, DownloadReport.jobDone.injEq, Option.some.injEq] at here
        exact ⟨here.1, saved⟩
      generalize (if 0 < job.totalSize then job.totalSize else job.receivedBytes) = finished
      split
      · exact closes ((quiet_modify (d := waiting) (fun job =>
          { job with
            totalSize := max job.totalSize finished
            receivedBytes := max job.receivedBytes finished }) (fun _ => rfl) c.job).trans
              (quiet_emit (by simp))) [_] done
      · exact closes (.refl waiting) [_] done

theorem Tracked.complete (tracked : Tracked d got) : Tracked d.complete got := by
  cases queue : d.completing with
  | nil => simpa [Downloads.complete, queue] using tracked
  | cons c completing => exact tracked.completes (completes_complete queue)

end CamelliaRemote.Web
