import CamelliaRemote.Web.Sealing
import CamelliaRemote.Web.Upload
import Mathlib.Algebra.Order.BigOperators.Group.List

namespace CamelliaRemote.Web
open Codec
open Std (ExtTreeMap)

variable {setup : Setup} {encode : UploadMessage → Bytes} {u u' : Uploads} {i j : Nat}
  {job job' : UploadJob} {blocks : List Bytes} {offset : Nat}

/-! ## What the transport takes -/

theorem WebSocketTransport.send_socket (t : WebSocketTransport) (origin : Origin) (data : Bytes) :
    (t.send origin data).socket = t.socket := by
  unfold WebSocketTransport.send
  split
  · rfl
  · split
    · split <;> rfl
    · rfl

@[simp] theorem accepting_sendMessage (s : WebSession) (origin : Origin) (data : Bytes) :
    (s.sendMessage origin data).accepting = s.accepting := by
  unfold WebSession.sendMessage
  split
  · simp only [WebSession.accepting, WebSession.sendTransport, WebSocketTransport.send_isOpen,
      WebSocketTransport.send_socket]
  · rfl

/-! ## One job -/

namespace Uploads

def messagesOf (u : Uploads) (j : Nat) : List UploadMessage := (u.sendsOf j).map Send.message

end Uploads

/-- What a job has sent and reported, by where its loop is. -/
structure JobSound (job : UploadJob) (messages : List UploadMessage) (done : Prop) : Prop where
  fresh : job.started = false →
    messages = [] ∧ job.awaiting = none ∧ job.nextBlockId = 0 ∧ ¬ done
  waits : ∀ offset, job.awaiting = some offset → ¬ done ∧ offset < job.file.length ∧
    ∃ blocks, messages = job.blockMessages blocks ∧ blocks.length = job.nextBlockId ∧
      Cut blocks (job.file.take offset)
  finished : done → job.awaiting = none ∧
    ∃ blocks, messages = job.messages blocks ∧ Cut blocks job.file

/-- The job may have been cancelled, and its loop left. -/
structure Softer (job job' : UploadJob) : Prop where
  id : job'.id = job.id
  file : job'.file = job.file
  fileNum : job'.fileNum = job.fileNum
  started : job'.started = job.started
  nextBlockId : job'.nextBlockId = job.nextBlockId
  awaiting : job'.awaiting = job.awaiting ∨ job'.awaiting = none

theorem Softer.messages (h : Softer job job') (blocks : List Bytes) :
    job'.blockMessages blocks = job.blockMessages blocks ∧
      job'.messages blocks = job.messages blocks := by
  simp only [UploadJob.messages, UploadJob.blockMessages, h.id, h.fileNum, and_self]

theorem JobSound.soften {messages : List UploadMessage} {done : Prop}
    (h : JobSound job messages done) (softer : Softer job job') :
    JobSound job' messages done := by
  constructor
  · intro notYet
    obtain ⟨none', waiting, block, notDone⟩ := h.fresh (softer.started ▸ notYet)
    refine ⟨none', ?_, softer.nextBlockId.trans block, notDone⟩
    exact softer.awaiting.elim (·.trans waiting) id
  · intro offset waiting
    rcases softer.awaiting with same | left
    · obtain ⟨notDone, inside, blocks, sent, count, cut⟩ := h.waits offset (same ▸ waiting)
      rw [softer.file, softer.nextBlockId]
      exact ⟨notDone, inside, blocks, by rw [(softer.messages blocks).1, sent], count, cut⟩
    · rw [left] at waiting
      cases waiting
  · intro done
    obtain ⟨waiting, blocks, sent, cut⟩ := h.finished done
    refine ⟨softer.awaiting.elim (·.trans waiting) id, blocks, ?_, softer.file ▸ cut⟩
    rw [(softer.messages blocks).2, sent]

/-! ## All jobs -/

/-- All but the job `j`, of which nothing is said. -/
structure SoundBut (u : Uploads) (j : Nat) : Prop where
  sends : ∀ s ∈ u.sends, s.job < u.jobs.length
  reports : ∀ i, u.ReportedDone i → i < u.jobs.length
  others : ∀ i job, i ≠ j → u.jobs[i]? = some job →
    JobSound job (u.messagesOf i) (u.ReportedDone i)

structure SoundUploads (u : Uploads) : Prop where
  sends : ∀ s ∈ u.sends, s.job < u.jobs.length
  reports : ∀ i, u.ReportedDone i → i < u.jobs.length
  each : ∀ i job, u.jobs[i]? = some job → JobSound job (u.messagesOf i) (u.ReportedDone i)

theorem SoundUploads.but (h : SoundUploads u) (j : Nat) : SoundBut u j :=
  ⟨h.sends, h.reports, fun i job _ found => h.each i job found⟩

theorem sound_new : SoundUploads {} := by
  constructor
  · intro s mem
    cases mem
  · rintro i ⟨id, fileNum, mem⟩
    cases mem
  · intro i job found
    cases found

/-- Every job comes from one, perhaps cancelled. -/
def SofterJobs (jobs jobs' : List UploadJob) : Prop :=
  jobs'.length = jobs.length ∧
    ∀ (i : Nat) (job' : UploadJob), jobs'[i]? = some job' →
      ∃ job, jobs[i]? = some job ∧ Softer job job'

theorem SofterJobs.refl (jobs : List UploadJob) : SofterJobs jobs jobs :=
  ⟨rfl, fun _ job found => ⟨job, found, rfl, rfl, rfl, rfl, rfl, .inl rfl⟩⟩

theorem SoundUploads.soften (h : SoundUploads u) (jobs : SofterJobs u.jobs u'.jobs)
    (sends : u'.sends = u.sends) (reports : ∀ i, u'.ReportedDone i ↔ u.ReportedDone i) :
    SoundUploads u' := by
  constructor
  · rw [sends, jobs.1]
    exact h.sends
  · intro i done
    rw [jobs.1]
    exact h.reports i ((reports i).mp done)
  · intro i job' found
    obtain ⟨job, found', softer⟩ := jobs.2 i job' found
    have own := (h.each i job found').soften softer
    rw [Uploads.messagesOf, Uploads.sendsOf, sends, reports i]
    exact own

theorem softerJobs_set (found : u.jobs[j]? = some job) (softer : Softer job job') :
    SofterJobs u.jobs (u.jobs.set j job') := by
  refine ⟨List.length_set, fun i other found' => ?_⟩
  by_cases same : j = i
  · subst same
    rw [List.getElem?_set_self (List.getElem?_eq_some_iff.mp found).1] at found'
    exact ⟨job, found, Option.some.inj found' ▸ softer⟩
  · rw [List.getElem?_set_ne same] at found'
    exact (SofterJobs.refl u.jobs).2 i other found'

/-! ## What a step sends -/

/-- The messages of the jobs that a step adds: of those of which `P` holds, and on the
socket that is open. -/
def SendsOf (u u' : Uploads) (P : Nat → Prop) : Prop :=
  ∃ new, u'.sends = u.sends ++ new ∧ (∀ s ∈ new, s.socket = u.session.accepting ∧ P s.job) ∧
    ∀ i, P i → ∃ s ∈ new, s.job = i

theorem SendsOf.none (sends : u'.sends = u.sends) {P : Nat → Prop} (nobody : ∀ i, ¬ P i) :
    SendsOf u u' P :=
  ⟨[], by rw [sends, List.append_nil], fun s mem => (List.not_mem_nil mem).elim,
    fun i here => absurd here (nobody i)⟩

theorem SendsOf.congr {P Q : Nat → Prop} (h : SendsOf u u' P) (same : ∀ i, Q i ↔ P i) :
    SendsOf u u' Q := by
  obtain ⟨new, sends, all, some'⟩ := h
  exact ⟨new, sends, fun s mem => ⟨(all s mem).1, (same s.job).mpr (all s mem).2⟩,
    fun i here => some' i ((same i).mp here)⟩

theorem messagesOf_append {new : List Send} (sends : u'.sends = u.sends ++ new) (i : Nat) :
    u'.messagesOf i = u.messagesOf i ++ (new.filter (·.job = i)).map Send.message := by
  rw [Uploads.messagesOf, Uploads.sendsOf, sends, List.filter_append, List.map_append]
  rfl

/-- A job that has sent nothing yet. -/
theorem SoundUploads.messagesOf_none (h : SoundUploads u) (out : u.jobs.length ≤ i) :
    u.messagesOf i = [] ∧ ¬ u.ReportedDone i := by
  constructor
  · rw [Uploads.messagesOf, Uploads.sendsOf, List.filter_eq_nil_iff.mpr]
    · rfl
    · intro s mem
      have bound := h.sends s mem
      simp only [decide_eq_true_eq]
      omega
  · intro done
    have bound := h.reports i done
    omega

/-! ## The loop -/

/-- What the job has sent is its file up to an offset. -/
def SentUpTo (u : Uploads) (j : Nat) (job : UploadJob) (offset : Nat) : Prop :=
  ∃ blocks, u.messagesOf j = job.blockMessages blocks ∧ blocks.length = job.nextBlockId ∧
    Cut blocks (job.file.take offset)

theorem reportedDone_emit {report : Report} (i : Nat) :
    (u.emit report).ReportedDone i ↔
      u.ReportedDone i ∨ ∃ id fileNum, report = .jobDone i id fileNum := by
  simp only [Uploads.ReportedDone, Uploads.emit, List.mem_append, List.mem_singleton]
  constructor
  · rintro ⟨id, fileNum, old | new⟩
    · exact .inl ⟨id, fileNum, old⟩
    · exact .inr ⟨id, fileNum, new.symm⟩
  · rintro (⟨id, fileNum, old⟩ | ⟨id, fileNum, new⟩)
    · exact ⟨id, fileNum, .inl old⟩
    · exact ⟨id, fileNum, .inr new.symm⟩

theorem uploadFrom_sends (encode : UploadMessage → Bytes) (u : Uploads) (j : Nat)
    (job : UploadJob) (offset : Nat) :
    (u.uploadFrom encode j job offset).sends = u.sends ++
      if job.file.length ≤ offset then
        [⟨j, .done job.id job.fileNum, u.session.accepting⟩]
      else [] := by
  unfold Uploads.uploadFrom
  split
  · rfl
  · rw [List.append_nil]
    rfl

theorem uploadFrom_jobs (encode : UploadMessage → Bytes) (u : Uploads) (j : Nat)
    (job : UploadJob) (offset : Nat) :
    (u.uploadFrom encode j job offset).jobs = u.jobs.set j
      { job with awaiting :=
          if job.file.length ≤ offset ∨ job.cancelled = true then none else some offset } := by
  unfold Uploads.uploadFrom
  by_cases ended : job.file.length ≤ offset
  · simp only [ended, if_true, true_or]
    rfl
  · simp only [ended, if_false, false_or]
    rfl

theorem uploadFrom_done (encode : UploadMessage → Bytes) (u : Uploads) (j : Nat)
    (job : UploadJob) (offset i : Nat) :
    (u.uploadFrom encode j job offset).ReportedDone i ↔
      u.ReportedDone i ∨ i = j ∧ job.file.length ≤ offset := by
  unfold Uploads.uploadFrom
  split
  · rename_i ended
    change ((Uploads.sendFor encode _ j _).emit _).ReportedDone i ↔ _
    rw [reportedDone_emit]
    simp only [Report.jobDone.injEq, ended, and_true]
    constructor
    · rintro (old | ⟨id, fileNum, rfl, -⟩)
      · exact .inl old
      · exact .inr rfl
    · rintro (old | rfl)
      · exact .inl old
      · exact .inr ⟨_, _, rfl, rfl, rfl⟩
  · rename_i more
    simp only [more, and_false, or_false]
    rfl

/-- From an offset up to which everything is sent, the loop keeps everything right. -/
theorem sound_uploadFrom (h : SoundBut u j) (inside : j < u.jobs.length)
    (started : job.started = true) (sent : SentUpTo u j job offset)
    (notDone : ¬ u.ReportedDone j) : SoundUploads (u.uploadFrom encode j job offset) := by
  have jobs := uploadFrom_jobs encode u j job offset
  have sends := uploadFrom_sends encode u j job offset
  have done := uploadFrom_done encode u j job offset
  generalize u.uploadFrom encode j job offset = u' at jobs sends done ⊢
  have length : u'.jobs.length = u.jobs.length := by rw [jobs, List.length_set]
  constructor
  · intro s mem
    rw [length]
    rw [sends] at mem
    rcases List.mem_append.mp mem with mem | mem
    · exact h.sends s mem
    · split at mem
      · rw [List.mem_singleton.mp mem]
        exact inside
      · cases mem
  · intro i reported
    rw [length]
    rcases (done i).mp reported with old | ⟨rfl, -⟩
    · exact h.reports i old
    · exact inside
  · intro i job' found
    rw [jobs] at found
    rw [messagesOf_append sends]
    by_cases same : j = i
    · subst same
      rw [List.getElem?_set_self inside] at found
      obtain rfl := Option.some.inj found
      obtain ⟨blocks, messages, count, cut⟩ := sent
      by_cases ended : job.file.length ≤ offset
      · rw [if_pos ended]
        rw [List.take_of_length_le ended] at cut
        constructor
        · intro fresh
          exact absurd (started.symm.trans fresh) (by decide)
        · intro offset' waiting
          simp [ended] at waiting
        · intro _
          refine ⟨by simp [ended], blocks, ?_, cut⟩
          simp [messages, UploadJob.messages, UploadJob.blockMessages]
      · have notDone' : ¬ u'.ReportedDone j := by
          rw [done]
          simp [notDone, ended]
        rw [if_neg ended, List.filter_nil, List.map_nil, List.append_nil]
        constructor
        · intro fresh
          exact absurd (started.symm.trans fresh) (by decide)
        · intro offset' waiting
          simp only [ended, false_or] at waiting
          split at waiting
          · cases waiting
          · obtain rfl := Option.some.inj waiting
            exact ⟨notDone', Nat.lt_of_not_le ended, blocks, messages, count, cut⟩
        · intro reported
          exact absurd reported notDone'
    · rw [List.getElem?_set_ne same] at found
      have own := h.others i job' (Ne.symm same) found
      have quiet : ((if job.file.length ≤ offset then
          [(⟨j, .done job.id job.fileNum, u.session.accepting⟩ : Send)]
          else []).filter (·.job = i)) = [] := by
        split
        · simp [same]
        · rfl
      rw [quiet, List.map_nil, List.append_nil]
      have done' : u'.ReportedDone i ↔ u.ReportedDone i := by
        rw [done]
        simp [Ne.symm same]
      rwa [done']

/-! ## The start of a job and its slices -/

theorem lt_of_found (found : u.jobs[j]? = some job) : j < u.jobs.length :=
  (List.getElem?_eq_some_iff.mp found).1

theorem sound_startUploadJob (h : SoundUploads u) (j : Nat) :
    SoundUploads (u.startUploadJob encode j 0) := by
  unfold Uploads.startUploadJob
  split
  · exact h
  · rename_i job found
    split
    · exact h
    · rename_i ready
      simp only [Bool.or_eq_true, not_or, Bool.not_eq_true] at ready
      obtain ⟨none', -, count, notDone⟩ := (h.each j job found).fresh ready.1
      refine sound_uploadFrom (h.but j) (lt_of_found found) rfl ⟨[], none', count.symm, ?_⟩ notDone
      exact ⟨by simp, fun b mem => (List.not_mem_nil mem).elim⟩

theorem sends_startUploadJob (encode : UploadMessage → Bytes) (u : Uploads) (j : Nat) :
    SendsOf u (u.startUploadJob encode j 0) fun i => i = j ∧ u.startsEmpty j = true := by
  unfold Uploads.startUploadJob Uploads.startsEmpty
  split
  · rename_i absent
    exact .none rfl fun i here => by simp [absent] at here
  · rename_i job found
    split
    · rename_i late
      refine .none rfl fun i here => ?_
      simp only [found, Option.any_some, Bool.and_eq_true, Bool.not_eq_true'] at here
      simp [here.2.1.1, here.2.1.2] at late
    · rename_i ready
      simp only [Bool.or_eq_true, not_or, Bool.not_eq_true] at ready
      have sends := uploadFrom_sends encode u j
        { job with
          pendingStartTimer := false
          started := true
          resumeOffset := 0
          sentBytes := 0 } 0
      by_cases empty : job.file = []
      · rw [if_pos (by simp [empty])] at sends
        refine ⟨_, sends, fun s mem => ?_, fun i here =>
          ⟨_, List.mem_singleton_self _, here.1.symm⟩⟩
        rw [List.mem_singleton.mp mem]
        simp [found, ready, empty]
      · rw [if_neg (by simp [empty]), List.append_nil] at sends
        exact .none sends fun i here => by simp [found, empty] at here

/-- A block and a report of it, before the loop goes on. -/
theorem but_block (h : SoundUploads u) (inside : j < u.jobs.length) (message : UploadMessage)
    (id fileNum : Int) (size : Nat) :
    SoundBut ((u.sendFor encode j message).emit (.jobProgress id fileNum size)) j := by
  have sends : ((u.sendFor encode j message).emit (.jobProgress id fileNum size)).sends =
      u.sends ++ [⟨j, message, u.session.accepting⟩] := rfl
  have done : ∀ i,
      ((u.sendFor encode j message).emit (.jobProgress id fileNum size)).ReportedDone i ↔
        u.ReportedDone i := by
    intro i
    rw [reportedDone_emit]
    simp only [reduceCtorEq, exists_false, or_false]
    rfl
  constructor
  · intro s mem
    rw [sends] at mem
    rcases List.mem_append.mp mem with mem | mem
    · exact h.sends s mem
    · rw [List.mem_singleton.mp mem]
      exact inside
  · intro i reported
    exact h.reports i ((done i).mp reported)
  · intro i job other found
    have own := h.each i job found
    rw [messagesOf_append sends, done]
    simpa [Ne.symm other] using own

/-- Another slice of the file is sent. -/
theorem sentUpTo_slice (sent : SentUpTo u j job offset) (more : offset < job.file.length)
    {block : UploadMessage}
    (isBlock : block = .block job.id job.fileNum ((job.file.drop offset).take chunkSize)
      job.nextBlockId) (sends : u'.sends = u.sends ++ [⟨j, block, u.session.accepting⟩]) :
    SentUpTo u' j
      { job with
        nextBlockId := job.nextBlockId + 1
        sentBytes := offset + ((job.file.drop offset).take chunkSize).length }
      (offset + ((job.file.drop offset).take chunkSize).length) := by
  obtain ⟨blocks, messages, count, cut⟩ := sent
  have size : 0 < chunkSize := by decide
  have length : ((job.file.drop offset).take chunkSize).length =
      min chunkSize (job.file.length - offset) := by
    rw [List.length_take, List.length_drop]
  refine ⟨blocks ++ [(job.file.drop offset).take chunkSize], ?_, ?_, ?_, ?_⟩
  · rw [messagesOf_append sends, messages, isBlock]
    simp [UploadJob.blockMessages, List.mapIdx_append, count]
  · rw [List.length_append, count]
    rfl
  · rw [List.flatten_append, cut.whole, List.flatten_singleton, List.take_add]
    congr 1
    rw [List.take_eq_take_iff, length, List.length_drop]
    omega
  · intro b mem
    rcases List.mem_append.mp mem with mem | mem
    · exact cut.sized b mem
    · rw [List.mem_singleton.mp mem, length]
      omega

theorem sound_slice (h : SoundUploads u) (j : Nat) (ok : Bool) :
    SoundUploads (u.slice encode j ok) := by
  unfold Uploads.slice
  split
  · exact h
  · rename_i job found
    split
    · exact h
    · rename_i offset waiting
      split
      · have softer : Softer job { job with awaiting := none } :=
          ⟨rfl, rfl, rfl, rfl, rfl, .inr rfl⟩
        exact h.soften (softerJobs_set found softer) rfl fun i => Iff.rfl
      · have own := h.each j job found
        obtain ⟨notDone, more, sent⟩ := own.waits offset waiting
        have started : job.started = true := by
          by_contra fresh
          have none' := (own.fresh (by simpa using fresh)).2.1
          rw [none'] at waiting
          cases waiting
        have inside := lt_of_found found
        refine sound_uploadFrom (but_block h inside _ _ _ _) inside ?_ ?_ ?_
        · exact started
        · exact sentUpTo_slice sent more rfl rfl
        · rw [reportedDone_emit]
          simp only [reduceCtorEq, exists_false, or_false]
          exact notDone

theorem transmits_slice (u : Uploads) (i j : Nat) (ok : Bool) :
    u.transmits i (.slice j ok) = true ↔
      i = j ∧ ok = true ∧ ∃ job, u.jobs[j]? = some job ∧ job.awaiting ≠ none ∧
        job.cancelled = false := by
  simp only [Uploads.transmits, Bool.and_eq_true, decide_eq_true_eq, Option.any_eq_true,
    Bool.not_eq_true', Option.isSome_iff_ne_none, and_assoc]
  constructor
  · rintro ⟨rfl, rest⟩
    exact ⟨rfl, rest⟩
  · rintro ⟨rfl, rest⟩
    exact ⟨rfl, rest⟩

theorem sends_slice (u : Uploads) (j : Nat) (ok : Bool) :
    SendsOf u (u.slice encode j ok) fun i => u.transmits i (.slice j ok) = true := by
  refine SendsOf.congr (P := fun i => i = j ∧ ok = true ∧ ∃ job, u.jobs[j]? = some job ∧
    job.awaiting ≠ none ∧ job.cancelled = false) ?_ fun i => transmits_slice u i j ok
  unfold Uploads.slice
  split
  · rename_i absent
    refine .none (by rfl) ?_
    rintro i ⟨-, -, job, found, -⟩
    rw [absent] at found
    cases found
  rename_i job found
  split
  · rename_i waiting
    refine .none (by rfl) ?_
    rintro i ⟨-, -, job', found', waits, -⟩
    cases found.symm.trans found'
    exact waits waiting
  rename_i offset waiting
  split
  · rename_i stopped
    refine .none (by rfl) ?_
    rintro i ⟨-, rfl, job', found', -, active⟩
    cases found.symm.trans found'
    simp [active] at stopped
  · rename_i going
    simp only [Bool.or_eq_true, Bool.not_eq_true', not_or, Bool.not_eq_true,
      Bool.not_eq_false] at going
    have here : j = j ∧ ok = true ∧ ∃ job, u.jobs[j]? = some job ∧ job.awaiting ≠ none ∧
        job.cancelled = false :=
      ⟨rfl, going.1, job, found, by simp [waiting], going.2⟩
    simp only
    refine ⟨_, (uploadFrom_sends _ _ _ _ _).trans (List.append_assoc _ _ _), ?_, ?_⟩
    · intro s mem
      rcases List.mem_append.mp mem with mem | mem
      · rw [List.mem_singleton.mp mem]
        exact ⟨rfl, here⟩
      · split at mem
        · rw [List.mem_singleton.mp mem]
          exact ⟨accepting_sendMessage _ _ _, here⟩
        · cases mem
    · rintro i ⟨rfl, -⟩
      exact ⟨_, List.mem_append_left _ (List.mem_singleton_self _), rfl⟩

/-! ## Steps -/

theorem SendsOf.after {v : Uploads} {P : Nat → Prop} (h : SendsOf u u' P)
    (sends : u.sends = v.sends) (accepting : u.session.accepting = v.session.accepting) :
    SendsOf v u' P := by
  obtain ⟨new, added, all, some'⟩ := h
  exact ⟨new, sends ▸ added, fun s mem => accepting ▸ all s mem, some'⟩

theorem sound_sendMessage (h : SoundUploads u) (message : UploadMessage) :
    SoundUploads (u.sendMessage encode message) :=
  h.soften (SofterJobs.refl _) rfl fun _ => Iff.rfl

theorem sound_jobs {jobs : List UploadJob} (h : SoundUploads u) (softer : SofterJobs u.jobs jobs)
    (uploadJobs : ExtTreeMap Int Nat) : SoundUploads { u with jobs, uploadJobs } :=
  h.soften softer rfl fun _ => Iff.rfl

theorem sound_cancelUpload (h : SoundUploads u) (id : Int) : SoundUploads (u.cancelUpload id) := by
  unfold Uploads.cancelUpload
  split
  · exact h
  · rename_i j found
    refine sound_jobs h ⟨List.length_modify _ _ _, fun i job' here => ?_⟩ _
    rw [List.getElem?_modify] at here
    obtain ⟨job, found', rfl⟩ := Option.map_eq_some_iff.mp here
    refine ⟨job, found', ?_⟩
    split
    · exact ⟨rfl, rfl, rfl, rfl, rfl, .inl rfl⟩
    · exact ⟨rfl, rfl, rfl, rfl, rfl, .inl rfl⟩

theorem sound_cancelAll (h : SoundUploads u) : SoundUploads u.cancelAll := by
  refine sound_jobs h ⟨List.length_mapIdx, fun i job' here => ?_⟩ _
  rw [List.getElem?_mapIdx] at here
  obtain ⟨job, found, rfl⟩ := Option.map_eq_some_iff.mp here
  exact ⟨job, found, rfl, rfl, rfl, rfl, rfl, .inl rfl⟩

theorem sound_emit_error (h : SoundUploads u) (id fileNum : Option Int) (err : String) :
    SoundUploads (u.emit (.jobError id fileNum err)) := by
  refine h.soften (SofterJobs.refl _) rfl fun i => ?_
  rw [reportedDone_emit]
  simp

theorem sound_startUpload (h : SoundUploads u) (id : Int) (file : Bytes) (remotePath : String) :
    SoundUploads (u.startUpload encode id file remotePath) := by
  unfold Uploads.startUpload
  split
  · exact h
  constructor
  · intro s mem
    rw [List.length_append]
    exact Nat.lt_add_right 1 (h.sends s mem)
  · intro i reported
    rw [List.length_append]
    exact Nat.lt_add_right 1 (h.reports i reported)
  · intro i job found
    simp only [Uploads.sendMessage] at found
    by_cases old : i < u.jobs.length
    · rw [List.getElem?_append_left old] at found
      exact h.each i job found
    · obtain ⟨none', notDone⟩ := h.messagesOf_none (Nat.not_lt.mp old)
      rw [List.getElem?_append_right (Nat.not_lt.mp old)] at found
      have isNew := List.mem_singleton.mp (List.mem_of_getElem? found)
      subst isNew
      constructor
      · intro _
        exact ⟨none', rfl, rfl, notDone⟩
      · intro offset waiting
        cases waiting
      · intro reported
        exact absurd reported notDone

theorem timeout_softer (job : UploadJob) : Softer job { job with pendingStartTimer := false } :=
  ⟨rfl, rfl, rfl, rfl, rfl, .inl rfl⟩

theorem sound_step (h : SoundUploads u) (e : UploadEvent) :
    SoundUploads (u.step setup encode e) := by
  cases e with
  | session e =>
    simp only [Uploads.step, Uploads.onSession]
    have kept : SoundUploads { u with session := u.session.step setup e } :=
      h.soften (SofterJobs.refl _) rfl fun _ => Iff.rfl
    split
    · exact sound_cancelAll kept
    · exact kept
  | startUpload id file remotePath => exact sound_startUpload h id file remotePath
  | startTimeout j =>
    simp only [Uploads.step, Uploads.startTimeout]
    split
    · exact h
    · rename_i job found
      split
      · exact sound_startUploadJob (sound_jobs h (softerJobs_set found (timeout_softer job)) _) j
      · exact h
  | fileDigest id fileNum isUpload =>
    simp only [Uploads.step, Uploads.fileDigest]
    split
    · split
      · exact h
      · exact sound_startUploadJob (sound_sendMessage h _) _
    · exact h
  | confirmOverrideFile id fileNum needOverride =>
    simp only [Uploads.step, Uploads.confirmOverrideFile]
    split
    · exact h
    · split
      · exact sound_sendMessage h _
      · split
        · exact sound_jobs (sound_emit_error (sound_sendMessage h _) _ _ _) (SofterJobs.refl _) _
        · exact sound_startUploadJob (sound_sendMessage h _) _
  | fileError id err =>
    simp only [Uploads.step, Uploads.fileError]
    split
    · exact sound_emit_error h _ _ _
    · exact sound_cancelUpload (sound_emit_error h _ _ _) _
  | cancelJob id =>
    simp only [Uploads.step, Uploads.cancelJob]
    split
    · exact h
    · exact sound_sendMessage (sound_cancelUpload h id) _
  | slice j ok => exact sound_slice h j ok

/-- A timer that has run off says nothing about whether the job starts. -/
theorem startsEmpty_timeout (found : u.jobs[j]? = some job) :
    (u.setJob j { job with pendingStartTimer := false }).startsEmpty j = u.startsEmpty j := by
  have later : (u.setJob j { job with pendingStartTimer := false }).jobs[j]? =
      some { job with pendingStartTimer := false } :=
    List.getElem?_set_self (lt_of_found found)
  rw [Uploads.startsEmpty, later, Uploads.startsEmpty, found]
  rfl

theorem sends_startTimeout (u : Uploads) (j : Nat) :
    SendsOf u (u.startTimeout encode j) fun i => u.transmits i (.startTimeout j) = true := by
  have who : ∀ i, u.transmits i (.startTimeout j) = true ↔
      i = j ∧ u.jobs[j]?.any (·.pendingStartTimer) = true ∧ u.startsEmpty j = true := by
    intro i
    simp only [Uploads.transmits, Bool.and_eq_true, decide_eq_true_eq, and_assoc]
    constructor
    · rintro ⟨rfl, rest⟩
      exact ⟨rfl, rest⟩
    · rintro ⟨rfl, rest⟩
      exact ⟨rfl, rest⟩
  refine SendsOf.congr ?_ who
  unfold Uploads.startTimeout
  split
  · rename_i absent
    refine .none rfl fun i here => ?_
    simp [absent] at here
  rename_i job found
  split
  · rename_i pending
    have started := sends_startUploadJob encode
      (u.setJob j { job with pendingStartTimer := false }) j
    rw [startsEmpty_timeout found] at started
    have started' : SendsOf u _ _ := started.after rfl rfl
    refine started'.congr fun i => ?_
    simp [found, pending]
  · rename_i idle
    refine .none rfl fun i here => ?_
    simp [found, idle] at here

/-- A job starts after a message that is not its own. -/
theorem sends_startUploadJob_after (u : Uploads) (message : UploadMessage) (j : Nat) :
    SendsOf u ((u.sendMessage encode message).startUploadJob encode j 0)
      fun i => i = j ∧ u.startsEmpty j = true :=
  (sends_startUploadJob encode (u.sendMessage encode message) j).after rfl
    (accepting_sendMessage _ _ _)

theorem sends_fileDigest (u : Uploads) (id fileNum : Int) (isUpload : Bool) :
    SendsOf u (u.fileDigest encode id fileNum isUpload)
      fun i => u.transmits i (.fileDigest id fileNum isUpload) = true := by
  simp only [Uploads.transmits, Bool.and_eq_true, decide_eq_true_eq]
  unfold Uploads.fileDigest
  split
  · rename_i upload
    split
    · rename_i absent
      refine .none rfl fun i here => ?_
      simp [absent] at here
    · rename_i j found
      refine (sends_startUploadJob_after u _ j).congr fun i => ?_
      simp only [upload, found, true_and, Option.some.injEq]
      constructor
      · rintro ⟨rfl, empty⟩
        exact ⟨rfl, empty⟩
      · rintro ⟨rfl, empty⟩
        exact ⟨rfl, empty⟩
  · rename_i download
    exact .none rfl fun i here => download here.1.1

theorem sends_confirmOverrideFile (u : Uploads) (id fileNum : Int) (needOverride : Bool) :
    SendsOf u (u.confirmOverrideFile encode id fileNum needOverride)
      fun i => u.transmits i (.confirmOverrideFile id fileNum needOverride) = true := by
  simp only [Uploads.transmits, Bool.and_eq_true, decide_eq_true_eq]
  unfold Uploads.confirmOverrideFile
  split
  · rename_i unloaded
    exact .none rfl fun i here => by simp [here.1.1.1] at unloaded
  rename_i loaded
  simp only [Bool.not_eq_true', Bool.not_eq_false] at loaded
  simp only
  split
  · rename_i absent
    refine .none (by rfl) fun i here => ?_
    exact nomatch absent.symm.trans here.1.2
  · rename_i j found
    split
    · rename_i skipped
      refine .none (by rfl) fun i here => ?_
      simp [here.1.1.2] at skipped
    · rename_i needed
      simp only [Bool.not_eq_true', Bool.not_eq_false] at needed
      refine (sends_startUploadJob_after u _ j).congr fun i => ?_
      have found' : u.uploadJobs[id]? = some j := found
      simp only [loaded, needed, found', true_and, Option.some.injEq]
      constructor
      · rintro ⟨rfl, empty⟩
        exact ⟨rfl, empty⟩
      · rintro ⟨rfl, empty⟩
        exact ⟨rfl, empty⟩

theorem sends_step (setup : Setup) (encode : UploadMessage → Bytes) (u : Uploads)
    (e : UploadEvent) :
    SendsOf u (u.step setup encode e) fun i => u.transmits i e = true := by
  cases e with
  | session e =>
    simp only [Uploads.step, Uploads.onSession]
    refine .none ?_ fun i here => nomatch here
    split <;> rfl
  | startUpload id file remotePath =>
    simp only [Uploads.step, Uploads.startUpload]
    refine .none ?_ fun i here => nomatch here
    split <;> rfl
  | startTimeout j =>
    exact sends_startTimeout u j
  | fileDigest id fileNum isUpload =>
    exact sends_fileDigest u id fileNum isUpload
  | confirmOverrideFile id fileNum needOverride =>
    exact sends_confirmOverrideFile u id fileNum needOverride
  | fileError id err =>
    simp only [Uploads.step, Uploads.fileError, Uploads.cancelUpload]
    refine .none ?_ fun i here => nomatch here
    split
    · rfl
    · split <;> rfl
  | cancelJob id =>
    simp only [Uploads.step, Uploads.cancelJob, Uploads.cancelUpload]
    refine .none ?_ fun i here => nomatch here
    split
    · rfl
    · split <;> rfl
  | slice j ok => exact sends_slice u j ok

/-! ## Runs -/

theorem soundUploads_run (setup : Setup) (encode : UploadMessage → Bytes)
    (events : List UploadEvent) :
    SoundUploads (Runs.run (Uploads.step setup encode) {} events) := by
  induction events using List.reverseRecOn with
  | nil => exact sound_new
  | append_singleton events e ih =>
    rw [Runs.run_append]
    exact sound_step ih e

/-- The messages of a job are on one socket if all the events that send are. -/
theorem sendsOf_run (setup : Setup) (encode : UploadMessage → Bytes) (events : List UploadEvent)
    (j socket : Nat) :
    (∀ s ∈ (Runs.run (Uploads.step setup encode) {} events).sendsOf j, s.socket = some socket) ↔
      Runs.Along (Uploads.step setup encode)
        (fun u e => u.transmits j e = true → u.session.accepting = some socket) {} events := by
  induction events using List.reverseRecOn with
  | nil => exact ⟨fun _ => trivial, fun _ s mem => nomatch mem⟩
  | append_singleton events e ih =>
    rw [Runs.along_snoc, ← ih, Runs.run_append]
    generalize Runs.run (Uploads.step setup encode) {} events = u
    obtain ⟨new, sends, all, some'⟩ := sends_step setup encode u e
    have split : (u.step setup encode e).sendsOf j = u.sendsOf j ++ new.filter (·.job = j) := by
      rw [Uploads.sendsOf, sends, List.filter_append]
      rfl
    simp only [Runs.run_cons, Runs.run_nil, split, List.forall_mem_append]
    refine and_congr_right fun _ => ⟨fun same transmits => ?_, fun same s mem => ?_⟩
    · obtain ⟨s, mem, own⟩ := some' j transmits
      rw [← (all s mem).1]
      exact same s (List.mem_filter.mpr ⟨mem, by simp [own]⟩)
    · obtain ⟨mem, own⟩ := List.mem_filter.mp mem
      obtain ⟨socket', transmits⟩ := all s mem
      simp only [decide_eq_true_eq] at own
      rw [socket', same (own ▸ transmits)]

/-! ## Completeness -/

theorem sublist_eq_of_sum {α : Type} (weight : α → Nat) {l l' : List α} (sub : l.Sublist l')
    (positive : ∀ a ∈ l', 0 < weight a) (sum : (l.map weight).sum = (l'.map weight).sum) :
    l = l' := by
  induction sub with
  | slnil => rfl
  | @cons l l' a sub ih =>
    have small := (sub.map weight).sum_le_sum (by simp)
    have first := positive a List.mem_cons_self
    simp only [List.map_cons, List.sum_cons] at sum
    omega
  | @cons_cons l l' a sub ih =>
    simp only [List.map_cons, List.sum_cons, Nat.add_left_cancel_iff] at sum
    rw [ih (fun b mem => positive b (List.mem_cons_of_mem a mem)) sum]

/-- What a message says of the file, and one for the end. -/
def UploadMessage.weight : UploadMessage → Nat
  | .block _ _ data _ => data.length
  | _ => 1

theorem weight_messages (job : UploadJob) (blocks : List Bytes) :
    ((job.messages blocks).map UploadMessage.weight).sum = blocks.flatten.length + 1 := by
  have pieces : (job.blockMessages blocks).map UploadMessage.weight = blocks.map List.length := by
    rw [UploadJob.blockMessages]
    refine List.ext_getElem (by simp) fun i _ _ => ?_
    simp [UploadMessage.weight]
  rw [UploadJob.messages, List.map_append, List.sum_append, pieces, List.length_flatten]
  rfl

theorem weight_pos (cut : Cut blocks job.file) :
    ∀ message ∈ job.messages blocks, 0 < message.weight := by
  intro message mem
  rcases List.mem_append.mp mem with mem | mem
  · obtain ⟨i, inside, rfl⟩ := List.mem_mapIdx.mp mem
    exact (cut.sized _ (List.getElem_mem inside)).1
  · rw [List.mem_singleton.mp mem]
    exact Nat.one_pos

/-- The messages of the job, each with the socket that took it. -/
theorem sendsOf_eq {socket : Nat} {messages : List UploadMessage}
    (sent : u.messagesOf j = messages) (same : ∀ s ∈ u.sendsOf j, s.socket = some socket) :
    u.sendsOf j = messages.map fun message => ⟨j, message, some socket⟩ := by
  rw [← sent, Uploads.messagesOf, List.map_map]
  symm
  refine (List.map_congr_left fun s mem => ?_).trans (List.map_id _)
  have own : s.job = j := by simpa using (List.mem_filter.mp mem).2
  simp only [Function.comp_apply, id, ← own, ← same s mem]

/-- Of a finished job everything has been taken, on one socket, if it is complete. -/
theorem complete_iff (sound : SoundUploads u) (found : u.jobs[j]? = some job)
    (done : u.ReportedDone j) :
    u.Complete j job ↔ ∃ socket, ∀ s ∈ u.sendsOf j, s.socket = some socket := by
  obtain ⟨-, blocks, sent, cut⟩ := (sound.each j job found).finished done
  constructor
  · rintro ⟨taken, socket, cut', accepted⟩
    refine ⟨socket, ?_⟩
    have all : u.accepted j = u.sendsOf j := by
      refine sublist_eq_of_sum (fun s => s.message.weight) List.filter_sublist ?_ ?_
      · intro s mem
        refine weight_pos cut _ ?_
        rw [← sent]
        exact List.mem_map_of_mem mem
      · have whole : (u.sendsOf j).map (fun s => s.message.weight) =
            (job.messages blocks).map UploadMessage.weight := by
          rw [← sent, Uploads.messagesOf, List.map_map]
          rfl
        have part : (u.accepted j).map (fun s => s.message.weight) =
            (job.messages taken).map UploadMessage.weight := by
          rw [accepted, List.map_map]
          rfl
        rw [whole, part, weight_messages, weight_messages, cut.whole, cut'.whole]
    rw [← all, accepted]
    intro s mem
    obtain ⟨message, -, rfl⟩ := List.mem_map.mp mem
    rfl
  · rintro ⟨socket, same⟩
    refine ⟨blocks, socket, cut, ?_⟩
    have all : u.accepted j = u.sendsOf j := by
      rw [Uploads.accepted, List.filter_eq_self]
      intro s mem
      rw [same s mem]
      rfl
    rw [all, sendsOf_eq sent same]

/-- **A web upload that reports success is complete** exactly when every event that made it
send found the protocol loaded and the transport open, on one and the same socket. -/
theorem upload_complete_iff (setup : Setup) (encode : UploadMessage → Bytes)
    (events : List UploadEvent) (j : Nat) (job : UploadJob)
    (found : (Runs.run (Uploads.step setup encode) {} events).jobs[j]? = some job)
    (done : (Runs.run (Uploads.step setup encode) {} events).ReportedDone j) :
    (Runs.run (Uploads.step setup encode) {} events).Complete j job ↔
      ∃ socket, Runs.Along (Uploads.step setup encode)
        (fun u e => u.transmits j e = true → u.session.accepting = some socket) {} events := by
  rw [complete_iff (soundUploads_run setup encode events) found done]
  exact exists_congr fun socket => sendsOf_run setup encode events j socket

/-- A job that waits for a slice sends it; at the end of its file it reports success. -/
theorem slice_goes_on (found : u.jobs[j]? = some job) (waits : job.awaiting = some offset)
    (runs : job.cancelled = false) :
    let sent := offset + ((job.file.drop offset).take chunkSize).length
    (u.slice encode j true).jobs[j]? = some { job with
        nextBlockId := job.nextBlockId + 1
        sentBytes := sent
        awaiting := if job.file.length ≤ sent then none else some sent } ∧
      (u.slice encode j true).session.accepting = u.session.accepting ∧
      (job.file.length ≤ sent → (u.slice encode j true).ReportedDone j) := by
  intro sent
  unfold Uploads.slice
  rw [found]
  simp only [waits, runs, Bool.not_true, Bool.or_self, Bool.false_eq_true, if_false]
  refine ⟨?_, ?_, fun ended => (uploadFrom_done _ _ _ _ _ _).mpr (.inr ⟨rfl, ended⟩)⟩
  · rw [uploadFrom_jobs]
    refine (List.getElem?_set_self (lt_of_found found)).trans ?_
    simp only [Bool.false_eq_true, or_false]
    rfl
  · unfold Uploads.uploadFrom
    split
    · exact (accepting_sendMessage _ _ _).trans (accepting_sendMessage _ _ _)
    · exact accepting_sendMessage _ _ _

/-- A connected session. -/
def uploadSession : List UploadEvent := (relayOpening ++ relayHandshake).map .session

section TwoSlices
variable (encode : UploadMessage → Bytes) {file : Bytes} (length : file.length = chunkSize + 1)

/-- A job of two slices that waits for the first, then for the second, and at its end. -/
def firstSlice (file : Bytes) : UploadJob where
  id := 1
  file
  remotePath := "up"
  started := true
  awaiting := some 0

def secondSlice (file : Bytes) : UploadJob :=
  { firstSlice file with nextBlockId := 1, sentBytes := chunkSize, awaiting := some chunkSize }

def slicesDone (file : Bytes) : UploadJob :=
  { firstSlice file with nextBlockId := 2, sentBytes := chunkSize + 1, awaiting := none }

/-- The upload of the file over a socket that stays open. -/
def slicesOpening (file : Bytes) : List UploadEvent :=
  uploadSession ++ [UploadEvent.startUpload 1 file "up", .startTimeout 0]

include length

theorem slices_opened :
    let u := Runs.run (Uploads.step relaySetup fun _ => []) {} uploadSession
    (u.startUpload (fun _ => []) 1 file "up").startsEmpty 0 = false ∧
      (Runs.run (Uploads.step relaySetup fun _ => []) {} (slicesOpening file)).jobs[0]? =
        some (firstSlice file) ∧
      (Runs.run (Uploads.step relaySetup fun _ => []) {}
        (slicesOpening file)).session.accepting = some 0 := by
  rw [slicesOpening, Runs.run_append]
  generalize connected : Runs.run (Uploads.step relaySetup fun _ => []) {} uploadSession = u
  obtain ⟨proto, jobs, taken⟩ :
      u.session.proto = true ∧ u.jobs = [] ∧ u.session.accepting = some 0 := by
    rw [← connected]
    decide +kernel
  have more : file ≠ [] := List.ne_nil_of_length_pos (by rw [length]; exact Nat.succ_pos _)
  simp [Uploads.step, Uploads.startUpload, Uploads.startTimeout, Uploads.startUploadJob,
    Uploads.setJob, Uploads.uploadFrom, Uploads.sendMessage, Uploads.startsEmpty, proto, jobs,
    taken, more, firstSlice]

theorem slices_first {u : Uploads} (found : u.jobs[0]? = some (firstSlice file)) :
    (u.slice encode 0 true).jobs[0]? = some (secondSlice file) ∧
      (u.slice encode 0 true).session.accepting = u.session.accepting := by
  obtain ⟨next, taken, -⟩ := slice_goes_on (u := u) found rfl rfl
  have sent : 0 + ((file.drop 0).take chunkSize).length = chunkSize := by
    rw [List.drop_zero, List.length_take, length]
    omega
  refine ⟨next.trans ?_, taken⟩
  simp only [firstSlice, secondSlice, sent, length, Nat.not_succ_le_self, if_false]

theorem slices_second {u : Uploads} (found : u.jobs[0]? = some (secondSlice file)) :
    (u.slice encode 0 true).jobs[0]? = some (slicesDone file) ∧
      (u.slice encode 0 true).ReportedDone 0 := by
  obtain ⟨next, -, done⟩ := slice_goes_on (u := u) found rfl rfl
  have sent : chunkSize + ((file.drop chunkSize).take chunkSize).length = chunkSize + 1 := by
    have positive : 0 < chunkSize := by decide
    rw [List.length_take, List.length_drop, length]
    omega
  have whole : file.length ≤ chunkSize + ((file.drop chunkSize).take chunkSize).length := by
    rw [sent, length]
  refine ⟨next.trans ?_, done whole⟩
  simp only [firstSlice, secondSlice, slicesDone, sent, length, Nat.le_refl, if_true]

theorem slices_run :
    let events := slicesOpening file ++ [UploadEvent.slice 0 true, .slice 0 true]
    (Runs.run (Uploads.step relaySetup fun _ => []) {} events).jobs[0]? =
        some (slicesDone file) ∧
      (Runs.run (Uploads.step relaySetup fun _ => []) {} events).ReportedDone 0 ∧
      Runs.Along (Uploads.step relaySetup fun _ => [])
        (fun u e => u.transmits 0 e = true → u.session.accepting = some 0) {} events := by
  intro events
  obtain ⟨more, found, taken⟩ := slices_opened length
  obtain ⟨second, same⟩ := slices_first (fun _ => []) length found
  obtain ⟨whole, done⟩ := slices_second (fun _ => []) length second
  have split : Runs.run (Uploads.step relaySetup fun _ => []) {} events =
      ((Runs.run (Uploads.step relaySetup fun _ => []) {} (slicesOpening file)).slice
        (fun _ => []) 0 true).slice (fun _ => []) 0 true := Runs.run_append _ _ _
  rw [split]
  refine ⟨whole, done,
    Runs.along_append.mpr ⟨?_, fun _ => taken, fun _ => same.trans taken, trivial⟩⟩
  refine Runs.along_append.mpr ⟨by decide +kernel, fun sends => ?_, fun sends => ?_, trivial⟩
  · exact absurd sends Bool.false_ne_true
  · rw [Uploads.transmits, Bool.and_eq_true] at sends
    exact absurd (more.symm.trans sends.2) Bool.false_ne_true

end TwoSlices

/-- An upload of two blocks over a socket that stays open. -/
theorem upload_complete_undisturbed :
    let file := List.replicate (chunkSize + 1) 7
    let u := Runs.run (Uploads.step relaySetup fun _ => []) {}
      (slicesOpening file ++ [UploadEvent.slice 0 true, .slice 0 true])
    u.ReportedDone 0 ∧ u.Complete 0 (slicesDone file) := by
  intro file u
  obtain ⟨found, done, accepts⟩ := slices_run (List.length_replicate : file.length = _)
  exact ⟨done, (upload_complete_iff relaySetup (fun _ => []) _ 0 _ found done).mpr ⟨0, accepts⟩⟩

/-- A connected session and the start of an upload of one byte. -/
def uploadOpening : List UploadEvent :=
  (relayOpening ++ relayHandshake).map .session ++
    [UploadEvent.startUpload 1 [7] "up", .startTimeout 0]

/-- The job at its end. -/
def uploadEnd : UploadJob where
  id := 1
  file := [7]
  remotePath := "up"
  sentBytes := 1
  started := true
  nextBlockId := 1

/-- The socket closes while the slice is read, and success is reported though nothing has
been taken. -/
theorem upload_lost :
    let u := Runs.run (Uploads.step relaySetup fun _ => []) {}
      (uploadOpening ++ [UploadEvent.session (.socketClose 0 ⟨1006, false⟩), .slice 0 true])
    u.jobs[0]? = some uploadEnd ∧ u.ReportedDone 0 ∧ u.accepted 0 = [] ∧
      ¬ u.Complete 0 uploadEnd := by
  have nothing : (Runs.run (Uploads.step relaySetup fun _ => []) {}
      (uploadOpening ++ [UploadEvent.session (.socketClose 0 ⟨1006, false⟩),
        .slice 0 true])).accepted 0 = [] := by
    decide +kernel
  refine ⟨by decide +kernel, ⟨1, 0, by decide +kernel⟩, nothing, ?_⟩
  rintro ⟨blocks, socket, -, taken⟩
  rw [nothing, UploadJob.messages] at taken
  simp at taken

end CamelliaRemote.Web
