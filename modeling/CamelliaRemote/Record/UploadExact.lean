import CamelliaRemote.Record.Upload

namespace CamelliaRemote.Record
open Codec UnixPath GrowingFile

/-- What the requests so far have to do with the looks at the file so far. -/
structure Follows (looks : List Codec.Bytes) (log : List Request) (u : RecordUploader) : Prop where
  named : ∀ r ∈ log, r.file = u.filename
  contiguous : Contiguous 0 log
  uploaded : uploaded log = u.uploadSize
  copied : u.uploadSize ≤ (assemble log).length
  /-- The server's file grows into whatever the file is from now on. -/
  grows : ∀ f, (∀ g ∈ looks, Grows maxHeaderLen g f) → Grows maxHeaderLen (assemble log) f

variable {u u' : RecordUploader} {looks : List Codec.Bytes} {log sent : List Request} {net : Net}
  {turn : Turn} {turns : List Turn} {f : Codec.Bytes}

theorem contiguous_append {start : Nat} {log' : List Request} :
    Contiguous start (log ++ log') ↔
      Contiguous start log ∧ Contiguous (start + uploaded log) log' := by
  induction log generalizing start with
  | nil => simp [Contiguous, Record.uploaded]
  | cons r log ih =>
    cases r with
    | part file offset length body =>
      simp only [List.cons_append, Contiguous, ih, Record.uploaded, List.map_cons, List.sum_cons,
        Request.partLength, Nat.add_assoc, and_assoc]
    | new file => simpa [Contiguous, Record.uploaded, Request.partLength] using ih
    | tail file offset length body =>
      simpa [Contiguous, Record.uploaded, Request.partLength] using ih
    | remove file => simpa [Contiguous, Record.uploaded, Request.partLength] using ih

theorem uploaded_append (log log' : List Request) :
    uploaded (log ++ log') = uploaded log + uploaded log' := by
  simp [uploaded]

theorem assemble_snoc (log : List Request) (r : Request) :
    assemble (log ++ [r]) = r.apply (assemble log) := by
  simp [assemble]

/-- Another look at the file. -/
theorem Follows.look (h : Follows looks log u) (more : List Codec.Bytes) :
    Follows (looks ++ more) log u :=
  { h with grows := fun f later => h.grows f fun g mem => later g (List.mem_append_left _ mem) }

/-- What a call of `handle_frame` does. -/
inductive FrameCase (u : RecordUploader) (flush : Bool) (turn : Turn) (net : Net) :
    Handled → Prop where
  | waits (unforced : flush = false) : FrameCase u flush turn net (u, [], .ok ())
  | upToDate (file : Codec.Bytes) (look : file ∈ turn.looks)
      (covered : file.length ≤ u.uploadSize) : FrameCase u flush turn net (u, [], .ok ())
  | failed (e : String)
      (why : turn.opened = .error e ∨ turn.read = .error e ∨ ∃ r, net r = .error e) :
      FrameCase u flush turn net (u, [], .error e)
  | sent (file : Codec.Bytes) (read : turn.read = .ok file)
      (some' : 0 < ((file.drop u.uploadSize).take maxUploadChunkSize).length)
      (accepted : net (.part u.filename u.uploadSize
        ((file.drop u.uploadSize).take maxUploadChunkSize).length
        ((file.drop u.uploadSize).take maxUploadChunkSize)) = .ok ()) :
      FrameCase u flush turn net
        ({ u with
            uploadSize := u.uploadSize + ((file.drop u.uploadSize).take maxUploadChunkSize).length
            lastSend := turn.sentAt },
          [.part u.filename u.uploadSize
            ((file.drop u.uploadSize).take maxUploadChunkSize).length
            ((file.drop u.uploadSize).take maxUploadChunkSize)], .ok ())

theorem mem_contents {look : Except String Codec.Bytes} (ok : look = .ok f) :
    f ∈ contents look := by
  simp [ok, contents, Except.toOption]

theorem covered_of_piece {file : Codec.Bytes} {start : Nat}
    (empty : ((file.drop start).take maxUploadChunkSize).length = 0) : file.length ≤ start := by
  rw [List.length_take, List.length_drop, maxUploadChunkSize] at empty
  omega

theorem handleFrame_cases (u : RecordUploader) (flush : Bool) (turn : Turn) (net : Net) :
    FrameCase u flush turn net (handleFrame u flush turn net) := by
  unfold handleFrame
  split
  · rename_i early
    simp only [Bool.and_eq_true, Bool.not_eq_true'] at early
    exact .waits early.1
  split
  · rename_i e opened
    exact .failed e (.inl opened)
  rename_i file opened
  simp only
  split
  · rename_i covered
    exact .upToDate file (List.mem_append_left _ (mem_contents opened)) covered
  split
  · rename_i little
    simp only [Bool.and_eq_true, Bool.not_eq_true'] at little
    exact .waits little.1
  split
  · rename_i e read
    exact .failed e (.inr (.inl read))
  rename_i file read
  split
  · rename_i empty
    exact .upToDate file (List.mem_append_right _ (mem_contents read)) (covered_of_piece empty)
  rename_i some'
  split
  · rename_i e refused
    exact .failed e (.inr (.inr ⟨_, refused⟩))
  · rename_i accepted
    exact .sent file read (Nat.pos_of_ne_zero some') accepted

/-- A part of the file as it is now, at its place. -/
theorem Follows.part (h : Follows looks log u) {file : Codec.Bytes} {length sentAt : Nat}
    (isLength : length = ((file.drop u.uploadSize).take maxUploadChunkSize).length)
    (some' : 0 < length) (later : ∀ g ∈ looks, Grows maxHeaderLen g file) :
    Follows (looks ++ [file])
      (log ++ [Request.part u.filename u.uploadSize length
        ((file.drop u.uploadSize).take maxUploadChunkSize)])
      { u with uploadSize := u.uploadSize + length, lastSend := sentAt } := by
  have small : length ≤ maxUploadChunkSize := by
    rw [isLength]
    exact List.length_take_le _ _
  have size := h.uploaded
  constructor
  · intro r mem
    rcases List.mem_append.mp mem with mem | mem
    · exact h.named r mem
    · rw [List.mem_singleton.mp mem]
      rfl
  · refine contiguous_append.mpr ⟨h.contiguous, ?_⟩
    rw [Nat.zero_add, size]
    exact ⟨rfl, isLength, some', small, trivial⟩
  · rw [uploaded_append, size]
    rfl
  · rw [assemble_snoc, Request.apply, length_writeAt h.copied, ← isLength]
    exact Nat.le_max_right _ _
  · intro f after
    have last := after file (by simp)
    rw [assemble_snoc]
    exact (grows_writeAt (h.grows file later) (Grows.refl _ file) h.copied _).trans last

theorem grows_of_pairwise {g : Codec.Bytes} (ordered : (looks ++ [f]).Pairwise (Grows maxHeaderLen))
    (mem : g ∈ looks) : Grows maxHeaderLen g f :=
  (List.pairwise_append.mp ordered).2.2 g mem f (List.mem_singleton_self f)

theorem Follows.frame (h : Follows looks log u) (net : Net) (flush : Bool)
    (ordered : (looks ++ turn.looks).Pairwise (Grows maxHeaderLen)) :
    Follows (looks ++ turn.looks) (log ++ (handleFrame u flush turn net).2.1)
      (handleFrame u flush turn net).1 := by
  have does := handleFrame_cases u flush turn net
  generalize handleFrame u flush turn net = handled at does ⊢
  cases does with
  | waits | upToDate | failed =>
    rw [List.append_nil]
    exact h.look _
  | sent file read some' accepted =>
    have looks' : looks ++ turn.looks = (looks ++ contents turn.opened) ++ [file] := by
      rw [Turn.looks, read, List.append_assoc]
      rfl
    rw [looks'] at ordered ⊢
    exact (h.look _).part rfl some' fun g mem => grows_of_pairwise ordered mem

/-- The looks of a turn, with those before it in order and those after it to come. -/
theorem ordered_front {more : List Codec.Bytes}
    (ordered : (looks ++ more).Pairwise (Grows maxHeaderLen)) {front rest : List Codec.Bytes}
    (whole : more = front ++ rest) : (looks ++ front).Pairwise (Grows maxHeaderLen) := by
  rw [whole, ← List.append_assoc] at ordered
  exact (List.pairwise_append.mp ordered).1

theorem Follows.tailLoop (h : Follows looks log u) (net : Net)
    (ordered : (looks ++ turns.flatMap Turn.looks).Pairwise (Grows maxHeaderLen)) :
    Follows (looks ++ turns.flatMap Turn.looks) (log ++ (tailLoop net turns u).2.1)
      (tailLoop net turns u).1 := by
  induction turns generalizing looks log u with
  | nil =>
    simp only [List.flatMap_nil, Record.tailLoop, List.append_nil]
    exact h
  | cons turn turns ih =>
    rw [List.flatMap_cons] at ordered ⊢
    have first := h.frame net true (ordered_front ordered rfl)
    rw [← List.append_assoc] at ordered ⊢
    unfold Record.tailLoop
    simp only
    generalize handleFrame u true turn net = handled at first
    obtain ⟨u', sent, r⟩ := handled
    cases r with
    | error e => exact first.look _
    | ok _ =>
      simp only
      split
      · exact first.look _
      · have rest := ih first ordered
        rw [← List.append_assoc]
        exact rest

theorem Follows.header (h : Follows looks log u) (later : ∀ g ∈ looks, Grows maxHeaderLen g f) :
    Follows (looks ++ [f])
      (log ++
        [Request.tail u.filename 0 (f.take maxHeaderLen).length (f.take maxHeaderLen)]) u := by
  constructor
  · intro r mem
    rcases List.mem_append.mp mem with mem | mem
    · exact h.named r mem
    · rw [List.mem_singleton.mp mem]
      rfl
  · exact contiguous_append.mpr ⟨h.contiguous, trivial⟩
  · rw [uploaded_append, h.uploaded]
    rfl
  · have longer := h.copied
    rw [assemble_snoc, Request.apply, length_writeAt (Nat.zero_le _)]
    omega
  · intro g after
    have last := after f (by simp)
    rw [assemble_snoc]
    have copy := h.grows f later
    exact (grows_writeAt copy (Grows.refl _ f) (Nat.zero_le _) maxHeaderLen).trans last

theorem Follows.tail (h : Follows looks log u) {header : Except String Codec.Bytes}
    (ordered : (looks ++ (turns.flatMap Turn.looks ++ contents header)).Pairwise
      (Grows maxHeaderLen)) :
    Follows (looks ++ (turns.flatMap Turn.looks ++ contents header))
      (log ++ (handleTail u turns header net).2.1) (handleTail u turns header net).1 := by
  have loop := h.tailLoop net (ordered_front ordered rfl)
  rw [← List.append_assoc] at ordered ⊢
  unfold handleTail
  generalize Record.tailLoop net turns u = going at loop
  obtain ⟨u', sent, ended⟩ := going
  cases ended with
  | none => exact loop.look _
  | some r =>
    cases r with
    | error e => exact loop.look _
    | ok _ =>
      cases header with
      | error e => exact loop.look _
      | ok file =>
        simp only
        have ended := loop.header fun g mem => grows_of_pairwise ordered mem
        split
        · exact loop.look _
        · rw [← List.append_assoc]
          exact ended

theorem tailLoop_ends {most : Nat} (grown : ∀ turn ∈ turns, ∀ g ∈ turn.looks, g.length ≤ most)
    (enough : most < u.uploadSize + turns.length) (some' : turns ≠ []) :
    (tailLoop net turns u).2.2 ≠ none := by
  induction turns generalizing u with
  | nil => exact absurd rfl some'
  | cons turn turns ih =>
    unfold Record.tailLoop
    simp only
    have does := handleFrame_cases u true turn net
    generalize handleFrame u true turn net = handled at does
    cases does with
    | waits unforced => cases unforced
    | upToDate | failed => simp
    | sent file read some' accepted =>
      have size := grown turn List.mem_cons_self file
        (List.mem_append_right _ (mem_contents read))
      have piece := some'
      rw [List.length_take, List.length_drop] at piece
      simp only
      rw [if_neg (by omega)]
      apply ih (fun later mem => grown later (List.mem_cons_of_mem _ mem))
      · rw [List.length_cons] at enough
        simp only
        omega
      · rintro rfl
        simp only [List.length_cons, List.length_nil] at enough
        omega

/-- However it grew before. -/
theorem tailLoop_ends_after (front : List Turn) (ends : ∀ u, (tailLoop net turns u).2.2 ≠ none)
    (u : RecordUploader) : (tailLoop net (front ++ turns) u).2.2 ≠ none := by
  induction front generalizing u with
  | nil => exact ends u
  | cons turn front ih =>
    rw [List.cons_append]
    unfold Record.tailLoop
    simp only
    split
    · simp
    · split
      · simp
      · exact ih _

theorem handleTail_ends {header : Except String Codec.Bytes}
    (ends : (tailLoop net turns u).2.2 ≠ none) : (handleTail u turns header net).2.2 ≠ none := by
  unfold handleTail
  generalize Record.tailLoop net turns u = going at ends
  obtain ⟨u', sent, ended⟩ := going
  cases ended with
  | none => exact absurd rfl ends
  | some r =>
    cases r with
    | error e => simp
    | ok _ =>
      cases header with
      | error e => simp
      | ok file =>
        simp only
        split <;> simp

def Turn.readable (turn : Turn) : Bool := turn.opened.isOk && turn.read.isOk

def Event.readable : Event → Bool
  | .newFile _ _ _ | .removeFile _ => true
  | .newFrame turn _ => turn.readable
  | .writeTail turns header _ => turns.all Turn.readable && header.isOk

def Event.accepted (e : Event) : Prop := ∀ r, e.net r = .ok ()

theorem handleFrame_ok (flush : Bool) (readable : turn.readable = true)
    (accepted : ∀ r, net r = .ok ()) : (handleFrame u flush turn net).2.2 = .ok () := by
  have does := handleFrame_cases u flush turn net
  generalize handleFrame u flush turn net = handled at does
  cases does with
  | waits | upToDate | sent => rfl
  | failed e why =>
    simp only [Turn.readable, Bool.and_eq_true] at readable
    rcases why with opened | read | ⟨r, refused⟩
    · rw [opened] at readable
      cases readable.1
    · rw [read] at readable
      cases readable.2
    · rw [accepted r] at refused
      cases refused

theorem handleFrame_running (u : RecordUploader) (flush : Bool) (turn : Turn) (net : Net) :
    (handleFrame u flush turn net).1.running = u.running := by
  have does := handleFrame_cases u flush turn net
  generalize handleFrame u flush turn net = handled at does
  cases does with
  | waits | upToDate | failed | sent => rfl

theorem tailLoop_running (u : RecordUploader) (turns : List Turn) (net : Net) :
    (tailLoop net turns u).1.running = u.running := by
  induction turns generalizing u with
  | nil => rfl
  | cons turn turns ih =>
    have first := handleFrame_running u true turn net
    unfold Record.tailLoop
    simp only
    split
    · rename_i handled
      rw [handled] at first
      exact first
    · rename_i handled
      rw [handled] at first
      split
      · exact first
      · exact (ih _).trans first

theorem tailLoop_ok (readable : turns.all Turn.readable = true) (accepted : ∀ r, net r = .ok ())
    (e : String) : (tailLoop net turns u).2.2 ≠ some (.error e) := by
  induction turns generalizing u with
  | nil => simp [Record.tailLoop]
  | cons turn turns ih =>
    rw [List.all_cons, Bool.and_eq_true] at readable
    have first := handleFrame_ok (u := u) true readable.1 accepted
    unfold Record.tailLoop
    simp only
    split
    · rename_i handled
      rw [handled] at first
      cases first
    · split
      · simp
      · exact ih readable.2

/-- The turn after the last part finds nothing new. -/
theorem tailLoop_stops (net : Net) (turns : List Turn) (u : RecordUploader)
    (ended : (tailLoop net turns u).2.2 = some (.ok ())) :
    ∃ turn, turns[(tailLoop net turns u).2.1.length]? = some turn ∧
      ∃ g ∈ turn.looks, g.length ≤ (tailLoop net turns u).1.uploadSize := by
  induction turns generalizing u with
  | nil => cases ended
  | cons turn turns ih =>
    unfold Record.tailLoop at ended ⊢
    have does := handleFrame_cases u true turn net
    generalize handleFrame u true turn net = handled at does ended ⊢
    cases does with
    | waits unforced => cases unforced
    | upToDate file look covered =>
      simp only [if_true, List.length_nil, List.getElem?_cons_zero]
      exact ⟨turn, rfl, file, look, covered⟩
    | failed e why => cases ended
    | sent file read some' accepted =>
      simp only at ended ⊢
      rw [if_neg (by omega)] at ended ⊢
      simp only [List.singleton_append, List.length_cons, List.getElem?_cons_succ]
      exact ih _ ended

variable {t : Thread} {e : Event} {events : List Event}

theorem Follows.handle (h : Follows looks log u) (kind : e.isFrameOrTail = true)
    (ordered : (looks ++ e.looks).Pairwise (Grows maxHeaderLen)) :
    Follows (looks ++ e.looks) (log ++ (handle u e).2.1) (handle u e).1 := by
  have skipped : Follows (looks ++ e.looks) (log ++ []) u := by
    rw [List.append_nil]
    exact h.look _
  cases e with
  | newFile filepath now net => cases kind
  | removeFile net => cases kind
  | newFrame turn net =>
    simp only [Record.handle]
    split
    · exact h.frame _ false ordered
    · exact skipped
  | writeTail turns header net =>
    simp only [Record.handle]
    split
    · exact h.tail ordered
    · exact skipped

theorem Follows.settle (h : Follows looks log u) (ended : Option (Except String Unit)) :
    Follows looks log (settle u ended).uploader := by
  unfold Record.settle
  split
  · exact h
  · exact h
  · exact { h with }

theorem Follows.step (h : Follows looks log t.uploader) (kind : e.isFrameOrTail = true)
    (ordered : (looks ++ e.looks).Pairwise (Grows maxHeaderLen)) :
    Follows (looks ++ e.looks) (log ++ posted t e) (step t e).uploader := by
  unfold Record.step posted
  split
  · rw [List.append_nil]
    exact h.look _
  · exact (h.handle kind ordered).settle _

/-- **What was sent follows the file, whatever the frames and tails.** -/
theorem Follows.run (h : Follows looks log t.uploader)
    (kinds : ∀ e ∈ events, e.isFrameOrTail = true)
    (ordered : (looks ++ events.flatMap Event.looks).Pairwise (Grows maxHeaderLen)) :
    Follows (looks ++ events.flatMap Event.looks) (log ++ posts t events)
      (Runs.run Record.step t events).uploader := by
  induction events generalizing looks log t with
  | nil =>
    rw [posts, Runs.collect, List.flatMap_nil, List.append_nil, List.append_nil]
    exact h
  | cons e events ih =>
    rw [List.flatMap_cons] at ordered ⊢
    have first := h.step (kinds e List.mem_cons_self) (ordered_front ordered rfl)
    rw [← List.append_assoc] at ordered ⊢
    rw [posts, Runs.collect, ← List.append_assoc, Runs.run_cons]
    exact ih first (fun later mem => kinds later (List.mem_cons_of_mem _ mem)) ordered

theorem handle_running (running : u.running = true) (kind : e.isFrameOrTail = true)
    (readable : e.readable = true) (accepted : e.accepted) :
    (handle u e).1.running = true ∧ ∀ error, (handle u e).2.2 ≠ some (.error error) := by
  cases e with
  | newFile filepath now net => cases kind
  | removeFile net => cases kind
  | newFrame turn net =>
    simp only [Record.handle, if_pos running]
    refine ⟨(handleFrame_running u false turn net).trans running, fun error refused => ?_⟩
    have through : (handleFrame u false turn net).2.2 = .ok () :=
      handleFrame_ok false readable accepted
    rw [finished, through] at refused
    cases refused
  | writeTail turns header net =>
    rw [Event.readable, Bool.and_eq_true] at readable
    have loop : ∀ error, (tailLoop net turns u).2.2 ≠ some (.error error) :=
      tailLoop_ok readable.1 accepted
    have up := (tailLoop_running u turns net).trans running
    simp only [Record.handle, if_pos running]
    unfold handleTail
    generalize Record.tailLoop net turns u = going at loop up
    obtain ⟨u', sent, ended⟩ := going
    cases ended with
    | none => exact ⟨up, fun error refused => nomatch refused⟩
    | some r =>
      cases r with
      | error error => exact absurd rfl (loop error)
      | ok _ =>
        cases header with
        | error error => cases readable.2
        | ok file =>
          simp only
          rw [show net _ = .ok () from accepted _]
          exact ⟨up, fun error refused => nomatch refused⟩

theorem step_running (running : t.uploader.running = true) (kind : e.isFrameOrTail = true)
    (readable : e.readable = true) (accepted : e.accepted) :
    (step t e).uploader.running = true := by
  unfold Record.step
  split
  · exact running
  have does := handle_running running kind readable accepted
  simp only
  unfold settle
  split
  · exact does.1
  · exact does.1
  · rename_i error refused
    exact absurd refused (does.2 error)

theorem run_running (running : t.uploader.running = true)
    (kinds : ∀ e ∈ events, e.isFrameOrTail = true)
    (well : ∀ e ∈ events, e.readable = true ∧ e.accepted) :
    (Runs.run Record.step t events).uploader.running = true := by
  induction events generalizing t with
  | nil => exact running
  | cons e events ih =>
    have here := well e List.mem_cons_self
    have first := step_running running (kinds e List.mem_cons_self) here.1 here.2
    exact ih first (fun later mem => kinds later (List.mem_cons_of_mem _ mem))
      fun later mem => well later (List.mem_cons_of_mem _ mem)

/-- A tail that got through, of a file that grew no more by the turn it stopped in. -/
theorem Follows.whole (h : Follows looks log u) (running : u.running = true)
    (ordered : (looks ++ (Event.writeTail turns (.ok f) net).looks).Pairwise (Grows maxHeaderLen))
    (ended : (Record.handle u (.writeTail turns (.ok f) net)).2.2 = some (.ok ())) :
    let sent := (Record.handle u (.writeTail turns (.ok f) net)).2.1
    ∃ turn, turns[sent.length - 1]? = some turn ∧
      ((∀ g ∈ turn.looks, g.length = f.length) →
        Record.uploaded (log ++ sent) = f.length ∧ assemble (log ++ sent) = f) := by
  have going := h.tailLoop net (ordered_front ordered rfl)
  have stops := tailLoop_stops net turns u
  simp only [Record.handle, if_pos running] at ended ⊢
  unfold handleTail at ended ⊢
  generalize Record.tailLoop net turns u = result at going stops ended ⊢
  obtain ⟨u', sent, ended'⟩ := result
  cases ended' with
  | none => cases ended
  | some r =>
    cases r with
    | error error => cases ended
    | ok _ =>
      simp only at ended ⊢
      split at ended
      · cases ended
      rename_i accepted
      simp only [List.length_append, List.length_singleton, Nat.add_sub_cancel]
      obtain ⟨turn, here, g, look, covered⟩ := stops rfl
      refine ⟨turn, here, fun final => ?_⟩
      have size := final g look
      rw [Event.looks, ← List.append_assoc] at ordered
      replace going : Follows (looks ++ turns.flatMap Turn.looks) (log ++ sent) u' := going
      replace covered : g.length ≤ u'.uploadSize := covered
      have copy := going.grows f fun g mem => grows_of_pairwise ordered mem
      have long := going.copied
      have short := copy.1
      rw [← List.append_assoc, uploaded_append, going.uploaded, assemble_snoc, Request.apply]
      constructor
      · change u'.uploadSize + 0 = f.length
        omega
      · exact writeAt_head copy (by omega)

/-- A tail that left the thread running got through. -/
theorem tail_through {header : Except String Codec.Bytes}
    (before : t.busy = false) (after : (step t (.writeTail turns header net)).busy = false)
    (running : (step t (.writeTail turns header net)).uploader.running = true) :
    t.uploader.running = true ∧
      (Record.handle t.uploader (.writeTail turns header net)).2.2 = some (.ok ()) := by
  rw [Record.step, before, if_neg Bool.false_ne_true] at after running
  by_cases up : t.uploader.running = true
  · refine ⟨up, ?_⟩
    generalize Record.handle t.uploader (.writeTail turns header net) = handled at after running
    obtain ⟨u', sent, ended⟩ := handled
    cases ended with
    | none => cases after
    | some r =>
      cases r with
      | error error => cases running
      | ok _ => rfl
  · simp only [Record.handle, if_neg up, settle] at running
    exact absurd running up

theorem follows_newFile {filepath : String} {name : List Char} (now : Nat)
    (named : fileName filepath.toList = some name) (idle : t.busy = false)
    (started : net (.new (String.ofList name)) = .ok ()) :
    let began := Record.step t (.newFile filepath now net)
    posted t (.newFile filepath now net) = [.new (String.ofList name)] ∧
      began.uploader.running = true ∧ Follows [] [.new (String.ofList name)] began.uploader := by
  have does : handle t.uploader (.newFile filepath now net) =
      ({ t.uploader with
          filename := String.ofList name, filepath, uploadSize := 0, running := true
          lastSend := now }, [.new (String.ofList name)], some (.ok ())) := by
    simp only [Record.handle, handleNewFile, named, started, finished]
  simp only [Record.step, posted, idle, does, Bool.false_eq_true, if_false, settle]
  refine ⟨trivial, trivial, ?_⟩
  constructor
  · intro r mem
    rw [List.mem_singleton.mp mem]
    rfl
  · trivial
  · rfl
  · exact Nat.zero_le _
  · intro f _
    exact grows_nil _ f

/-- **What the server gets.** After a new file, through whatever frames and tails: the
parts follow one another from the start of the file; once a tail got through, of a file
that had its length when the tail last looked, they make the whole file, and the head
written over them makes it exactly; while the file can be read and requests go through,
the thread keeps running; and a tail comes to its end once the file grows no more. -/
theorem upload_exact (t : Thread) (idle : t.busy = false) (filepath : String)
    (name : List Char) (named : fileName filepath.toList = some name) (now : Nat) (net : Net)
    (started : net (.new (String.ofList name)) = .ok ()) (events : List Event)
    (kinds : ∀ e ∈ events, e.isFrameOrTail = true) (accepted : ∀ e ∈ events, e.accepted)
    (ordered : (events.flatMap Event.looks).Pairwise (Grows maxHeaderLen)) :
    let all := .newFile filepath now net :: events
    let log := posts t all
    (Contiguous 0 log ∧ uploaded log = (Runs.run step t all).uploader.uploadSize ∧
      ∀ r ∈ log, r.file = String.ofList name) ∧
    (∀ before turns f server, events = before ++ [Event.writeTail turns (.ok f) server] →
      let waiting := Runs.run step t (.newFile filepath now net :: before)
      waiting.busy = false → (Runs.run step t all).busy = false →
      (Runs.run step t all).uploader.running = true →
      ∃ turn, turns[(posted waiting (.writeTail turns (.ok f) server)).length - 1]? = some turn ∧
        ((∀ g ∈ turn.looks, g.length = f.length) → uploaded log = f.length ∧ assemble log = f)) ∧
    ((∀ e ∈ events, e.readable = true) → (Runs.run step t all).uploader.running = true) ∧
    (∀ (u : RecordUploader) (server : Net) (header : Except String Codec.Bytes)
      (front turns : List Turn) (most : Nat),
      (∀ turn ∈ turns, ∀ g ∈ turn.looks, g.length ≤ most) → most < turns.length →
      (handleTail u (front ++ turns) header server).2.2 ≠ none) := by
  obtain ⟨sent, running, follows⟩ := follows_newFile now named idle started
  intro all log
  have whole := follows.run kinds (ordered : ([] ++ events.flatMap Event.looks).Pairwise _)
  rw [← sent] at whole
  refine ⟨⟨whole.contiguous, whole.uploaded, fun r mem => ?_⟩, ?_, fun readable => ?_, ?_⟩
  · rw [whole.named r mem, ← whole.named (.new (String.ofList name)) (by simp [sent])]
    rfl
  · intro before turns f server isTail waiting free free' running'
    subst isTail
    have earlier : ∀ e ∈ before, e ∈ before ++ [Event.writeTail turns (.ok f) server] :=
      fun e mem => List.mem_append_left _ mem
    rw [List.flatMap_append, List.flatMap_singleton] at ordered
    have fromStart : ([] ++ (before.flatMap Event.looks ++
        (Event.writeTail turns (.ok f) server).looks)).Pairwise (Grows maxHeaderLen) := ordered
    have until' := follows.run (fun e mem => kinds e (earlier e mem))
      (ordered_front fromStart rfl)
    have isLog : log = [Request.new (String.ofList name)] ++
        posts (Record.step t (.newFile filepath now net)) before ++
        posted waiting (.writeTail turns (.ok f) server) := by
      rw [← sent]
      simp [log, all, waiting, posts, Runs.collect, Runs.collect_append, Runs.run_cons]
    have last : Runs.run Record.step t all =
        Record.step waiting (.writeTail turns (.ok f) server) := by
      simp [all, waiting, Runs.run_append]
    rw [last] at free' running'
    obtain ⟨up, through⟩ := tail_through free free' running'
    have handled : posted waiting (.writeTail turns (.ok f) server) =
        (Record.handle waiting.uploader (.writeTail turns (.ok f) server)).2.1 := by
      rw [posted, free, if_neg Bool.false_ne_true]
    rw [isLog, handled]
    exact until'.whole up ordered through
  · have well : ∀ e ∈ events, e.readable = true ∧ e.accepted :=
      fun e mem => ⟨readable e mem, accepted e mem⟩
    exact run_running (t := Record.step t (.newFile filepath now net)) running kinds well
  · intro u server header front turns most grown enough
    apply handleTail_ends
    apply tailLoop_ends_after
    intro u
    refine tailLoop_ends grown (by omega) ?_
    rintro rfl
    exact absurd enough (Nat.not_lt_zero most)

def sampleTurn (now : Nat) (file : Codec.Bytes) : Turn := ⟨now, .ok file, .ok file, now⟩

def sampleTail : Event :=
  .writeTail [sampleTurn 2 [1, 2], sampleTurn 3 [9, 2, 3], sampleTurn 4 [9, 2, 3]]
    (.ok [9, 2, 3]) fun _ => .ok ()

def sampleEvents : List Event := [.newFrame (sampleTurn 1 [1]) fun _ => .ok (), sampleTail]

/-- A head rewritten between two parts of the tail. -/
theorem upload_exact_rewrittenHead :
    assemble (posts {} (.newFile "/videos/a.webm" 0 (fun _ => .ok ()) :: sampleEvents)) =
      [9, 2, 3] := by
  have short : (sampleEvents.flatMap Event.looks).Pairwise
      fun f g => f.length ≤ maxHeaderLen ∧ f.length ≤ g.length := by decide
  have ordered := short.imp fun bounds => grows_of_short bounds.1 bounds.2
  have accepted : ∀ e ∈ sampleEvents, e.accepted := by
    intro e mem
    simp only [sampleEvents, sampleTail, List.mem_cons, List.not_mem_nil, or_false] at mem
    rcases mem with rfl | rfl <;> exact fun _ => rfl
  obtain ⟨-, whole, -⟩ := upload_exact {} rfl "/videos/a.webm" "a.webm".toList (by decide) 0
    (fun _ => .ok ()) rfl sampleEvents (by decide) accepted ordered
  obtain ⟨turn, here, exact'⟩ := whole [_] _ _ _ rfl rfl rfl rfl
  have stopped : sampleTurn 4 [9, 2, 3] = turn := Option.some.inj here
  exact (exact' (by rw [← stopped]; decide)).2

end CamelliaRemote.Record
