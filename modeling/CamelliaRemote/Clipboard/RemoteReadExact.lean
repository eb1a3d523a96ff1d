import CamelliaRemote.Clipboard.RemoteRead

namespace CamelliaRemote.Clipboard.Mount
open Codec MachineInt Runs FuseServer

variable {fs : Fs} {s s' : RemoteMount} {r : Reading} {data : Bytes}

def streamIdOf : ClipboardFile → Option Int
  | .fileContentsRequest streamId _ _ _ _ _ _ _ => some streamId
  | .fileContentsResponse _ streamId _ => some streamId
  | _ => none

namespace RemoteMount

/-- The messages for the channel, the first to be received first. -/
def arriving (s : RemoteMount) : List ClipboardFile := s.rx ++ s.fromPeer.flatMap channelled

/-- Stream ids are fresh: that of a new read is carried by nothing under way, and no
other connection hits upon that of a waiting read. -/
def Fresh (s : RemoteMount) : RemoteEvent → Prop
  | .read _ _ _ _ streamId _ =>
    (∀ clip ∈ s.toPeer, streamIdOf clip ≠ some streamId) ∧
      ∀ clip ∈ s.arriving, streamIdOf clip ≠ some streamId
  | .foreign _ streamId _ => ∀ r ∈ s.reading, streamId ≠ r.streamId
  | .call _ | .serve _ | .arrive | .receive _ | .timeout | .peer _ => True

instance (s : RemoteMount) (e : RemoteEvent) : Decidable (s.Fresh e) := by
  cases e <;> unfold Fresh <;> infer_instance

/-- The event is the start of a read that waits. -/
def Begins (s : RemoteMount) (e : RemoteEvent) : Prop :=
  s.reading = none ∧ (s.step e).reading ≠ none

/-- The peer serves a request, and `data` is the range that the read is for, of the
file that has the node's place in the list as it is now. -/
def Gives (r : Reading) (data : Bytes) (s : RemoteMount) (e : RemoteEvent) : Prop :=
  ∃ fs file bytes, e = .serve fs ∧ s.peerFiles.fileList[r.node.index]? = some file ∧
    fs.content file.path = .ok bytes ∧ r.offset.toNat ≤ file.size.toNat ∧
    let stop := min (r.offset.toNat + r.size) file.size.toNat
    data = (bytes.take stop).drop r.offset.toNat ∧ data.length = stop - r.offset.toNat

/-- Nothing is under way. -/
structure Idle (s : RemoteMount) : Prop where
  reading : s.reading = none
  rx : s.rx = []
  toPeer : s.toPeer = []
  fromPeer : s.fromPeer = []
  inPlace : s.peerFiles.InPlace

end RemoteMount

/-- The index, the offset and the length of the read survive their way to the peer. -/
structure Reading.Survives (r : Reading) : Prop where
  index : r.node.index < 2 ^ 31
  positive : 0 ≤ r.offset
  offset : r.offset < 2 ^ 63
  low : r.offset % 2 ^ 32 < 2 ^ 31
  size : r.size < 2 ^ 31

theorem request_eq (r : Reading) :
    r.request = .fileContentsRequest r.streamId (asI32 r.node.index) 2
      (asI32 (r.offset % 2 ^ 32)) (asI32 (r.offset / 2 ^ 32)) (asI32 r.size) false 0 := rfl

/-- The peer decodes the very range that the read is for. -/
theorem decode_request (survives : r.Survives) :
    FileContentsRequest.decode r.streamId (asI32 r.node.index) 2 (asI32 (r.offset % 2 ^ 32))
        (asI32 (r.offset / 2 ^ 32)) (asI32 r.size) =
      .ok (.range r.streamId r.node.index r.offset.toNat r.size) := by
  obtain ⟨offset, natural⟩ := Int.eq_ofNat_of_zero_le survives.positive
  have fits : offset < 2 ^ 63 := by
    have := survives.offset
    omega
  have clear : offset % 2 ^ 32 < 2 ^ 31 := by
    have := survives.low
    omega
  have high : r.offset / 2 ^ 32 = (offset / 2 ^ 32 : Nat) := by omega
  have low : r.offset % 2 ^ 32 = (offset % 2 ^ 32 : Nat) := by omega
  have position : r.offset.toNat = offset := by omega
  rw [high, low, position, FileContentsRequest.decode, if_neg (by decide), if_pos rfl]
  simp only [joined_halves fits clear, asU64_asI32_of_lt survives.index,
    asU64_asI32_of_lt survives.size]

/-- A response among the results is that of the request. -/
theorem serve_of_response {connId streamId listIndex dwFlags low high cb msgFlags id : Int}
    {files files' : ClipFiles} {request : FileContentsRequest}
    {results : List (Except CliprdrError ClipboardFile)}
    (decoded : FileContentsRequest.decode streamId listIndex dwFlags low high cb = .ok request)
    (read : files.readFileContents fs connId streamId listIndex dwFlags low high cb =
      some (files', results))
    (mem : .ok (.fileContentsResponse msgFlags id data) ∈ results) :
    files.serveFileContents fs connId request =
      some (files', .ok (.fileContentsResponse msgFlags id data)) := by
  unfold ClipFiles.readFileContents at read
  rw [decoded] at read
  cases served : files.serveFileContents fs connId request with
  | none => simp [served] at read
  | some result =>
    obtain ⟨after, result⟩ := result
    simp only [served, Option.some.injEq, Prod.mk.injEq] at read
    obtain ⟨rfl, rfl⟩ := read
    rcases List.mem_append.mp mem with audited | answered
    · obtain ⟨record, recorded, is⟩ := Option.map_eq_some_iff.mp (Option.mem_toList.mp audited)
      cases is
      unfold ClipFiles.getFilesForAudit at recorded
      split at recorded
      · cases recorded
      · split_ifs at recorded
        cases recorded
    · rw [List.mem_singleton.mp answered]

/-- A range that is answered is that of the file. -/
theorem answers_of_range {connId streamId msgFlags id : Int} {files files' : ClipFiles}
    {fileIdx offset length : Nat} (inPlace : files.InPlace) (fits : offset + length < 2 ^ 63)
    (served : files.serveFileContents fs connId (.range streamId fileIdx offset length) =
      some (files', .ok (.fileContentsResponse msgFlags id data))) :
    id = streamId ∧ Answers fs files (.range streamId fileIdx offset length) data := by
  cases listed : files.fileList[fileIdx]? with
  | none => simp [ClipFiles.serveFileContents, listed] at served
  | some file =>
    by_cases within : offset ≤ file.size.toNat
    · have small : readSize file.size.toNat offset length < 2 ^ 63 := by
        rw [readSize_eq_min (by omega) within]
        omega
      obtain ⟨after, result, again, failed | ⟨bytes, data', found, isData, size, answered⟩⟩ :=
        serve_range connId streamId listed within small inPlace
      · obtain ⟨e, failed⟩ := failed
        rw [served] at again
        simp [failed] at again
      · rw [served, answered] at again
        simp only [Option.some.injEq, Prod.mk.injEq, Except.ok.injEq,
          ClipboardFile.fileContentsResponse.injEq] at again
        obtain ⟨-, -, rfl, rfl⟩ := again
        exact ⟨rfl, answers_range listed within (by omega) found isData size⟩
    · rw [ClipFiles.serveFileContents, listed] at served
      simp [Nat.not_le.mp within] at served

theorem mem_channelled {clip : ClipboardFile} {msgFlags id : Int}
    (mem : .fileContentsResponse msgFlags id data ∈ RemoteMount.channelled (clip2Msg fs clip)) :
    clip = .fileContentsResponse msgFlags id data := by
  cases clip <;> simp [clip2Msg, RemoteMount.channelled, msg2Clip] at mem ⊢
  simp [mem]

/-- The messages of the peer for a range. -/
theorem response_of_request {streamId listIndex dwFlags low high cb msgFlags id clipId : Int}
    {fileIdx offset length : Nat} {haveId : Bool} {served : Served} {files : ClipFiles}
    (decoded : FileContentsRequest.decode streamId listIndex dwFlags low high cb =
      .ok (.range streamId fileIdx offset length))
    (inPlace : files.InPlace) (fits : offset + length < 2 ^ 63)
    (serves : serveClipMessages .linux fs 0 files
      (.fileContentsRequest streamId listIndex dwFlags low high cb haveId clipId) = some served)
    (mem : .fileContentsResponse msgFlags id data ∈
      served.messages.flatMap RemoteMount.channelled) :
    id = streamId ∧ (msgFlags % 2 ≠ 0 →
      Answers fs files (.range streamId fileIdx offset length) data) := by
  rw [serveClipMessages] at serves
  cases read : files.readFileContents fs 0 streamId listIndex dwFlags low high cb with
  | none => simp [read] at serves
  | some result =>
    obtain ⟨after, results⟩ := result
    simp only [read, Option.some.injEq] at serves
    subst serves
    obtain ⟨msg, isMsg, channel⟩ := List.mem_flatMap.mp mem
    obtain ⟨result, isResult, rfl⟩ := List.mem_map.mp isMsg
    cases result with
    | error e =>
      cases mem_channelled channel
      exact ⟨rfl, fun odd => absurd rfl odd⟩
    | ok clip =>
      cases mem_channelled channel
      obtain ⟨same, answers⟩ :=
        answers_of_range inPlace fits (serve_of_response decoded read isResult)
      exact ⟨same, fun _ => answers⟩

/-- An answer has the stream id of its request. -/
theorem streamId_of_served {connId msgFlags id : Int} {files files' : ClipFiles}
    {request : FileContentsRequest}
    (served : files.serveFileContents fs connId request =
      some (files', .ok (.fileContentsResponse msgFlags id data))) :
    (∃ fileIdx, request = .size id fileIdx) ∨
      ∃ fileIdx offset length, request = .range id fileIdx offset length := by
  have answer {s : ClipFiles} {fileIdx : Nat} {streamId : Int} {bytes : Bytes}
      (responded : s.respond fs fileIdx (.fileContentsResponse 0x1 streamId bytes) =
        (files', .ok (.fileContentsResponse msgFlags id data))) : streamId = id := by
    rcases respond_result fileIdx (.fileContentsResponse 0x1 streamId bytes) with
      ⟨e, failed⟩ | answered
    · rw [responded] at failed
      cases failed
    · rw [responded] at answered
      cases answered
      rfl
  cases request with
  | size streamId fileIdx =>
    left
    unfold ClipFiles.serveFileContents at served
    simp only at served
    split at served
    · cases served
    · exact ⟨fileIdx, by rw [answer (Option.some.inj served)]⟩
  | range streamId fileIdx offset length =>
    right
    unfold ClipFiles.serveFileContents at served
    simp only at served
    split at served
    · cases served
    rename_i file listed
    by_cases beyond : file.size.toNat < offset
    · rw [if_pos beyond] at served
      cases served
    rw [if_neg beyond] at served
    generalize (if file.size.toNat < (offset + length) % 2 ^ 64 then file.size.toNat - offset
      else length) = readSize at served
    by_cases large : 2 ^ 63 ≤ readSize
    · rw [if_pos large] at served
      cases served
    rw [if_neg large] at served
    split at served
    · cases served
    · exact ⟨fileIdx, offset, length, by rw [answer (Option.some.inj served)]⟩

/-- A message of the peer for the channel has the stream id of the request. -/
theorem streamId_of_message {served : Served} {files : ClipFiles} {clip : ClipboardFile}
    {msgFlags id : Int} (serves : serveClipMessages .linux fs 0 files clip = some served)
    (mem : .fileContentsResponse msgFlags id data ∈
      served.messages.flatMap RemoteMount.channelled) :
    streamIdOf clip = some id := by
  cases clip with
  | fileContentsRequest streamId listIndex dwFlags low high cb haveId clipId =>
    rw [serveClipMessages] at serves
    cases read : files.readFileContents fs 0 streamId listIndex dwFlags low high cb with
    | none => simp [read] at serves
    | some result =>
      obtain ⟨after, results⟩ := result
      simp only [read, Option.some.injEq] at serves
      subst serves
      obtain ⟨msg, isMsg, channel⟩ := List.mem_flatMap.mp mem
      obtain ⟨result, isResult, rfl⟩ := List.mem_map.mp isMsg
      cases result with
      | error e =>
        cases mem_channelled channel
        rfl
      | ok clip =>
        cases mem_channelled channel
        cases decoded : FileContentsRequest.decode streamId listIndex dwFlags low high cb with
        | error e => simp [ClipFiles.readFileContents, decoded] at read; simp [← read.2] at isResult
        | ok request =>
          have answered := streamId_of_served (serve_of_response decoded read isResult)
          have asked := request_cases (c := ⟨fs, 0, streamId, listIndex, dwFlags, low, high, cb⟩)
            decoded
          rcases asked with ⟨_, rfl⟩ | ⟨_, _, rfl⟩ <;> simp at answered <;>
            simp [streamIdOf, answered]
  | formatList formats =>
    rw [serveClipMessages] at serves
    split at serves <;> cases serves <;> simp [clip2Msg, RemoteMount.channelled, msg2Clip] at mem
  | formatDataRequest requested =>
    rw [serveClipMessages] at serves
    split at serves <;> cases serves <;>
      simp [clip2Msg, RemoteMount.channelled, msg2Clip, respFormatDataFailure] at mem
  | formatDataResponse | fileContentsResponse =>
    unfold serveClipMessages at serves
    simp only at serves
    split at serves <;> cases serves <;> cases mem
  | notifyCallback | monitorReady | formatListResponse | tryEmpty | files =>
    cases serves
    cases mem

/-- Serving opens and moves readers only. -/
theorem reread_serveClipMessages {served : Served} {files : ClipFiles} {clip : ClipboardFile}
    (serves : serveClipMessages .linux fs 0 files clip = some served) :
    files.Reread served.files := by
  cases clip with
  | fileContentsRequest streamId listIndex dwFlags low high cb haveId clipId =>
    rw [serveClipMessages] at serves
    have kept := reread_perform ⟨fs, 0, streamId, listIndex, dwFlags, low, high, cb⟩ files
    unfold Clipboard.Call.perform at kept
    cases read : files.readFileContents fs 0 streamId listIndex dwFlags low high cb with
    | none => simp [read] at serves
    | some result =>
      simp only [read, Option.some.injEq] at serves
      subst serves
      rw [read] at kept
      exact kept
  | formatList | formatDataRequest | formatDataResponse | fileContentsResponse =>
    unfold serveClipMessages at serves
    simp only at serves
    split at serves <;> cases serves <;> exact .refl files
  | notifyCallback | monitorReady | formatListResponse | tryEmpty | files =>
    cases serves
    exact .refl files

namespace RemoteMount

variable {w : RemoteMount} {es : List RemoteEvent} {e : RemoteEvent}

/-- What is under way for the waiting read, after the run `es` from `w`. -/
structure Kept (w : RemoteMount) (es : List RemoteEvent) : Prop where
  inPlace : (Runs.run step w es).peerFiles.InPlace
  asked : ∀ r, (Runs.run step w es).reading = some r → ∀ clip ∈ (Runs.run step w es).toPeer,
    streamIdOf clip = some r.streamId → clip = r.request
  given : ∀ r, (Runs.run step w es).reading = some r → r.Survives →
    ∀ msgFlags data, msgFlags % 2 ≠ 0 →
      .fileContentsResponse msgFlags r.streamId data ∈ (Runs.run step w es).arriving →
      Since step (Gives r data) Begins w es

/-- The read is the same, but for the times it was tried. -/
def SameRead (r r' : Reading) : Prop := ∃ retryTimes, r' = { r with retryTimes }

theorem SameRead.refl (r : Reading) : SameRead r r := ⟨r.retryTimes, rfl⟩

theorem SameRead.survives {r r' : Reading} (same : SameRead r r') (survives : r'.Survives) :
    r.Survives := by
  obtain ⟨retryTimes, rfl⟩ := same
  exact ⟨survives.index, survives.positive, survives.offset, survives.low, survives.size⟩

/-- A step in which no read begins. -/
theorem kept_snoc (kept : Kept w es)
    (inPlace : ((Runs.run step w es).step e).peerFiles.InPlace)
    (reading : ∀ r', ((Runs.run step w es).step e).reading = some r' →
      ∃ r, (Runs.run step w es).reading = some r ∧ SameRead r r')
    (asked : ∀ r', ((Runs.run step w es).step e).reading = some r' →
      ∀ clip ∈ ((Runs.run step w es).step e).toPeer,
        clip ∈ (Runs.run step w es).toPeer ∨ clip = r'.request)
    (given : ∀ r, (Runs.run step w es).reading = some r → r.Survives →
      ∀ msgFlags data, msgFlags % 2 ≠ 0 →
        .fileContentsResponse msgFlags r.streamId data ∈
          ((Runs.run step w es).step e).arriving →
        .fileContentsResponse msgFlags r.streamId data ∈ (Runs.run step w es).arriving ∨
          Gives r data (Runs.run step w es) e) : Kept w (es ++ [e]) := by
  have after : Runs.run step w (es ++ [e]) = (Runs.run step w es).step e := by simp
  refine ⟨after ▸ inPlace, ?_, ?_⟩
  · intro r' waits clip mem id
    rw [after] at waits mem
    obtain ⟨r, before, retryTimes, rfl⟩ := reading r' waits
    rcases asked _ waits clip mem with old | new
    · exact kept.asked r before clip old id
    · exact new
  · intro r' waits survives msgFlags data odd mem
    rw [after] at waits mem
    obtain ⟨r, before, same⟩ := reading r' waits
    have live := same.survives survives
    obtain ⟨retryTimes, rfl⟩ := same
    rw [since_snoc]
    rcases given r before live msgFlags data odd mem with old | now
    · right
      refine ⟨kept.given r before live msgFlags data odd old, fun begins => ?_⟩
      rw [begins.1] at before
      cases before
    · exact .inl now

/-- A step that leaves the waiting read and its messages as they are, or takes some away. -/
theorem kept_still (kept : Kept w es)
    (inPlace : ((Runs.run step w es).step e).peerFiles.InPlace)
    (reading : ∀ r, ((Runs.run step w es).step e).reading = some r →
      (Runs.run step w es).reading = some r)
    (toPeer : ((Runs.run step w es).step e).toPeer ⊆ (Runs.run step w es).toPeer)
    (arriving : ((Runs.run step w es).step e).arriving ⊆ (Runs.run step w es).arriving) :
    Kept w (es ++ [e]) := by
  apply kept_snoc kept inPlace
  · intro r waits
    exact ⟨r, reading r waits, .refl r⟩
  · intro r _ clip mem
    exact .inl (toPeer mem)
  · intro r _ _ msgFlags data _ mem
    exact .inl (arriving mem)

theorem kept_same (kept : Kept w es)
    (same : (Runs.run step w es).step e = Runs.run step w es) : Kept w (es ++ [e]) := by
  apply kept_still kept <;> rw [same]
  · exact kept.inPlace
  · exact fun r waits => waits
  · exact fun clip mem => mem
  · exact fun clip mem => mem

/-- A read that begins has a stream id of its own. -/
theorem kept_read (kept : Kept w es) {ino fh size : Nat} {offset streamId : Int} {sent : Bool}
    (fresh : Fresh (Runs.run step w es) (.read ino fh offset size streamId sent)) :
    Kept w (es ++ [RemoteEvent.read ino fh offset size streamId sent]) := by
  by_cases busy : (Runs.run step w es).reading.isSome = true
  · exact kept_same kept (by simp [step, handle, busy])
  cases found : (Runs.run step w es).server.readable ino fh with
  | none => exact kept_same kept (by simp [step, handle, busy, start, found])
  | some node =>
    cases sent with
    | false => exact kept_same kept (by simp [step, handle, busy, start, found])
    | true =>
      have begun : Runs.run step w (es ++ [RemoteEvent.read ino fh offset size streamId true]) =
          { Runs.run step w es with
            reading := some { node, offset, size, streamId }
            toPeer := (Runs.run step w es).toPeer ++
              [Reading.request { node, offset, size, streamId }] } := by
        simp [step, handle, busy, start, found]
      refine ⟨?_, ?_, ?_⟩ <;> rw [begun]
      · exact kept.inPlace
      · intro r waits clip mem id
        cases waits
        rcases List.mem_append.mp mem with old | new
        · exact absurd id (fresh.1 clip old)
        · exact List.mem_singleton.mp new
      · intro r waits _ msgFlags data _ mem
        cases waits
        exact absurd rfl (fresh.2 _ mem)

/-- The peer serves a request. -/
theorem kept_serve (kept : Kept w es) (fs : Fs) : Kept w (es ++ [RemoteEvent.serve fs]) := by
  generalize is : Runs.run step w es = s
  have inPlace : s.peerFiles.InPlace := is ▸ kept.inPlace
  have stepped : (Runs.run step w es).step (.serve fs) = s.serve fs := by rw [is]; rfl
  cases waiting : s.toPeer with
  | nil => exact kept_same kept (by rw [stepped, is, serve, waiting])
  | cons request rest =>
    cases serves : serveClipMessages .linux fs 0 s.peerFiles request with
    | none =>
      have dropped : s.serve fs = { s with toPeer := rest } := by simp [serve, waiting, serves]
      apply kept_still kept <;> rw [stepped, dropped]
      · exact inPlace
      · exact fun r waits => is ▸ waits
      · rw [is, waiting]
        exact List.subset_cons_self _ _
      · exact fun clip mem => is ▸ mem
    | some served =>
      have done : s.serve fs = { s with
          toPeer := rest
          peerFiles := served.files
          fromPeer := s.fromPeer ++ served.messages.filter isSent } := by
        simp [serve, waiting, serves]
      apply kept_snoc kept <;> rw [stepped, done]
      · exact (reread_serveClipMessages serves).inPlace inPlace
      · exact fun r waits => ⟨r, is ▸ waits, .refl r⟩
      · intro r waits clip mem
        rw [is, waiting]
        exact .inl (List.mem_cons_of_mem _ mem)
      · intro r waits survives msgFlags data odd mem
        rw [is] at waits ⊢
        simp only [arriving, List.flatMap_append, List.mem_append] at mem ⊢
        rcases mem with old | old | new
        · exact .inl (.inl old)
        · exact .inl (.inr old)
        right
        have sends : .fileContentsResponse msgFlags r.streamId data ∈
            served.messages.flatMap channelled := by
          obtain ⟨msg, isMsg, channel⟩ := List.mem_flatMap.mp new
          exact List.mem_flatMap.mpr ⟨msg, List.mem_of_mem_filter isMsg, channel⟩
        have head : request ∈ (Runs.run step w es).toPeer := by
          rw [is, waiting]
          exact List.mem_cons_self
        have its : request = r.request :=
          kept.asked r (is ▸ waits) request head (streamId_of_message serves sends)
        rw [its, request_eq] at serves
        have fits : r.offset.toNat + r.size < 2 ^ 63 := by
          have := survives.offset
          have := survives.size
          have := survives.low
          omega
        obtain ⟨-, answers⟩ :=
          response_of_request (decode_request survives) inPlace fits serves sends
        obtain ⟨file, bytes, listed, found, within, isData, size⟩ := answers odd
        exact ⟨fs, file, bytes, rfl, listed, found, within, isData, size⟩

/-- A message of the peer goes from the one queue into the other. -/
theorem kept_arrive (kept : Kept w es) : Kept w (es ++ [RemoteEvent.arrive]) := by
  cases sent : (Runs.run step w es).fromPeer with
  | nil => exact kept_same kept (by simp [step, handle, sent])
  | cons msg rest =>
    have stepped : (Runs.run step w es).step .arrive =
        { Runs.run step w es with
          fromPeer := rest, rx := (Runs.run step w es).rx ++ channelled msg } := by
      simp [step, handle, sent]
    apply kept_still kept <;> rw [stepped]
    · exact kept.inPlace
    · exact fun r waits => waits
    · exact fun clip mem => mem
    · simp [arriving, sent]

theorem kept_foreign (kept : Kept w es) {msgFlags streamId : Int} {requestedData : Bytes}
    (fresh : Fresh (Runs.run step w es) (.foreign msgFlags streamId requestedData)) :
    Kept w (es ++ [RemoteEvent.foreign msgFlags streamId requestedData]) := by
  apply kept_snoc kept
  · exact kept.inPlace
  · exact fun r waits => ⟨r, waits, .refl r⟩
  · exact fun r _ clip mem => .inl mem
  · intro r waits _ msgFlags' data _ mem
    have other := fresh r waits
    simp only [step, handle, arriving, List.mem_append, List.mem_singleton,
      ClipboardFile.fileContentsResponse.injEq] at mem ⊢
    rcases mem with (old | ⟨-, same, -⟩) | old
    · exact .inl (.inl old)
    · exact absurd same.symm other
    · exact .inl (.inr old)

/-- The loop takes a response; it ends, goes on, or asks once more. -/
theorem receive_cases (s : RemoteMount) (r : Reading) (sent : Bool) :
    s.receive r sent = (s, none) ∨
      ∃ reply rx, s.rx = reply :: rx ∧
        (s.receive r sent = ({ s with rx }, none) ∨
          (∃ answer, s.receive r sent = ({ s with rx, reading := none }, some (r, answer)) ∧
            ∀ data, answer = some data → ∃ msgFlags, msgFlags % 2 ≠ 0 ∧
              reply = .fileContentsResponse msgFlags r.streamId data) ∨
          ∃ retryTimes, s.receive r sent =
            ({ s with rx, reading := some { r with retryTimes }
                      toPeer := s.toPeer ++ [r.request] }, none)) := by
  cases received : s.rx with
  | nil => exact .inl (by simp [receive, received])
  | cons reply rx =>
    right
    refine ⟨reply, rx, rfl, ?_⟩
    cases reply with
    | fileContentsResponse msgFlags streamId requestedData =>
      by_cases other : streamId ≠ r.streamId
      · left
        simp [receive, received, other]
      · rw [not_not] at other
        subst other
        right
        by_cases failed : msgFlags % 2 = 0
        · by_cases ends : (readRetry < r.retryTimes + 1 || !sent) = true
          · left
            refine ⟨none, ?_, by simp⟩
            unfold receive
            rw [received]
            dsimp only
            rw [if_neg (not_not.mpr rfl), if_pos failed, if_pos ends]
          · right
            refine ⟨r.retryTimes + 1, ?_⟩
            unfold receive
            rw [received]
            dsimp only
            rw [if_neg (not_not.mpr rfl), if_pos failed, if_neg ends]
            rfl
        · left
          refine ⟨some requestedData, by simp [receive, received, failed], ?_⟩
          intro data is
          cases is
          exact ⟨msgFlags, failed, rfl⟩
    | notifyCallback | monitorReady | formatList | formatListResponse | formatDataRequest |
        formatDataResponse | fileContentsRequest | tryEmpty | files =>
      right
      left
      exact ⟨none, by simp [receive, received], by simp⟩

theorem kept_receive (kept : Kept w es) (sent : Bool) :
    Kept w (es ++ [RemoteEvent.receive sent]) := by
  cases waits : (Runs.run step w es).reading with
  | none => exact kept_same kept (by simp [step, handle, waits])
  | some r =>
    have stepped : (Runs.run step w es).step (.receive sent) =
        ((Runs.run step w es).receive r sent).1 := by simp [step, handle, waits]
    rcases receive_cases (Runs.run step w es) r sent with
      same | ⟨reply, rx, received, taken | ⟨answer, ended, -⟩ | ⟨retryTimes, again⟩⟩
    · exact kept_same kept (by rw [stepped, same])
    · apply kept_still kept <;> rw [stepped, taken]
      · exact kept.inPlace
      · exact fun r waits => waits
      · exact fun clip mem => mem
      · simp [arriving, received]
    · apply kept_still kept <;> rw [stepped, ended]
      · exact kept.inPlace
      · exact fun r waits => absurd waits (by simp)
      · exact fun clip mem => mem
      · simp [arriving, received]
    · apply kept_snoc kept <;> rw [stepped, again]
      · exact kept.inPlace
      · intro r' is
        cases is
        exact ⟨r, waits, retryTimes, rfl⟩
      · intro r' is clip mem
        cases is
        exact (List.mem_append.mp mem).imp id List.mem_singleton.mp
      · intro r _ _ msgFlags data _ mem
        left
        simp only [arriving, received, List.cons_append, List.mem_cons] at mem ⊢
        exact .inr mem

theorem kept_step (kept : Kept w es) (fresh : Fresh (Runs.run step w es) e) :
    Kept w (es ++ [e]) := by
  cases e with
  | call c =>
    by_cases busy : (Runs.run step w es).reading.isSome = true
    · exact kept_same kept (by simp [step, handle, busy])
    · have stepped : (Runs.run step w es).step (.call c) =
          { Runs.run step w es with server := (Runs.run step w es).server.step c } := by
        simp [step, handle, busy]
      apply kept_still kept <;> rw [stepped]
      · exact kept.inPlace
      · exact fun r waits => waits
      · exact fun clip mem => mem
      · exact fun clip mem => mem
  | read ino fh offset size streamId sent => exact kept_read kept fresh
  | serve fs => exact kept_serve kept fs
  | arrive => exact kept_arrive kept
  | foreign msgFlags streamId requestedData => exact kept_foreign kept fresh
  | receive sent => exact kept_receive kept sent
  | timeout =>
    cases waits : (Runs.run step w es).reading with
    | none => exact kept_same kept (by simp [step, handle, waits])
    | some r =>
      have stepped : (Runs.run step w es).step .timeout =
          { Runs.run step w es with reading := none } := by simp [step, handle, waits]
      apply kept_still kept <;> rw [stepped]
      · exact kept.inPlace
      · exact fun r waits => absurd waits (by simp)
      · exact fun clip mem => mem
      · exact fun clip mem => mem
  | peer e =>
    apply kept_still kept
    · exact inPlace_step kept.inPlace e
    · exact fun r waits => waits
    · exact fun clip mem => mem
    · exact fun clip mem => mem

theorem kept_run (idle : w.Idle) (fresh : Along step Fresh w es) : Kept w es := by
  induction es using List.reverseRecOn with
  | nil =>
    refine ⟨idle.inPlace, ?_, ?_⟩
    · intro r waits
      cases idle.reading.symm.trans waits
    · intro r waits
      cases idle.reading.symm.trans waits
  | append_singleton es e ih =>
    obtain ⟨before, now⟩ := along_snoc.mp fresh
    exact kept_step (ih before) now

/-- A read that comes to data was given it by the peer, for it and since it began. -/
theorem given_of_outcome (idle : w.Idle) (fresh : Along step Fresh w es) (survives : r.Survives)
    (read : (Runs.run step w es).outcome e = some (r, some data)) :
    Since step (Gives r data) Begins w es := by
  have kept := kept_run idle fresh
  cases e with
  | receive sent =>
    cases waits : (Runs.run step w es).reading with
    | none => simp [outcome, handle, waits] at read
    | some r' =>
      have ended : ((Runs.run step w es).receive r' sent).2 = some (r, some data) := by
        simpa [outcome, handle, waits] using read
      rcases receive_cases (Runs.run step w es) r' sent with
        same | ⟨reply, rx, received, taken | ⟨answer, finished, answers⟩ | ⟨retryTimes, again⟩⟩
      · simp [same] at ended
      · simp [taken] at ended
      · rw [finished] at ended
        cases ended
        obtain ⟨msgFlags, odd, rfl⟩ := answers data rfl
        refine kept.given r waits survives msgFlags data odd ?_
        simp [arriving, received]
      · simp [again] at ended
  | read ino fh offset size streamId sent =>
    simp only [outcome, handle, start] at read
    split_ifs at read <;> split at read <;> cases read
  | timeout =>
    simp only [outcome, handle] at read
    split at read <;> cases read
  | arrive =>
    simp only [outcome, handle] at read
    split at read <;> cases read
  | call | serve | foreign | peer => cases read

/-- **A remote read gives the peer's bytes.** In every run whose stream ids are fresh, data
that a read comes to is the range it is for, cut from a file that the peer served for this
very read. No response of another read, connection or list is taken for it. -/
theorem remote_read_exact (es : List RemoteEvent) (e : RemoteEvent) (r : Reading) (data : Bytes)
    (fresh : Along step Fresh { server := .new } es) (survives : r.Survives)
    (read : (Runs.run step { server := .new } es).outcome e = some (r, some data)) :
    Since step (Gives r data) Begins { server := .new } es :=
  given_of_outcome ⟨rfl, rfl, rfl, rfl, fun _ mem => absurd mem List.not_mem_nil⟩ fresh survives
    read

/-- A read times out; its response comes while the next read waits for another one. -/
def lateResponse : List RemoteEvent :=
  [.peer (.sync twoFilesFs 3 ["/home/a", "/home/b"]),
    .call (.loadFileList 0 [⟨7, "a".toList, .file, 0, 0, 0, 0, 3, permRw⟩]),
    .call (.openFile 2), .read 2 0 0 3 5 true, .serve twoFilesFs, .timeout,
    .read 2 0 1 2 6 true, .arrive, .receive true, .serve twoFilesFs, .arrive]

def lateReading : Reading where
  node := ⟨7, 0, some 1, "a".toList, .fromDescription 0 2 ⟨7, "a".toList, .file, 0, 0, 0, 0, 3,
    permRw⟩, []⟩
  offset := 1
  size := 2
  streamId := 6

theorem remote_read_lateResponse :
    (Runs.run step { server := .new } lateResponse).outcome (.receive true) =
        some (lateReading, some [2, 3]) ∧
      Since step (Gives lateReading [2, 3]) Begins { server := .new } lateResponse := by
  have fresh : Along step Fresh { server := .new } lateResponse := by decide +kernel
  have read : (Runs.run step { server := .new } lateResponse).outcome (.receive true) =
      some (lateReading, some [2, 3]) := by decide +kernel
  exact ⟨read, remote_read_exact lateResponse (.receive true) lateReading [2, 3] fresh
    ⟨by decide, by decide, by decide, by decide, by decide⟩ read⟩

end RemoteMount

end CamelliaRemote.Clipboard.Mount
