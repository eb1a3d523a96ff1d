import CamelliaRemote.Clipboard.Messages
import CamelliaRemote.Server.Steps

namespace CamelliaRemote.Clipboard
open Codec Server Runs

/-- A connection of a Unix host, and the copied files of the process. -/
structure ClipHost where
  handling : Handling
  files : ClipFiles

namespace ClipHost

def conn (s : ClipHost) : Connection := s.handling.conn

/-- `file_transfer_enabled` and `clipboard_enabled`. -/
def Permitted (s : ClipHost) : Prop := s.conn.fileTransferEnabled ∧ s.conn.clipboardEnabled

instance (s : ClipHost) : Decidable s.Permitted := inferInstanceAs (Decidable (_ ∧ _))

end ClipHost

inductive ClipEvent where
  | switchPermission (env : Env) (name : PermissionName) (enabled : Bool)
  | option (env : Env) (o : OptionMessage)
  | cliprdr (fs : Fs) (msg : Option CliprdrMessage)
  /-- The user copies files, or another connection reads them. -/
  | elsewhere (files : ClipFiles)

variable (p : Host)

/-- What a `Cliprdr` message makes; a panic makes nothing. -/
def ClipHost.serve (s : ClipHost) (fs : Fs) (msg : Option CliprdrMessage) : Served :=
  (onCliprdrMessage p fs s.conn s.files msg).getD { files := s.files }

def ClipHost.step (s : ClipHost) : ClipEvent → ClipHost
  | .switchPermission env name enabled =>
    { s with handling := onSwitchPermission p env s.handling name enabled }
  | .option env o => { s with handling := onOption p env s.handling o }
  | .cliprdr fs msg => { s with files := (s.serve p fs msg).files }
  | .elsewhere files => { s with files }

/-- What is sent to the peer for a `Cliprdr` message. -/
def ClipHost.sent (s : ClipHost) : ClipEvent → List ClipOut
  | .cliprdr fs msg => (s.serve p fs msg).messages.filter isSent
  | _ => []

/-- The event is answered with the names of files or with bytes of one. -/
def Discloses (s : ClipHost) (e : ClipEvent) : Prop :=
  (∃ msgFlags data, .cliprdr (.formatDataResponse msgFlags data) ∈ s.sent p e ∧ data ≠ []) ∨
    ∃ fs streamId listIndex low high cb haveId clipId msgFlags data,
      e = .cliprdr fs (some (.fileContentsRequest streamId listIndex 2 low high cb haveId clipId)) ∧
      .cliprdr (.fileContentsResponse msgFlags streamId data) ∈ s.sent p e ∧ data ≠ []

/-- The request is for a byte of a listed file. -/
def AsksByte (files : ClipFiles) : FileContentsRequest → Prop
  | .size _ _ => False
  | .range _ fileIdx offset length => ∃ file, files.fileList[fileIdx]? = some file ∧
    offset ≤ file.size.toNat ∧
    0 < if file.size.toNat < (offset + length) % 2 ^ 64 then file.size.toNat - offset else length

/-- The peer asks for the names of copied files, or for a byte of one. -/
def Asks (s : ClipHost) : ClipEvent → Prop
  | .cliprdr _ (some (.formatDataRequest _)) =>
    isSupportFileCopyPaste p s.conn.lr.version ∧ s.files.filesPdu ≠ []
  | .cliprdr _ (some (.fileContentsRequest streamId listIndex dwFlags low high cb _ _)) =>
    isSupportFileCopyPaste p s.conn.lr.version ∧
      ∃ request, FileContentsRequest.decode streamId listIndex dwFlags low high cb = .ok request ∧
        AsksByte s.files request
  | _ => False

variable {p} {fs : Fs} {s : ClipHost} {files : ClipFiles}

theorem length_readExact {f : LocalFile} {position len : Nat} {bytes : Bytes}
    (h : f.readExact fs position len = .ok bytes) : bytes.length = len := by
  unfold LocalFile.readExact at h
  split at h
  · cases h
  · split at h
    · cases h
    · rename_i enough
      cases h
      rw [List.length_take]
      omega

theorem length_readExactAt {f : LocalFile} {len offset : Nat} {bytes : Bytes}
    (h : (f.readExactAt fs len offset).2 = .ok bytes) : bytes.length = len := by
  unfold LocalFile.readExactAt at h
  split at h
  · cases h
  split at h
  · cases h
  split at h
  · cases h
  · rename_i bytes' read
    have same : bytes' = bytes := by
      dsimp only at h
      split at h
      · exact Except.ok.inj h
      · exact Except.ok.inj h
    exact same ▸ length_readExact read

theorem respond_eq_ok {fileIdx : Nat} {response response' : ClipboardFile}
    (h : (files.respond fs fileIdx response).2 = .ok response') : response' = response := by
  unfold ClipFiles.respond at h
  split at h
  · cases h
  · exact (Except.ok.inj h).symm

/-- Contents are served only if they were asked for. -/
theorem asksByte_of_served {connId streamId streamId' msgFlags : Int} {data : Bytes}
    {fileIdx offset length : Nat} {files' : ClipFiles}
    (served : files.serveFileContents fs connId (.range streamId fileIdx offset length) =
      some (files', .ok (.fileContentsResponse msgFlags streamId' data))) (nonempty : data ≠ []) :
    AsksByte files (.range streamId fileIdx offset length) := by
  rw [ClipFiles.serveFileContents] at served
  split at served
  · cases served
  rename_i file listed
  split at served
  · cases served
  rename_i inside
  refine ⟨file, listed, Nat.not_lt.mp inside, ?_⟩
  dsimp only at served
  generalize (if file.size.toNat < (offset + length) % 2 ^ 64 then
      file.size.toNat - offset else length) = readSize at served
  split at served
  · cases served
  split at served
  · cases served
  · rename_i buf read
    have response := respond_eq_ok (congrArg Prod.snd (Option.some.inj served))
    have whole : data = buf := by
      injection response
    have size := length_readExactAt read
    rw [← size, ← whole]
    exact List.length_pos_iff.mpr nonempty

theorem serve_eq_ok {connId : Int} {request : FileContentsRequest} {files' : ClipFiles}
    {c : ClipboardFile}
    (served : files.serveFileContents fs connId request = some (files', .ok c)) :
    ∃ msgFlags streamId data, c = .fileContentsResponse msgFlags streamId data := by
  cases request with
  | size streamId fileIdx =>
    rw [ClipFiles.serveFileContents] at served
    split at served
    · cases served
    · exact ⟨_, _, _, respond_eq_ok (congrArg Prod.snd (Option.some.inj served))⟩
  | range streamId fileIdx offset length =>
    rw [ClipFiles.serveFileContents] at served
    split at served
    · cases served
    split at served
    · cases served
    dsimp only at served
    generalize (if _ < (offset + length) % 2 ^ 64 then _ else length) = readSize at served
    split at served
    · cases served
    split at served
    · cases served
    · exact ⟨_, _, _, respond_eq_ok (congrArg Prod.snd (Option.some.inj served))⟩

theorem getFilesForAudit_eq_some {request : FileContentsRequest} {c : ClipboardFile}
    (h : files.getFilesForAudit fs request = some c) : ∃ l, c = .files l := by
  unfold ClipFiles.getFilesForAudit at h
  split at h
  · cases h
  · split at h
    · split at h
      · cases h
      · exact ⟨_, (Option.some.inj h).symm⟩
    · cases h

/-- What `read_file_contents` gives: a record of files, or what is served. -/
theorem ok_mem_results {connId streamId listIndex dwFlags low high cb : Int} {files' : ClipFiles}
    {results : List (Except CliprdrError ClipboardFile)} {c : ClipboardFile}
    (h : files.readFileContents fs connId streamId listIndex dwFlags low high cb =
      some (files', results)) (mem : .ok c ∈ results) :
    (∃ l, c = .files l) ∨
      ∃ request, FileContentsRequest.decode streamId listIndex dwFlags low high cb = .ok request ∧
        files.serveFileContents fs connId request = some (files', .ok c) := by
  unfold ClipFiles.readFileContents at h
  split at h
  · cases h
    simp at mem
  · rename_i request decoded
    dsimp only at h
    split at h
    · cases h
    · rename_i files'' result served
      cases h
      rcases List.mem_append.mp mem with mem | mem
      · obtain ⟨record, isRecord, same⟩ := Option.map_eq_some_iff.mp (Option.mem_toList.mp mem)
        obtain rfl : record = c := Except.ok.inj same
        exact .inl (getFilesForAudit_eq_some isRecord)
      · rw [List.mem_singleton] at mem
        exact .inr ⟨request, decoded, mem ▸ served⟩

/-- A message to the peer comes from a served one. -/
theorem mem_sent {e : ClipEvent} {m : ClipOut} (h : m ∈ s.sent p e) :
    ∃ fs msg clip served, e = .cliprdr fs msg ∧ msg2Clip msg = some clip ∧
      isSupportFileCopyPaste p s.conn.lr.version ∧
      serveClipMessages p.os fs s.conn.id s.files clip = some served ∧ m ∈ served.messages := by
  cases e with
  | cliprdr fs msg =>
    have mem := (List.mem_filter.mp h).1
    unfold ClipHost.serve onCliprdrMessage at mem
    split at mem
    · cases mem
    rename_i clip isClip
    split at mem
    · rename_i supported
      split at mem
      · cases mem
      · cases served : serveClipMessages p.os fs s.conn.id s.files clip with
        | none =>
          rw [served] at mem
          cases mem
        | some result =>
          rw [served] at mem
          exact ⟨fs, msg, clip, result, rfl, isClip, supported, served, mem⟩
    · cases mem
  | switchPermission env name enabled => cases h
  | option env o => cases h
  | elsewhere files => cases h

/-- The names of files answer only the request for them. -/
theorem names_requested {os : Os} {connId msgFlags : Int} {clip : ClipboardFile} {served : Served}
    {data : Bytes} (h : serveClipMessages os fs connId files clip = some served)
    (mem : .cliprdr (.formatDataResponse msgFlags data) ∈ served.messages) (nonempty : data ≠ []) :
    (∃ id, clip = .formatDataRequest id) ∧ files.filesPdu ≠ [] := by
  cases clip with
  | formatDataRequest id =>
    rw [serveClipMessages] at h
    split at h
    · rename_i listed
      exact ⟨⟨id, rfl⟩, listed⟩
    · cases h
      obtain ⟨-, rfl⟩ : msgFlags = 2 ∧ data = [] := by
        simpa [clip2Msg, respFormatDataFailure] using mem
      exact absurd rfl nonempty
  | formatList formats =>
    rw [serveClipMessages] at h
    split at h <;> cases h <;> simp [clip2Msg] at mem
  | formatDataResponse flags bytes =>
    rw [serveClipMessages] at h
    split at h <;> cases h <;> cases mem
  | fileContentsResponse flags streamId bytes =>
    rw [serveClipMessages] at h
    split at h <;> cases h <;> cases mem
  | fileContentsRequest streamId listIndex dwFlags low high cb haveId clipId =>
    rw [serveClipMessages] at h
    split at h
    · cases h
    rename_i files' results read
    cases h
    obtain ⟨result, isResult, same⟩ := List.mem_map.mp mem
    cases result with
    | error e => cases same
    | ok c =>
      rcases ok_mem_results read isResult with ⟨l, rfl⟩ | ⟨request, -, served⟩
      · cases same
      · obtain ⟨_, _, _, rfl⟩ := serve_eq_ok served
        cases same
  | monitorReady | formatListResponse _ | notifyCallback _ _ _ | files _ | tryEmpty =>
    cases h
    cases mem

theorem asks_of_discloses {e : ClipEvent} (h : Discloses p s e) : Asks p s e := by
  rcases h with ⟨msgFlags, data, sent, nonempty⟩ |
    ⟨fs, streamId, listIndex, low, high, cb, haveId, clipId, msgFlags, data, rfl, sent, nonempty⟩
  · obtain ⟨fs, msg, clip, served, rfl, isClip, supported, serves, mem⟩ := mem_sent sent
    obtain ⟨⟨id, rfl⟩, listed⟩ := names_requested serves mem nonempty
    obtain rfl : msg = some (.formatDataRequest id) := by
      unfold msg2Clip at isClip
      split at isClip <;> cases isClip
      rfl
    exact ⟨supported, listed⟩
  · obtain ⟨fs', msg, clip, served, same, isClip, supported, serves, mem⟩ := mem_sent sent
    cases same
    cases isClip
    rw [serveClipMessages] at serves
    split at serves
    · cases serves
    rename_i files' results read
    cases serves
    obtain ⟨result, isResult, same⟩ := List.mem_map.mp mem
    cases result with
    | error e =>
      cases same
      exact absurd rfl nonempty
    | ok c =>
      rcases ok_mem_results read isResult with ⟨l, rfl⟩ | ⟨request, decoded, served⟩
      · cases same
      · obtain ⟨_, _, _, rfl⟩ := serve_eq_ok served
        cases same
        have isRange : ∃ sid idx offset length, request = .range sid idx offset length := by
          cases decoded
          exact ⟨_, _, _, _, rfl⟩
        obtain ⟨sid, idx, offset, length, rfl⟩ := isRange
        exact ⟨supported, _, decoded, asksByte_of_served served nonempty⟩

/-- **Served files stay within the permissions** in every run in which the peer asks
only while it has them. -/
theorem served_with_permission (p : Host) (s : ClipHost) (events : List ClipEvent)
    (polite : Along (ClipHost.step p) (fun s e => Asks p s e → s.Permitted) s events) :
    Along (ClipHost.step p) (fun s e => Discloses p s e → s.Permitted) s events :=
  along_mono (fun _ _ asked disclosed => asked (asks_of_discloses disclosed)) polite

def clipboardHost : Host := { sampleHost with unixFileCopyPaste := true }

def copiedFs : Fs where
  metadata _ := .ok { len := 3, isDir := false }
  readDir _ := .ok []
  openFile _ := .ok ()
  content _ := .ok [1, 2, 3]

/-- A remote session with both permissions, and one copied file. -/
def copiedHost : ClipHost where
  handling.globals := {}
  handling.conn :=
    { (sampleOpening none).start 1 with
      authorized := true
      authedConnId := some .remote
      options := { enableFileTransfer := true } }
  files := ((ClipFiles.sync copiedFs 2 ["/home/a"] {}).map Prod.fst).getD {}

theorem served_with_permission_granted :
    copiedHost.Permitted ∧
      Along (ClipHost.step clipboardHost) (fun s e => Discloses clipboardHost s e → s.Permitted)
        copiedHost [.cliprdr copiedFs (some (.formatDataRequest 1))] :=
  ⟨by decide, served_with_permission clipboardHost copiedHost _ ⟨fun _ => by decide, trivial⟩⟩

/-- After the file permission is switched off, the list of files is still sent, and
so are the bytes of the file. -/
theorem revoked_peer_served :
    ¬ Along (ClipHost.step clipboardHost) (fun s e => Discloses clipboardHost s e → s.Permitted)
        copiedHost [.switchPermission {} .file false,
          .cliprdr copiedFs (some (.formatDataRequest 1))] ∧
      ¬ Along (ClipHost.step clipboardHost) (fun s e => Discloses clipboardHost s e → s.Permitted)
        copiedHost [.switchPermission {} .file false,
          .cliprdr copiedFs (some (.fileContentsRequest 1 0 2 0 0 3 false 0))] := by
  have off : ¬ (copiedHost.step clipboardHost (.switchPermission {} .file false)).Permitted := by
    decide
  constructor
  · rintro ⟨-, served, -⟩
    refine off (served (.inl ⟨1, copiedHost.files.filesPdu, ?_, ?_⟩))
    · decide +kernel
    · decide +kernel
  · rintro ⟨-, served, -⟩
    refine off (served (.inr ⟨copiedFs, 1, 0, 0, 0, 3, false, 0, 1, [1, 2, 3], rfl, ?_, ?_⟩))
    · decide +kernel
    · decide

/-- A message to the peer among the effects of a connection. -/
def sentClip : Effect → Option Bytes
  | .send (.clip msg) => some msg
  | _ => none

theorem sentClip_replies (wire : ClipOut → Bytes) (messages : List ClipOut) (h : Handling) :
    let replies := messages.map fun m => if isSent m then some (wire m) else none
    (replies.foldl sendClipReply h).effects.filterMap sentClip =
      h.effects.filterMap sentClip ++ (messages.filter isSent).map wire := by
  induction messages generalizing h with
  | nil => simp
  | cons m messages ih =>
    simp only [List.map_cons, List.foldl_cons, List.filter_cons] at ih ⊢
    rw [ih]
    cases isSent m with
    | false => simp [sendClipReply, sentClip]
    | true => simp [sendClipReply, Handling.send, sentClip]

/-- The handler of the connection sends what is answered here, whatever the
permissions. -/
theorem onCliprdr_sends {env : Env} {h : Handling} {bytes clip : Bytes} (wire : ClipOut → Bytes)
    (messages : List ClipOut) (unix : p.os ≠ .windows) (feature : p.unixFileCopyPaste)
    (isClip : p.msg2clip bytes = some clip)
    (supported : isSupportFileCopyPaste p h.conn.lr.version)
    (served : (p.os = .macos && env.macosHandlesClip) = false)
    (replies : env.clipReplies = messages.map fun m => if isSent m then some (wire m) else none) :
    (onCliprdr p env h (some (.other bytes))).effects.filterMap sentClip =
      h.effects.filterMap sentClip ++ (messages.filter isSent).map wire := by
  have version := of_decide_eq_true supported
  have handled : onCliprdr p env h (some (.other bytes)) =
      env.clipReplies.foldl sendClipReply (h.emit (.serveFileClipboard clip)) := by
    simp [onCliprdr, feature, isClip, unix, version, served]
  have all := sentClip_replies wire messages (h.emit (.serveFileClipboard clip))
  dsimp only at all
  rw [handled, replies, all]
  simp [sentClip]

end CamelliaRemote.Clipboard
