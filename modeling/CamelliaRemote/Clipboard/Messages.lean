import CamelliaRemote.Clipboard.ServFiles
import CamelliaRemote.Server.Loop

/-!
File clipboard messages, `src/clipboard_file.rs`. `serve_clip_messages` answers the messages of a
peer from the copied files of the process, and the `Cliprdr` branch of `on_message` sends what it
answers.
-/

namespace CamelliaRemote.Clipboard
open Codec Server

/-- `cliprdr::Union`. -/
inductive CliprdrMessage where
  | ready
  | formatList (formats : List (Int × String))
  | formatListResponse (msgFlags : Int)
  | formatDataRequest (requestedFormatId : Int)
  | formatDataResponse (msgFlags : Int) (formatData : Bytes)
  | fileContentsRequest (streamId listIndex dwFlags nPositionLow nPositionHigh cbRequested : Int)
      (haveClipDataId : Bool) (clipDataId : Int)
  | fileContentsResponse (msgFlags streamId : Int) (requestedData : Bytes)
  | tryEmpty
  | files (files : List (String × UInt64))
  deriving DecidableEq, Repr

/-- The messages that `clip_2_msg` makes. -/
inductive ClipOut where
  | messageBox (msgtype title text : String)
  | cliprdr (union : CliprdrMessage)
  deriving DecidableEq, Repr

/-- A file of size 0 is sent with its size now. -/
def auditedFile (fs : Fs) : String × UInt64 → Option (String × UInt64)
  | (name, size) =>
    if size = 0 then
      match fs.metadata (Codec.utf8 name) with
      | .ok mt => some (name, mt.len)
      | .error _ => none
    else some (name, size)

def clip2Msg (fs : Fs) : ClipboardFile → ClipOut
  | .notifyCallback type title text => .messageBox type title text
  | .monitorReady => .cliprdr .ready
  | .formatList formats => .cliprdr (.formatList formats)
  | .formatListResponse msgFlags => .cliprdr (.formatListResponse msgFlags)
  | .formatDataRequest id => .cliprdr (.formatDataRequest id)
  | .formatDataResponse msgFlags data => .cliprdr (.formatDataResponse msgFlags data)
  | .fileContentsRequest streamId listIndex dwFlags low high cb haveId clipId =>
    .cliprdr (.fileContentsRequest streamId listIndex dwFlags low high cb haveId clipId)
  | .fileContentsResponse msgFlags streamId data =>
    .cliprdr (.fileContentsResponse msgFlags streamId data)
  | .tryEmpty => .cliprdr .tryEmpty
  | .files files => .cliprdr (.files (files.filterMap (auditedFile fs)))

def msg2Clip : Option CliprdrMessage → Option ClipboardFile
  | some .ready => some .monitorReady
  | some (.formatList formats) => some (.formatList formats)
  | some (.formatListResponse msgFlags) => some (.formatListResponse msgFlags)
  | some (.formatDataRequest id) => some (.formatDataRequest id)
  | some (.formatDataResponse msgFlags data) => some (.formatDataResponse msgFlags data)
  | some (.fileContentsRequest streamId listIndex dwFlags low high cb haveId clipId) =>
    some (.fileContentsRequest streamId listIndex dwFlags low high cb haveId clipId)
  | some (.fileContentsResponse msgFlags streamId data) =>
    some (.fileContentsResponse msgFlags streamId data)
  | some .tryEmpty => some .tryEmpty
  | some (.files _) | none => none

def filecontentsFormatName : String := "FileContents"

def filedescriptorwFormatName : String := "FileGroupDescriptorW"

/-- What serving a message does beside answering it. -/
inductive ServeEffect where
  /-- The peer's files are put on the clipboard. -/
  | pasteFiles (formatData : Bytes)
  /-- The contents of a peer's file for the FUSE file system. -/
  | contents (msgFlags streamId : Int) (requestedData : Bytes)
  | tryEmptyClipboardFiles
  deriving DecidableEq, Repr

structure Served where
  files : ClipFiles
  messages : List ClipOut := []
  effects : List ServeEffect := []

def respFormatDataFailure : ClipboardFile := .formatDataResponse 0x2 []

def respFileContentsFail (streamId : Int) : ClipboardFile := .fileContentsResponse 0x2 streamId []

/-- The format of the file descriptors, if there is one for the contents too. -/
def fileDescriptorId (formats : List (Int × String)) : Option Int :=
  match formats.find? (·.2 = filecontentsFormatName) with
  | none => none
  | some _ => (formats.find? (·.2 = filedescriptorwFormatName)).map Prod.fst

/-- `serve_clip_messages`; a panic in `read_file_contents` is `none`. -/
def serveClipMessages (os : Os) (fs : Fs) (connId : Int) (files : ClipFiles) :
    ClipboardFile → Option Served
  | .formatList formats =>
    match fileDescriptorId formats with
    | none => some { files }
    | some id => some { files, messages := [clip2Msg fs (.formatDataRequest id)] }
  | .formatDataRequest _ =>
    if files.filesPdu ≠ [] then
      some { files, messages := [clip2Msg fs (.formatDataResponse 1 files.filesPdu)] }
    else some { files, messages := [clip2Msg fs respFormatDataFailure] }
  | .formatDataResponse msgFlags formatData =>
    if os = .linux ∧ msgFlags = 0x1 then some { files, effects := [.pasteFiles formatData] }
    else some { files }
  | .fileContentsRequest streamId listIndex dwFlags low high cb _ _ =>
    match files.readFileContents fs connId streamId listIndex dwFlags low high cb with
    | none => none
    | some (files, results) =>
      some { files, messages := results.map fun
        | .ok data => clip2Msg fs data
        | .error _ => clip2Msg fs (respFileContentsFail streamId) }
  | .fileContentsResponse msgFlags streamId requestedData =>
    if os = .linux then some { files, effects := [.contents msgFlags streamId requestedData] }
    else some { files }
  | .tryEmpty => some { files, effects := [.tryEmptyClipboardFiles] }
  | .monitorReady | .formatListResponse _ | .notifyCallback _ _ _ | .files _ => some { files }

/-- `should_handle_msg` of macOS. -/
def shouldHandleMsg : ClipboardFile → Bool
  | .formatList _ | .formatDataResponse _ _ | .fileContentsResponse _ _ _ | .tryEmpty => true
  | _ => false

/-- `is_support_file_copy_paste`. -/
def isSupportFileCopyPaste (p : Host) (version : String) : Bool :=
  p.getVersionNumber "1.3.8" ≤ p.getVersionNumber version

/-- The `Cliprdr` branch on a Unix host: what serving the message does. -/
def onCliprdrMessage (p : Host) (fs : Fs) (c : Connection) (files : ClipFiles)
    (msg : Option CliprdrMessage) : Option Served :=
  match msg2Clip msg with
  | none => some { files }
  | some clip =>
    if isSupportFileCopyPaste p c.lr.version then
      if p.os = .macos ∧ shouldHandleMsg clip then some { files }
      else serveClipMessages p.os fs c.id files clip
    else some { files }

/-- A list of files is for the audit and is not sent. -/
def isSent : ClipOut → Bool
  | .cliprdr (.files _) => false
  | _ => true

end CamelliaRemote.Clipboard
