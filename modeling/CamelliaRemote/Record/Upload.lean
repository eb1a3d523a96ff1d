import CamelliaRemote.Lib.GrowingFile
import CamelliaRemote.Lib.LexicalPath
import CamelliaRemote.Lib.Runs

/-!
Upload of a recording, `hbbs_http/record_upload.rs`. A thread handles what the recorder tells it:
a new file, a new frame, the tail. While it works the recorder writes on. An event carries what
the file holds each time the thread looks at it, the clock in nanoseconds, and how the server
answers. A read of a regular file gives as much as there is.
-/

namespace CamelliaRemote.Record
open Codec UnixPath GrowingFile

def maxHeaderLen : Nat := 1024

def shouldSendTime : Nat := 10 ^ 9

def shouldSendSize : Nat := 1024 * 1024

def maxUploadChunkSize : Nat := 4 * 1024 * 1024

inductive Request where
  | new (file : String)
  | part (file : String) (offset length : Nat) (body : Codec.Bytes)
  | tail (file : String) (offset length : Nat) (body : Codec.Bytes)
  | remove (file : String)
  deriving DecidableEq

def Request.file : Request → String
  | .new file | .part file _ _ _ | .tail file _ _ _ | .remove file => file

/-- How `send` ends for each request. -/
abbrev Net := Request → Except String Unit

structure RecordUploader where
  filepath : String := ""
  filename : String := ""
  uploadSize : Nat := 0
  running : Bool := false
  lastSend : Nat := 0
  deriving DecidableEq

/-- What a call of `handle_frame` meets: the file when its length is asked for and when it
is read, and the clock before and after. -/
structure Turn where
  now : Nat
  opened : Except String Codec.Bytes
  read : Except String Codec.Bytes
  sentAt : Nat

/-- The uploader, the requests that went through, and how the call ended. -/
abbrev Handled := RecordUploader × List Request × Except String Unit

def handleNewFile (u : RecordUploader) (filepath : String) (now : Nat) (net : Net) : Handled :=
  match fileName filepath.toList with
  | none => (u, [], .error s!"can't parse filepath:{filepath}")
  | some name =>
    let filename := String.ofList name
    let u := { u with filename, filepath, uploadSize := 0, running := true, lastSend := now }
    match net (.new filename) with
    | .error e => (u, [], .error e)
    | .ok () => (u, [.new filename], .ok ())

def handleFrame (u : RecordUploader) (flush : Bool) (turn : Turn) (net : Net) : Handled :=
  if !flush && turn.now - u.lastSend < shouldSendTime then (u, [], .ok ())
  else
    match turn.opened with
    | .error e => (u, [], .error e)
    | .ok file =>
      let len := file.length
      if len ≤ u.uploadSize then (u, [], .ok ())
      else if !flush && len - u.uploadSize < shouldSendSize then (u, [], .ok ())
      else
        match turn.read with
        | .error e => (u, [], .error e)
        | .ok file =>
          let buf := (file.drop u.uploadSize).take maxUploadChunkSize
          if buf.length = 0 then (u, [], .ok ())
          else
            let part := .part u.filename u.uploadSize buf.length buf
            match net part with
            | .error e => (u, [], .error e)
            | .ok () =>
              ({ u with uploadSize := u.uploadSize + buf.length, lastSend := turn.sentAt },
                [part], .ok ())

/-- The uploader, the requests that went through, and how the call ended if it did. -/
abbrev Going := RecordUploader × List Request × Option (Except String Unit)

/-- The loop of `handle_tail`, for as many turns as there have been. -/
def tailLoop (net : Net) : List Turn → RecordUploader → Going
  | [], u => (u, [], none)
  | turn :: turns, u =>
    let uploadedBefore := u.uploadSize
    match handleFrame u true turn net with
    | (u, sent, .error e) => (u, sent, some (.error e))
    | (u, sent, .ok ()) =>
      if u.uploadSize = uploadedBefore then (u, sent, some (.ok ()))
      else
        let (u, later, ended) := tailLoop net turns u
        (u, sent ++ later, ended)

/-- `header` is the file when its head is read. -/
def handleTail (u : RecordUploader) (turns : List Turn) (header : Except String Codec.Bytes)
    (net : Net) : Going :=
  match tailLoop net turns u with
  | (u, sent, some (.ok ())) =>
    match header with
    | .error e => (u, sent, some (.error e))
    | .ok file =>
      let buf := file.take maxHeaderLen
      let tail := .tail u.filename 0 buf.length buf
      match net tail with
      | .error e => (u, sent, some (.error e))
      | .ok () => (u, sent ++ [tail], some (.ok ()))
  | going => going

def handleRemove (u : RecordUploader) (net : Net) : Handled :=
  match net (.remove u.filename) with
  | .error e => (u, [], .error e)
  | .ok () => (u, [.remove u.filename], .ok ())

inductive Event where
  | newFile (filepath : String) (now : Nat) (net : Net)
  | newFrame (turn : Turn) (net : Net)
  | writeTail (turns : List Turn) (header : Except String Codec.Bytes) (net : Net)
  | removeFile (net : Net)

/-- The uploader, and whether it is still in the loop of `handle_tail`. -/
structure Thread where
  uploader : RecordUploader := {}
  busy : Bool := false

/-- After an error nothing runs until the next file. -/
def settle (u : RecordUploader) : Option (Except String Unit) → Thread
  | none => ⟨u, true⟩
  | some (.ok ()) => ⟨u, false⟩
  | some (.error _) => ⟨{ u with running := false }, false⟩

def finished (h : Handled) : Going := (h.1, h.2.1, some h.2.2)

def handle (u : RecordUploader) : Event → Going
  | .newFile filepath now net => finished (handleNewFile u filepath now net)
  | .newFrame turn net =>
    if u.running then finished (handleFrame u false turn net) else (u, [], some (.ok ()))
  | .writeTail turns header net =>
    if u.running then handleTail u turns header net else (u, [], some (.ok ()))
  | .removeFile net =>
    if u.running then finished (handleRemove u net) else (u, [], some (.ok ()))

def step (t : Thread) (e : Event) : Thread :=
  if t.busy then t
  else
    let (u, _, ended) := handle t.uploader e
    settle u ended

/-- The requests of an event that went through. -/
def posted (t : Thread) (e : Event) : List Request :=
  if t.busy then [] else (handle t.uploader e).2.1

def posts (t : Thread) (events : List Event) : List Request := Runs.collect step posted t events

def Request.apply (file : Codec.Bytes) : Request → Codec.Bytes
  | .new _ => []
  | .part _ offset _ body => writeAt file offset body
  | .tail _ offset _ body => writeAt file offset body
  | .remove _ => file

/-- The requests applied, one after another, to an empty file. -/
def assemble (log : List Request) : Codec.Bytes := log.foldl Request.apply []

def Request.partLength : Request → Nat
  | .part _ _ length _ => length
  | _ => 0

/-- How much the parts make together. -/
def uploaded (log : List Request) : Nat := (log.map Request.partLength).sum

/-- Each part begins where the one before it ends, and holds 1 byte to 4 MiB. -/
def Contiguous : Nat → List Request → Prop
  | _, [] => True
  | start, .part _ offset length body :: log =>
    offset = start ∧ length = body.length ∧ 0 < length ∧ length ≤ maxUploadChunkSize ∧
      Contiguous (start + length) log
  | start, _ :: log => Contiguous start log

def contents (look : Except String Codec.Bytes) : List Codec.Bytes := look.toOption.toList

/-- What the file held, look after look. -/
def Turn.looks (turn : Turn) : List Codec.Bytes := contents turn.opened ++ contents turn.read

def Event.looks : Event → List Codec.Bytes
  | .newFile _ _ _ | .removeFile _ => []
  | .newFrame turn _ => turn.looks
  | .writeTail turns header _ => turns.flatMap Turn.looks ++ contents header

def Event.net : Event → Net
  | .newFile _ _ net | .newFrame _ net | .writeTail _ _ net | .removeFile net => net

def Event.isFrameOrTail : Event → Bool
  | .newFrame _ _ | .writeTail _ _ _ => true
  | .newFile _ _ _ | .removeFile _ => false

end CamelliaRemote.Record
