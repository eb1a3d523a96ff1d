import CamelliaRemote.Clipboard.FuseServer
import CamelliaRemote.Clipboard.Messages
import CamelliaRemote.Clipboard.ServedRange

/-!
Reading a file of the peer, `read_node` of `libs/clipboard/src/platform/unix/fuse/cs.rs`. A read
of the mounted file system becomes a request to the peer and waits on the one channel through
which all responses reach the mount. The server is locked meanwhile, so every other call of the
kernel and every new list of files waits. The peer serves the requests in their order from the
files it has copied by then. Stream ids are random numbers and part of the event; so is whether
`send_data` finds its connection, and whether the channel stays silent until the timeout.
-/

namespace CamelliaRemote.Clipboard.Mount
open Codec MachineInt FuseServer

def readRetry : Nat := 3

def FuseServer.readable (s : FuseServer) (ino fh : Nat) : Option FuseNode :=
  match s.entry ino with
  | none => none
  | some entry =>
    if entry.haveHandler fh && entry.node.attributes.kind = .file && !entry.marked then
      some entry.node
    else none

/-- A `read_node` that waits for its response. -/
structure Reading where
  node : FuseNode
  offset : Int
  size : Nat
  streamId : Int
  retryTimes : Nat := 0
  deriving DecidableEq, Repr

def Reading.request (r : Reading) : ClipboardFile :=
  readNodeRequest r.streamId r.node.index r.offset r.size

structure RemoteMount where
  server : FuseServer
  /-- The read that has the server locked. -/
  reading : Option Reading := none
  rx : List ClipboardFile := []
  /-- Requests on their way to the peer, and what it has sent on its way back. -/
  toPeer : List ClipboardFile := []
  fromPeer : List ClipOut := []
  peerFiles : ClipFiles := {}

inductive RemoteEvent where
  /-- Another call of the kernel, or a new list of files. -/
  | call (c : Call)
  | read (ino fh : Nat) (offset : Int) (size : Nat) (streamId : Int) (sent : Bool)
  | serve (fs : Fs)
  | arrive
  /-- Another connection has a response for the channel. -/
  | foreign (msgFlags streamId : Int) (requestedData : Bytes)
  | receive (sent : Bool)
  | timeout
  | peer (e : FilesEvent)

namespace RemoteMount

/-- What `read_node` has come to: `some none` is an error. -/
abbrev Outcome := Option (Reading × Option Bytes)

def start (s : RemoteMount) (ino fh : Nat) (offset : Int) (size : Nat) (streamId : Int)
    (sent : Bool) : RemoteMount × Outcome :=
  match s.server.readable ino fh with
  | none => (s, none)
  | some node =>
    let r : Reading := { node, offset, size, streamId }
    if sent then ({ s with reading := some r, toPeer := s.toPeer ++ [r.request] }, none)
    else (s, some (r, none))

/-- One turn of the loop of `read_node`. -/
def receive (s : RemoteMount) (r : Reading) (sent : Bool) : RemoteMount × Outcome :=
  match s.rx with
  | [] => (s, none)
  | reply :: rx =>
    let s := { s with rx }
    let finish (answer : Option Bytes) : RemoteMount × Outcome :=
      ({ s with reading := none }, some (r, answer))
    match reply with
    | .fileContentsResponse msgFlags streamId requestedData =>
      if streamId ≠ r.streamId then (s, none)
      else if msgFlags % 2 = 0 then
        if readRetry < r.retryTimes + 1 || !sent then finish none
        else
          let r := { r with retryTimes := r.retryTimes + 1 }
          ({ s with reading := some r, toPeer := s.toPeer ++ [r.request] }, none)
      else finish (some requestedData)
    | _ => finish none

/-- `serve_clip_messages` on the side of the mount: a response is for the channel. -/
def channelled (msg : ClipOut) : List ClipboardFile :=
  match msg with
  | .cliprdr union =>
    match msg2Clip (some union) with
    | some (.fileContentsResponse msgFlags streamId requestedData) =>
      [.fileContentsResponse msgFlags streamId requestedData]
    | _ => []
  | .messageBox _ _ _ => []

def serve (s : RemoteMount) (fs : Fs) : RemoteMount :=
  match s.toPeer with
  | [] => s
  | request :: toPeer =>
    match serveClipMessages .linux fs 0 s.peerFiles request with
    | none => { s with toPeer }
    | some served =>
      { s with
        toPeer
        peerFiles := served.files
        fromPeer := s.fromPeer ++ served.messages.filter isSent }

def handle (s : RemoteMount) : RemoteEvent → RemoteMount × Outcome
  | .call c => (if s.reading.isSome then s else { s with server := s.server.step c }, none)
  | .read ino fh offset size streamId sent =>
    if s.reading.isSome then (s, none) else s.start ino fh offset size streamId sent
  | .serve fs => (s.serve fs, none)
  | .arrive =>
    match s.fromPeer with
    | [] => (s, none)
    | msg :: fromPeer => ({ s with fromPeer, rx := s.rx ++ channelled msg }, none)
  | .foreign msgFlags streamId requestedData =>
    ({ s with
        rx := s.rx ++ [ClipboardFile.fileContentsResponse msgFlags streamId requestedData] }, none)
  | .receive sent =>
    match s.reading with
    | none => (s, none)
    | some r => s.receive r sent
  | .timeout =>
    match s.reading with
    | none => (s, none)
    | some r => ({ s with reading := none }, some (r, none))
  | .peer e => ({ s with peerFiles := s.peerFiles.step e }, none)

def step (s : RemoteMount) (e : RemoteEvent) : RemoteMount := (s.handle e).1

def outcome (s : RemoteMount) (e : RemoteEvent) : Outcome := (s.handle e).2

end RemoteMount

end CamelliaRemote.Clipboard.Mount
