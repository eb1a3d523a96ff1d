import Mathlib.Logic.Function.Basic
import CamelliaRemote.Web.Cipher

/-!
The transport of a web session, `flutter/web/js/src/runtime/transport.ts`. A transport has one
current socket; the sockets it gave up live on in the browser and still report. What is handed to
a socket is kept as a frame, with where it comes from and the cipher that sealed it.
-/

namespace CamelliaRemote.Web
open Codec

inductive ReadyState where
  | connecting
  | opened
  | closing
  | closed
  deriving DecidableEq, Repr

inductive TransportState where
  | idle
  | connecting
  | opened
  | closed
  | error
  deriving DecidableEq, Repr

/-- What a sent message is for. -/
inductive Origin where
  | relayJoin
  | publicKey
  | application
  deriving DecidableEq, Repr

/-- A cipher with its key, and the socket that was current when it was set. -/
structure Installed where
  box : SecretBox
  cipher : SecretBoxCipher
  socket : Option Nat

/-- The bytes handed to a socket, and what they were before they were sealed. -/
structure Frame where
  socket : Nat
  origin : Origin
  data : Bytes
  payload : Bytes
  sealedBy : Option Installed

structure WebSocketTransport where
  socket : Option Nat := none
  state : TransportState := .idle
  cipher : Option Installed := none
  /-- The sockets created so far are those below this number. -/
  created : Nat := 0
  readyState : Nat → ReadyState := fun _ => .connecting
  /-- How the promise of the `connect` that created a socket was settled. -/
  settled : Nat → Option Bool := fun _ => none
  frames : List Frame := []

/-- What `connect` returns: settled at once, or when its socket reports. -/
inductive Promise where
  | resolved
  | rejected
  | pending (socket : Nat)
  deriving DecidableEq, Repr

namespace WebSocketTransport

variable (t : WebSocketTransport)

def isOpen : Bool :=
  match t.socket with
  | some id => t.state = .opened && t.readyState id = .opened
  | none => false

def setReady (id : Nat) (ready : ReadyState) : WebSocketTransport :=
  { t with readyState := Function.update t.readyState id ready }

/-- `socket.close()`, which does nothing to a socket that is closing or closed. -/
def closeSocket (id : Nat) : WebSocketTransport :=
  if t.readyState id = .connecting ∨ t.readyState id = .opened then t.setReady id .closing else t

def closePrevious : WebSocketTransport :=
  match t.socket with
  | some id => t.closeSocket id
  | none => t

def setCipher (cipher : Option (SecretBox × SecretBoxCipher)) : WebSocketTransport :=
  { t with cipher := cipher.map fun c => ⟨c.1, c.2, t.socket⟩ }

/-- `constructed` tells whether `new WebSocket` returns. -/
def connect (constructed : Bool) : WebSocketTransport × Promise :=
  if t.isOpen then (t, .resolved)
  else
    let t := { t.closePrevious with cipher := none, socket := none, state := .connecting }
    if constructed then
      ({ t with
          socket := some t.created
          created := t.created + 1
          readyState := Function.update t.readyState t.created .connecting
          settled := Function.update t.settled t.created none },
        .pending t.created)
    else ({ t with state := .error }, .rejected)

def outcome : Promise → Option Bool
  | .resolved => some true
  | .rejected => some false
  | .pending id => t.settled id

/-- A promise is settled once. -/
def finish (id : Nat) (ok : Bool) : WebSocketTransport :=
  if (t.settled id).isSome then t
  else { t with settled := Function.update t.settled id (some ok) }

def onOpen (id : Nat) : WebSocketTransport :=
  let t := t.setReady id .opened
  if t.socket ≠ some id then (t.closeSocket id).finish id false
  else { t with state := .opened }.finish id true

def onError (id : Nat) : WebSocketTransport :=
  let t := if t.socket = some id then { t with state := .error } else t
  t.finish id false

/-- The second component tells whether the close handlers are called. -/
def onClose (id : Nat) : WebSocketTransport × Bool :=
  let t := t.setReady id .closed
  if t.socket ≠ some id then (t, false)
  else ({ t with state := .closed, socket := none }.finish id false, true)

def onTimeout (id : Nat) : WebSocketTransport :=
  if (t.settled id).isSome then t
  else
    let t := if t.socket = some id then { t with state := .error, socket := none } else t
    (t.closeSocket id).finish id false

/-- The payload for the message handlers; `opened` is the answer of
`secretbox.open`. -/
def onMessage (data : Bytes) (opened : Option Bytes) : WebSocketTransport × Option Bytes :=
  match t.cipher with
  | none => (t, some data)
  | some c =>
    let (cipher, payload) := c.cipher.decrypt (fun _ _ => opened) data
    ({ t with cipher := some { c with cipher := cipher } }, payload)

def send (origin : Origin) (data : Bytes) : WebSocketTransport :=
  match t.socket with
  | none => t
  | some id =>
    if t.isOpen then
      match t.cipher with
      | none => { t with frames := t.frames ++ [⟨id, origin, data, data, none⟩] }
      | some c =>
        let (cipher, payload) := c.cipher.encrypt c.box data
        { t with
          cipher := some { c with cipher := cipher }
          frames := t.frames ++ [⟨id, origin, data, payload, some c⟩] }
    else t

def close : WebSocketTransport :=
  { t.closePrevious with socket := none, cipher := none, state := .closed }

end WebSocketTransport

end CamelliaRemote.Web
