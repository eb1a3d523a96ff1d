import CamelliaRemote.Web.Transport

/-!
A web session, `flutter/web/js/src/runtime/session.ts`. `connect` runs through a route lookup, the
opening of a socket and a handshake. At every `await` it is suspended and other events come in
between: public calls, timers, socket events and continuations of other calls of `connect`. One
event is what runs between two suspensions.
-/

namespace CamelliaRemote.Web
open Codec

inductive ConnectionState where
  | idle
  | connecting
  | connected
  | closed
  deriving DecidableEq, Repr

/-- The fields of a `SessionContext` that `connect` decides by. -/
structure SessionContext where
  rendezvousServer : String
  key : String
  allowDirectIpAccess : Bool
  deriving DecidableEq, Repr

/-- A session's request and what it asks of other modules. -/
structure Setup where
  /-- Whether `isDirectAccessTarget` holds of the requested id. -/
  directTarget : Bool
  videoSession : Bool
  /-- The key that signs for the requested id, from the rendezvous server's key and
  the signed identity; `none` when the signature or the id does not fit. -/
  signPk : String → Bytes → Option Bytes
  /-- Whether a first message carries the peer's identity under this key. -/
  identifies : Bytes → Bytes → Bool
  relayJoin : SessionContext → String → Bytes
  refreshVideo : Bytes
  switchDisplay : Nat → Bytes

/-- `resolveDirectAccessEndpoint` finds an endpoint. -/
def Setup.directEndpoint (setup : Setup) (context : SessionContext) : Bool :=
  context.allowDirectIpAccess && setup.directTarget

structure RelayInfo where
  signedIdPk : Bytes
  uuid : String

inductive ConnectionRoute where
  | direct (signedIdPk : Bytes)
  | relay (info : RelayInfo)

inductive Via where
  | direct
  | relay (uuid : String)
  deriving DecidableEq, Repr

/-- The `await` at which a call of `connect` is suspended; from `opening` on with the
unread messages of its inbox. -/
inductive Await where
  | protos
  | directIp (promise : Promise)
  | directIpAccess (ok : Bool)
  | route
  | relayInfo
  | opening (via : Via) (promise : Promise)
  | joined (via : Via) (inbox : List Bytes)
  | first (via : Via) (inbox : List Bytes) (signPk : Bytes)
  | secured (via : Via) (inbox : List Bytes) (ok : Bool)
  | tried (via : Via) (ok : Bool)
  | routed
  | unrouted
  /-- `connect` has failed, and `tryAutoReconnect` is yet to see it. -/
  | failed
  deriving DecidableEq, Repr

/-- A call of `connect`; `attempt` is set for an automatic reconnect. -/
structure Call where
  id : Nat
  context : SessionContext
  attempt : Option Nat
  awaiting : Await
  deriving DecidableEq, Repr

structure WebSession where
  transport : WebSocketTransport := {}
  state : ConnectionState := .idle
  proto : Bool := false
  context : Option SessionContext := none
  signedIdPk : Bytes := []
  /-- `requestedDisplays`, which is empty or one display. -/
  requestedDisplay : Option Nat := none
  keepaliveTimer : Bool := false
  reconnectTimer : Option (SessionContext × Nat) := none
  reconnectAttempts : Nat := 0
  closeNotified : Bool := false
  manualClose : Bool := false
  calls : List Call := []
  started : Nat := 0

/-- What the awaited operation answers: whether it succeeded and with what, whether
a new socket can be made, and the key of a handshake with the reply that carries it. -/
structure Answer where
  ok : Bool
  route : ConnectionRoute
  relayInfo : RelayInfo
  constructed : Bool
  box : SecretBox
  publicKey : Bytes

structure CloseEvent where
  code : Nat
  wasClean : Bool

inductive SessionEvent where
  | connect (context : SessionContext)
  | close
  | resume (call : Nat) (answer : Answer)
  | socketOpen (id : Nat)
  | socketError (id : Nat)
  /-- The browser starts to close a socket. -/
  | socketClosing (id : Nat)
  | socketClose (id : Nat) (event : CloseEvent)
  | socketTimeout (id : Nat)
  | socketMessage (id : Nat) (data : Bytes) (opened : Option Bytes)
  | reconnectTimeout
  | keepaliveInterval (heartbeat : Bytes)
  /-- Any public call, continuation, timer or message handler that calls
  `sendMessage`, among them the blocks of an upload. -/
  | sendMessage (data : Bytes)
  | sendBinary (data : Bytes)
  | switchDisplay (target : Nat)

namespace WebSession

def maxAutoReconnectAttempts : Nat := 3

variable (setup : Setup) (s : WebSession)

def sendTransport (origin : Origin) (data : Bytes) : WebSession :=
  { s with transport := s.transport.send origin data }

def sendMessage (origin : Origin) (data : Bytes) : WebSession :=
  if s.proto then s.sendTransport origin data else s

def sendClientHeartbeat (heartbeat : Bytes) : WebSession :=
  if s.state ≠ .connected then s else s.sendMessage .application heartbeat

/-- The first tick of `startInitialVideoRefreshLoop`; the later ones are events of
their own. -/
def requestInitialVideoRefresh : WebSession :=
  if setup.videoSession && !s.manualClose && s.state = .connected then
    s.sendMessage .application setup.refreshVideo
  else s

def switchDisplay (target : Nat) : WebSession :=
  if s.proto then
    let s := { s with requestedDisplay := some target }
    requestInitialVideoRefresh setup (s.sendMessage .application (setup.switchDisplay target))
  else s

def finalizeClosedState : WebSession :=
  if s.closeNotified then s
  else
    { s with
      closeNotified := true
      reconnectTimer := none
      reconnectAttempts := 0
      keepaliveTimer := false
      state := .closed }

def close : WebSession :=
  let s := finalizeClosedState { s with manualClose := true, reconnectTimer := none }
  { s with transport := s.transport.close }

def scheduleAutoReconnect : WebSession :=
  match s.context with
  | none => s.finalizeClosedState
  | some context =>
    { s with
      reconnectAttempts := s.reconnectAttempts + 1
      keepaliveTimer := false
      state := .connecting
      reconnectTimer := some (context, s.reconnectAttempts + 1) }

def shouldAutoReconnect (event : CloseEvent) : Bool :=
  s.context.isSome && !s.manualClose && s.state = .connected &&
    s.reconnectAttempts < maxAutoReconnectAttempts && !(event.code = 1000 && event.wasClean)

def handleTransportClose (event : CloseEvent) : WebSession :=
  if s.manualClose || s.state = .idle then s
  else if s.state = .connecting then s
  else if s.shouldAutoReconnect event then s.scheduleAutoReconnect
  else s.finalizeClosedState

/-- `connect` up to its first `await`. -/
def startConnect (context : SessionContext) (attempt : Option Nat) : WebSession :=
  { s with
    manualClose := false
    closeNotified := false
    reconnectAttempts := if attempt.isNone then 0 else s.reconnectAttempts
    reconnectTimer := none
    context := some context
    state := .connecting
    calls := s.calls ++ [⟨s.started, context, attempt, .protos⟩]
    started := s.started + 1 }

def goTo (c : Call) (next : Await) : WebSession :=
  { s with
    calls := s.calls.map fun c' => if c'.id = c.id then { c' with awaiting := next } else c' }

def endCall (c : Call) : WebSession := { s with calls := s.calls.filter (·.id ≠ c.id) }

/-- The `catch` of `connect`. -/
def rejectConnect (c : Call) : WebSession :=
  let s := { s with
    keepaliveTimer := false
    transport := (s.transport.setCipher none).close
    state := .idle }
  if c.attempt.isSome then s.goTo c .failed else s.endCall c

/-- The end of `connect`. -/
def connected (c : Call) : WebSession :=
  let s := { s with state := .connected, keepaliveTimer := true }
  let s := requestInitialVideoRefresh setup s
  let s :=
    match s.requestedDisplay with
    | some target => switchDisplay setup s target
    | none => s
  { s with reconnectAttempts := 0 }.endCall c

/-- `connectDirect` and `connectRelay` up to the socket. -/
def openSocket (c : Call) (via : Via) (signedIdPk : Bytes) (constructed : Bool) : WebSession :=
  let (t, promise) := s.transport.connect constructed
  { s with signedIdPk := signedIdPk, transport := t }.goTo c (.opening via promise)

def connectRelay (c : Call) (info : RelayInfo) (constructed : Bool) : WebSession :=
  s.openSocket c (.relay info.uuid) info.signedIdPk constructed

/-- `secureConnection` up to its `await`. -/
def secureConnection (c : Call) (via : Via) (inbox : List Bytes) : WebSession :=
  if !s.proto || c.context.key.isEmpty || s.signedIdPk.isEmpty then
    s.goTo c (.secured via inbox false)
  else
    match setup.signPk c.context.key s.signedIdPk with
    | none => s.goTo c (.secured via inbox false)
    | some signPk => s.goTo c (.first via inbox signPk)

/-- What follows the `await` at which `c` is suspended. A promise that is not settled
leaves it there. -/
def resume (c : Call) (answer : Answer) : WebSession :=
  match c.awaiting with
  | .protos =>
    if !answer.ok then s.rejectConnect c
    else
      let s := { s with proto := true }
      if setup.directEndpoint c.context then
        let (t, promise) := s.transport.connect answer.constructed
        { s with transport := t }.goTo c (.directIp promise)
      else if setup.directTarget && !c.context.allowDirectIpAccess then s.rejectConnect c
      else if c.context.rendezvousServer.isEmpty then s.rejectConnect c
      else s.goTo c .route
  | .directIp promise =>
    match s.transport.outcome promise with
    | none => s
    | some false => s.goTo c (.directIpAccess false)
    | some true =>
      s.sendMessage .application [] |>.goTo c (.directIpAccess true)
  | .directIpAccess ok =>
    if ok then s.connected setup c
    else { s with transport := s.transport.close }.rejectConnect c
  | .route =>
    if !answer.ok then s.rejectConnect c
    else
      match answer.route with
      | .direct signedIdPk => s.openSocket c .direct signedIdPk answer.constructed
      | .relay info => s.connectRelay c info answer.constructed
  | .relayInfo =>
    if !answer.ok then s.goTo c .unrouted
    else s.connectRelay c answer.relayInfo answer.constructed
  | .opening via promise =>
    match s.transport.outcome promise with
    | none => s
    | some false => s.goTo c (.tried via false)
    | some true =>
      match via with
      | .direct => s.secureConnection setup c via []
      | .relay uuid =>
        s.sendMessage .relayJoin (setup.relayJoin c.context uuid) |>.goTo c (.joined via [])
  | .joined via inbox => s.secureConnection setup c via inbox
  | .first via inbox signPk =>
    match inbox with
    | [] => s.goTo c (.secured via [] false)
    | first :: rest =>
      if setup.identifies signPk first then
        let s := s.sendMessage .publicKey answer.publicKey
        { s with transport := s.transport.setCipher (some (answer.box, {})) }.goTo c
          (.secured via rest true)
      else s.goTo c (.secured via rest false)
  | .secured via _ ok => s.goTo c (.tried via ok)
  | .tried via ok =>
    if ok then s.goTo c .routed
    else
      match via with
      | .direct => { s with transport := s.transport.close }.goTo c .relayInfo
      | .relay _ => s.goTo c .unrouted
  | .routed => s.connected setup c
  | .unrouted => s.rejectConnect c
  | .failed =>
    let s := s.endCall c
    if s.manualClose then s
    else if maxAutoReconnectAttempts ≤ s.reconnectAttempts then s.finalizeClosedState
    else s.scheduleAutoReconnect

/-- A message goes to the inbox of every call that has one open. -/
def Await.push (data : Bytes) : Await → Await
  | .joined via inbox => .joined via (inbox ++ [data])
  | .first via inbox signPk => .first via (inbox ++ [data]) signPk
  | .secured via inbox ok => .secured via (inbox ++ [data]) ok
  | other => other

def onMessage (id : Nat) (data : Bytes) (opened : Option Bytes) : WebSession :=
  if s.transport.readyState id ≠ .opened then s
  else
    match s.transport.onMessage data opened with
    | (t, none) => { s with transport := t }
    | (t, some payload) =>
      { s with
        transport := t
        calls := s.calls.map fun c => { c with awaiting := Await.push payload c.awaiting } }

def step : SessionEvent → WebSession
  | .connect context => s.startConnect context none
  | .close => s.close
  | .resume id answer =>
    match s.calls.find? (·.id = id) with
    | some c => s.resume setup c answer
    | none => s
  | .socketOpen id =>
    if s.transport.readyState id = .connecting ∧ id < s.transport.created then
      { s with transport := s.transport.onOpen id }
    else s
  | .socketError id => { s with transport := s.transport.onError id }
  | .socketClosing id => { s with transport := s.transport.closeSocket id }
  | .socketClose id event =>
    let (t, notified) := s.transport.onClose id
    let s := { s with transport := t }
    if notified then s.handleTransportClose event else s
  | .socketTimeout id => { s with transport := s.transport.onTimeout id }
  | .socketMessage id data opened => s.onMessage id data opened
  | .reconnectTimeout =>
    match s.reconnectTimer with
    | none => s
    | some (context, attempt) =>
      let s := { s with reconnectTimer := none }
      if s.manualClose then s else s.startConnect context (some attempt)
  | .keepaliveInterval heartbeat =>
    if s.keepaliveTimer then s.sendClientHeartbeat heartbeat else s
  | .sendMessage data => s.sendMessage .application data
  | .sendBinary data => s.sendTransport .application data
  | .switchDisplay target => s.switchDisplay setup target

end WebSession

end CamelliaRemote.Web
