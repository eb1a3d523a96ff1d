import Std.Data.ExtTreeMap
import CamelliaRemote.Lib.Runs
import CamelliaRemote.Protocol

/-!
Privacy mode: `privacy_mode.rs` and its callers in `server/connection.rs`. `PRIVACY_MODE` is one
global behind a mutex. A connection task reaches it through several lock sections per request, so
a request is a phase of its connection and every lock section is one step. An implementation is
taken as its trait promises: it records the connection when `turn_on_privacy` succeeds and asks
`check_off_conn_id` first when it is turned off. What the platform answers is part of the event.
-/

namespace CamelliaRemote.Privacy
open Std (ExtTreeMap)

def invalidPrivacyModeConnId : Int := 0

def occupied : String := "Privacy occupied by another one."

def turnOffOtherId : String :=
  "Failed to turn off privacy mode that belongs to someone else."

/-- What `pre_conn_id` and `get_impl_key` answer. -/
structure PrivacyModeImpl where
  implKey : String
  connId : Int := invalidPrivacyModeConnId
  deriving DecidableEq, Repr

/-- The platform's part of `turn_off_privacy`, after the ownership check. The
window implementations forget the connection even when hiding fails. -/
inductive OffAnswer where
  | off
  | failed (e : String)
  | stopped (e : String)
  deriving DecidableEq, Repr

namespace PrivacyModeImpl

def checkOnConnId (m : PrivacyModeImpl) (connId : Int) : Except String Bool :=
  if m.connId = connId then .ok true
  else if m.connId ≠ invalidPrivacyModeConnId then .error occupied
  else .ok false

def checkOffConnId (m : PrivacyModeImpl) (connId : Int) : Except String Unit :=
  if m.connId ≠ invalidPrivacyModeConnId ∧ connId ≠ invalidPrivacyModeConnId ∧ m.connId ≠ connId
  then .error turnOffOtherId
  else .ok ()

def turnOnPrivacy (m : PrivacyModeImpl) (connId : Int) (answer : Except String Bool) :
    PrivacyModeImpl × Except String Bool :=
  match m.checkOnConnId connId with
  | .error e => (m, .error e)
  | .ok true => (m, .ok true)
  | .ok false =>
    match answer with
    | .ok true => ({ m with connId }, .ok true)
    | .ok false => (m, .ok false)
    | .error e => (m, .error e)

def turnOffPrivacy (m : PrivacyModeImpl) (connId : Int) (answer : OffAnswer) :
    PrivacyModeImpl × Except String Unit :=
  match m.checkOffConnId connId with
  | .error e => (m, .error e)
  | .ok () =>
    match answer with
    | .off => ({ m with connId := invalidPrivacyModeConnId }, .ok ())
    | .failed e => (m, .error e)
    | .stopped e => ({ m with connId := invalidPrivacyModeConnId }, .error e)

end PrivacyModeImpl

/-- The build and the machine: the keys of `PRIVACY_MODE_CREATOR`,
`DEFAULT_PRIVACY_MODE_IMPL` and `is_async_privacy_mode` of each implementation. -/
structure Platform where
  creators : List String
  defaultImpl : String
  isAsync : String → Bool

/-- What `turn_on_privacy_sync` finds: the supported implementations, the
option `privacy-mode-impl-key`, and how the implementation's own call ends. -/
structure OnAnswer where
  supported : List String
  optionKey : String
  turnOn : Except String Bool
  deriving DecidableEq

def getSupportedImpl (p : Platform) (w : OnAnswer) (implKey : String) : String :=
  if implKey ∈ w.supported then implKey
  else if w.optionKey ∈ w.supported then w.optionKey
  else p.defaultImpl

def isPrivacyModeSupported (p : Platform) : Bool := p.defaultImpl != ""

abbrev Global := Option PrivacyModeImpl

def Global.curImplKey (g : Global) : String := (g.map (·.implKey)).getD ""

/-- `pre_conn_id`, and the invalid id while there is no implementation. -/
def Global.owner (g : Global) : Int := (g.map (·.connId)).getD invalidPrivacyModeConnId

def isInPrivacyMode (g : Global) : Bool := g.owner != invalidPrivacyModeConnId

/-- The tail of `turn_on_privacy_sync`: replace the implementation if another
one is asked for, then turn it on. -/
def switchAndTurnOn (p : Platform) (w : OnAnswer) (g : Global) (implKey : String) (connId : Int) :
    Global × Option (Except String Bool) :=
  if g.curImplKey ≠ implKey ∧ implKey ∉ p.creators then
    (g, some (.error s!"Unsupported privacy mode: {implKey}"))
  else
    match (if g.curImplKey ≠ implKey then some { implKey } else g) with
    | none => (g, none)
    | some m =>
      let (m, res) := m.turnOnPrivacy connId w.turnOn
      (some m, some res)

def turnOnPrivacySync (p : Platform) (w : OnAnswer) (g : Global) (implKey : String)
    (connId : Int) : Global × Option (Except String Bool) :=
  let implKey := getSupportedImpl p w implKey
  match g with
  | none => switchAndTurnOn p w g implKey connId
  | some m =>
    match m.checkOnConnId connId with
    | .error e => (g, some (.error e))
    | .ok true =>
      if m.implKey = implKey then (g, some (.ok true)) else switchAndTurnOn p w g implKey connId
    | .ok false => switchAndTurnOn p w g implKey connId

def turnOffPrivacy (g : Global) (connId : Int) (answer : OffAnswer) :
    Global × Option (Except String Unit) :=
  match g with
  | none => (none, none)
  | some m =>
    let (m, res) := m.turnOffPrivacy connId answer
    (some m, some res)

inductive PrivacyModeState where
  | prvNotSupported
  | prvOnSucceeded
  | prvOnFailedDenied
  | prvOnFailedPlugin
  | prvOnFailed
  | prvOffSucceeded
  | prvOffByPeer
  | prvOffFailed
  deriving DecidableEq, Repr

structure BackNotification where
  state : PrivacyModeState
  details : String
  implKey : String
  deriving DecidableEq, Repr

def unsupportedDetails : String :=
  "Unsupported. 1 Multi-screen is not supported. 2 Please confirm the license is activated."

def turnOffPrivacyResultToMsg (res : Option (Except String Unit)) (implKey : String) :
    BackNotification :=
  match res with
  | some (.ok _) => ⟨.prvOffSucceeded, "", implKey⟩
  | some (.error e) => ⟨.prvOffFailed, e, implKey⟩
  | none => ⟨.prvOffFailed, "Not supported", implKey⟩

/-- Where a connection task stands between two lock sections. -/
inductive Phase where
  | idle
  /-- `turn_on_privacy_sync` is next, on the task itself. -/
  | turningOn (implKey : String)
  /-- Waiting for the spawned thread, at most 7.5 seconds. -/
  | waiting (thread : Nat) (implKey : String)
  /-- The turn-on succeeded; `check_privacy_mode_err` is next. -/
  | verifying (implKey : String)
  /-- The turn-on failed; `is_in_privacy_mode` is next. -/
  | failed (e : String) (implKey : String)
  /-- Some privacy mode was on; `turn_off_privacy` of the invalid id is next. -/
  | recovering (e : String) (implKey : String)
  /-- The permission is being revoked from the owner. -/
  | revoking (implKey : String)
  /-- The loop has ended and this connection is the owner. -/
  | closing
  deriving DecidableEq, Repr

/-- What a connection task has sent. -/
inductive Sent where
  | notification (n : BackNotification)
  /-- `send_permission`, to the peer. -/
  | permission (enabled : Bool)
  /-- `SwitchPermission`, back to the connection manager. -/
  | switchPermission (enabled : Bool)
  deriving DecidableEq, Repr

structure Connection where
  isAuthedRemoteConn : Bool := true
  viewCamera : Bool := false
  keyboard : Bool := true
  /-- The permission `conn.privacy_mode`. -/
  privacyMode : Bool := true
  /-- `lr.version` is below 1.2.4. -/
  oldVersion : Bool := false
  phase : Phase := .idle
  sent : List Sent := []
  deriving DecidableEq, Repr

def Connection.isRecovering (c : Connection) : Bool :=
  match c.phase with
  | .recovering _ _ => true
  | _ => false

/-- The last act of a request: the answer to the peer. -/
def Connection.send (c : Connection) (n : BackNotification) : Connection :=
  { c with phase := .idle, sent := c.sent ++ [Sent.notification n] }

structure TurnOnThread where
  implKey : String
  connId : Int
  deriving DecidableEq, Repr

structure World where
  privacyMode : Global
  /-- `Server::id_count`, an `i32`. -/
  idCount : Int
  conns : ExtTreeMap Int Connection := ∅
  threads : ExtTreeMap Nat TurnOnThread := ∅
  spawned : Nat := 0

structure TogglePrivacyMode where
  on : Bool
  implKey : String
  deriving DecidableEq, Repr

/-- A lock section of a connection task, with what the platform answers. -/
inductive Action where
  | togglePrivacyMode (t : TogglePrivacyMode) (answer : OffAnswer)
  /-- `privacy_mode` of an `OptionMessage`. -/
  | privacyOption (q : BoolOption) (answer : OffAnswer)
  | turnOnSync (w : OnAnswer)
  | timeout (e : String)
  | checkPrivacyModeErr (err : String) (answer : OffAnswer)
  | recoverCheck
  | recoverTurnOff (answer : OffAnswer)
  | switchPermission (enabled : Bool)
  | revokeTurnOff (answer : OffAnswer)
  | leaveLoop
  | closeTurnOff (answer : OffAnswer)
  deriving DecidableEq

inductive Event where
  | connect (c : Connection)
  | task (id : Int) (a : Action)
  | thread (n : Nat) (w : OnAnswer)
  deriving DecidableEq

namespace World

def put (s : World) (id : Int) (c : Connection) : World :=
  { s with conns := s.conns.insert id c }

def owner (s : World) : Int := s.privacyMode.owner

def getNewId (s : World) : Int := (s.idCount + 1).bmod (2 ^ 32)

def turnOnPrivacy (p : Platform) (s : World) (id : Int) (c : Connection) (implKey : String) :
    World :=
  if !c.isAuthedRemoteConn || !c.privacyMode then
    s.put id (c.send ⟨.prvOnFailedDenied, "", implKey⟩)
  else if !isPrivacyModeSupported p then
    s.put id (c.send ⟨.prvNotSupported, unsupportedDetails, implKey⟩)
  else if s.privacyMode.isSome && p.isAsync s.privacyMode.curImplKey then
    { s.put id { c with phase := .waiting s.spawned implKey } with
      threads := s.threads.insert s.spawned ⟨implKey, id⟩
      spawned := s.spawned + 1 }
  else s.put id { c with phase := .turningOn implKey }

def turnOffPrivacy (p : Platform) (s : World) (id : Int) (c : Connection) (implKey : String)
    (answer : OffAnswer) : World :=
  if !isPrivacyModeSupported p then
    s.put id (c.send ⟨.prvNotSupported, unsupportedDetails, implKey⟩)
  else
    let (g, res) := Privacy.turnOffPrivacy s.privacyMode id answer
    { s.put id (c.send (turnOffPrivacyResultToMsg res implKey)) with privacyMode := g }

/-- How `Connection::turn_on_privacy` goes on with the result. -/
def turnOnResult (c : Connection) (implKey : String) : Option (Except String Bool) → Connection
  | some (.ok true) => { c with phase := .verifying implKey }
  | some (.ok false) => c.send ⟨.prvOnFailedPlugin, "", implKey⟩
  | some (.error e) => { c with phase := .failed e implKey }
  | none => c.send ⟨.prvOffFailed, "Not supported", implKey⟩

/-- The thread's result reaches the task only if it is still waiting. -/
def deliver (s : World) (thread : Nat) (t : TurnOnThread)
    (res : Option (Except String Bool)) : World :=
  match s.conns[t.connId]? with
  | none => s
  | some c =>
    match c.phase with
    | .waiting n implKey =>
      if n = thread then s.put t.connId (turnOnResult c implKey res) else s
    | _ => s

def switchPermission (s : World) (id : Int) (c : Connection) (enabled : Bool) : World :=
  if !enabled && isInPrivacyMode s.privacyMode && s.owner == id then
    s.put id { c with phase := .revoking s.privacyMode.curImplKey }
  else s.put id { c with privacyMode := enabled, sent := c.sent ++ [Sent.permission enabled] }

def revokeTurnOff (s : World) (id : Int) (c : Connection) (implKey : String)
    (answer : OffAnswer) : World :=
  let (g, res) := Privacy.turnOffPrivacy s.privacyMode id answer
  let c := match res with
    | some (.ok _) =>
      { c with
        phase := .idle
        privacyMode := false
        sent := c.sent ++ [Sent.notification ⟨.prvOffByPeer, "", implKey⟩, .permission false] }
    | _ =>
      { c with
        phase := .idle
        sent := c.sent ++ [Sent.notification (turnOffPrivacyResultToMsg res implKey),
          .switchPermission c.privacyMode] }
  { s.put id c with privacyMode := g }

def act (p : Platform) (s : World) (id : Int) (c : Connection) : Action → World
  | .togglePrivacyMode t answer =>
    if c.phase ≠ .idle ∨ c.viewCamera then s
    else if t.on then s.turnOnPrivacy p id c t.implKey
    else s.turnOffPrivacy p id c t.implKey answer
  | .privacyOption q answer =>
    if c.phase ≠ .idle ∨ !c.oldVersion ∨ !c.keyboard then s
    else
      match q with
      | .yes => s.turnOnPrivacy p id c ""
      | .no => s.turnOffPrivacy p id c "" answer
      | .notSet => s
  | .turnOnSync w =>
    match c.phase with
    | .turningOn implKey =>
      let (g, res) := turnOnPrivacySync p w s.privacyMode implKey id
      { s.put id (turnOnResult c implKey res) with privacyMode := g }
    | _ => s
  | .timeout e =>
    match c.phase with
    | .waiting _ implKey => s.put id { c with phase := .failed e implKey }
    | _ => s
  | .checkPrivacyModeErr err answer =>
    match c.phase with
    | .verifying implKey =>
      if err = "" then s.put id (c.send ⟨.prvOnSucceeded, "", implKey⟩)
      else
        { s.put id (c.send ⟨.prvOnFailed, err, implKey⟩) with
          privacyMode := (Privacy.turnOffPrivacy s.privacyMode id answer).1 }
    | _ => s
  | .recoverCheck =>
    match c.phase with
    | .failed e implKey =>
      if isInPrivacyMode s.privacyMode then s.put id { c with phase := .recovering e implKey }
      else s.put id (c.send ⟨.prvOnFailed, e, implKey⟩)
    | _ => s
  | .recoverTurnOff answer =>
    match c.phase with
    | .recovering e implKey =>
      { s.put id (c.send ⟨.prvOnFailed, e, implKey⟩) with
        privacyMode :=
          (Privacy.turnOffPrivacy s.privacyMode invalidPrivacyModeConnId answer).1 }
    | _ => s
  | .switchPermission enabled =>
    match c.phase with
    | .idle => s.switchPermission id c enabled
    | _ => s
  | .revokeTurnOff answer =>
    match c.phase with
    | .revoking implKey => s.revokeTurnOff id c implKey answer
    | _ => s
  | .leaveLoop =>
    if c.phase ≠ .idle then s
    else if s.privacyMode.isSome && s.owner == id then s.put id { c with phase := .closing }
    else { s with conns := s.conns.erase id }
  | .closeTurnOff answer =>
    match c.phase with
    | .closing =>
      { s with
        conns := s.conns.erase id
        privacyMode := (Privacy.turnOffPrivacy s.privacyMode id answer).1 }
    | _ => s

def step (p : Platform) (s : World) : Event → World
  | .connect c =>
    { s.put s.getNewId { c with phase := .idle, sent := [] } with idCount := s.getNewId }
  | .task id a =>
    match s.conns[id]? with
    | none => s
    | some c => s.act p id c a
  | .thread n w =>
    match s.threads[n]? with
    | none => s
    | some t =>
      let (g, res) := turnOnPrivacySync p w s.privacyMode t.implKey t.connId
      { s.deliver n t res with privacyMode := g, threads := s.threads.erase n }

/-- `PRIVACY_MODE` as it is first made, before any connection. -/
def new (g : Option String) (idCount : Int) : World :=
  { privacyMode := g.map fun implKey => { implKey }, idCount }

end World

end CamelliaRemote.Privacy
