import Std.Data.ExtTreeMap
import Mathlib.Logic.Function.Basic
import CamelliaRemote.Terminal.Session

/-!
The sessions of a terminal service. A service maps terminal ids to shared sessions. `read_outputs`
takes a snapshot of the map, processes each session under its own lock and cleans the ended ones
up by id; `handle_open` and `handle_close` change the map in between. Each of these sections is
one step. A session is named by the number of its `Arc`, and every step changes a session only by
session events.
-/

namespace CamelliaRemote.Terminal
open Std (ExtTreeMap)

/-- A `read_outputs` under way. -/
structure Poll where
  /-- `is_persistent` of the proxy that polls. -/
  isPersistent : Bool
  /-- What is left of the snapshot. -/
  todo : List (Int × Nat)
  /-- The code keeps the ids only; the session is the one the id was noted for. -/
  closedTerminals : List (Int × Nat) := []
  deriving DecidableEq, Repr

/-- The session at place `i` of what is left is done with. -/
def Poll.done (p : Poll) (i : Nat) (closed : Option (Int × Nat)) : Poll :=
  { p with todo := p.todo.eraseIdx i, closedTerminals := p.closedTerminals ++ closed.toList }

structure World where
  sessions : ExtTreeMap Int Nat := ∅
  needsSessionSync : Bool := false
  isPersistent : Bool := false
  heap : Nat → TerminalSession := fun _ => {}
  allocated : Nat := 0
  polls : ExtTreeMap Nat Poll := ∅
  started : Nat := 0

/-- `TerminalClosed` of a poll, with the session that was removed from the map
or whose child was reaped for it. -/
structure TerminalClosed where
  terminalId : Int
  exitCode : Int
  hit : Option Nat
  deriving DecidableEq, Repr

inductive Event where
  | send (session : Nat) (data : Bytes)
  | shellExits (session : Nat) (code : Int)
  | finishReader (session : Nat)
  | resetStatus (isPersistent : Bool)
  /-- `created` tells whether a new terminal could be started. -/
  | handleOpen (terminalId : Int) (arrivals : List Bytes) (created : Bool)
  | handleClose (terminalId : Int)
  | snapshot (isPersistent : Bool)
  /-- The next session is any of those left: the snapshot has no order. -/
  | process (poll i : Nat) (arrivals : List Bytes) (waitFails resizeOk : Bool)
  /-- `try_lock` fails. -/
  | skip (poll i : Nat)
  | cleanup (poll : Nat)
  deriving DecidableEq, Repr

namespace World

def apply (w : World) (session : Nat) (e : SessionEvent) : World :=
  { w with heap := Function.update w.heap session ((w.heap session).step e) }

def resetStatus (w : World) (isPersistent : Bool) : World :=
  { w with
    isPersistent
    needsSessionSync := true
    heap := fun a =>
      if w.sessions.toList.any (·.2 == a) then (w.heap a).step .reset else w.heap a }

/-- The session that `handle_open` would move to the id it asks for. -/
def remapped (w : World) (terminalId : Int) : Option (Int × Nat) :=
  if (w.sessions[terminalId]?).isNone && w.needsSessionSync then
    w.sessions.keys.min?.bind fun lowestId => (w.sessions[lowestId]?).map (lowestId, ·)
  else none

def remap (w : World) (terminalId : Int) : World :=
  match w.remapped terminalId with
  | some (lowestId, session) =>
    { w with sessions := (w.sessions.erase lowestId).insert terminalId session }
  | none => w

def openSession (w : World) (terminalId : Int) (arrivals : List Bytes) (created : Bool) : World :=
  match w.sessions[terminalId]? with
  | some session => { w.apply session (.reconnect arrivals) with needsSessionSync := false }
  | none =>
    if created then
      { w with
        sessions := w.sessions.insert terminalId w.allocated
        needsSessionSync := false
        heap := Function.update w.heap w.allocated .opened
        allocated := w.allocated + 1 }
    else w

def handleOpen (w : World) (terminalId : Int) (arrivals : List Bytes) (created : Bool) : World :=
  (w.remap terminalId).openSession terminalId arrivals created

def handleClose (w : World) (terminalId : Int) : World :=
  match w.sessions[terminalId]? with
  | some session => { w.apply session .takeChild with sessions := w.sessions.erase terminalId }
  | none => w

def snapshot (w : World) (isPersistent : Bool) : World :=
  { w with
    polls := w.polls.insert w.started { isPersistent, todo := w.sessions.toList }
    started := w.started + 1 }

def process (w : World) (poll : Nat) (p : Poll) (i : Nat) (x : Int × Nat)
    (arrivals : List Bytes) (waitFails resizeOk : Bool) : World :=
  let closed := if (w.heap x.2).shouldSendClosed waitFails then some x else none
  { w.apply x.2 (.poll x.1 arrivals waitFails resizeOk) with
    polls := w.polls.insert poll (p.done i closed) }

/-- The cleanup of one id of `closed_terminals`. -/
def cleanUpOne (isPersistent : Bool) (w : World) (terminalId : Int) : World :=
  match w.sessions[terminalId]? with
  | none => w
  | some session =>
    if !isPersistent || (w.heap session).closedMessageSent then
      { w.apply session .takeChild with sessions := w.sessions.erase terminalId }
    else w.apply session .takeChild

def exitCode : Option Child → Int
  | some (.exited code) => code
  | _ => 0

def closedResponse (isPersistent : Bool) (w : World) (terminalId : Int) : TerminalClosed :=
  match w.sessions[terminalId]? with
  | none => ⟨terminalId, 0, none⟩
  | some session =>
    { terminalId
      exitCode := exitCode (w.heap session).child
      hit :=
        if !isPersistent || (w.heap session).closedMessageSent ||
          (w.heap session).child.isSome then some session
        else none }

def cleanUp (isPersistent : Bool) (w : World) (ids : List Int) : World :=
  ids.foldl (cleanUpOne isPersistent) w

/-- A cleanup takes children and removes sessions, no more. -/
theorem cleanUp_frame (isPersistent : Bool) (w : World) (ids : List Int) :
    (cleanUp isPersistent w ids).allocated = w.allocated ∧
      (cleanUp isPersistent w ids).needsSessionSync = w.needsSessionSync := by
  induction ids generalizing w with
  | nil => exact ⟨rfl, rfl⟩
  | cons id ids ih =>
    have one : (cleanUpOne isPersistent w id).allocated = w.allocated ∧
        (cleanUpOne isPersistent w id).needsSessionSync = w.needsSessionSync := by
      unfold cleanUpOne
      split
      · exact ⟨rfl, rfl⟩
      · split
        · exact ⟨rfl, rfl⟩
        · exact ⟨rfl, rfl⟩
    exact ⟨(ih _).1.trans one.1, (ih _).2.trans one.2⟩

def closedResponses (isPersistent : Bool) : World → List Int → List TerminalClosed
  | _, [] => []
  | w, id :: ids =>
    closedResponse isPersistent w id ::
      closedResponses isPersistent (cleanUpOne isPersistent w id) ids

def step (w : World) : Event → World
  | .send session data => w.apply session (.send data)
  | .shellExits session code => w.apply session (.shellExits code)
  | .finishReader session => w.apply session .finishReader
  | .resetStatus isPersistent => w.resetStatus isPersistent
  | .handleOpen terminalId arrivals created => w.handleOpen terminalId arrivals created
  | .handleClose terminalId => w.handleClose terminalId
  | .snapshot isPersistent => w.snapshot isPersistent
  | .process poll i arrivals waitFails resizeOk =>
    match w.polls[poll]? with
    | none => w
    | some p =>
      match p.todo[i]? with
      | none => w
      | some x => w.process poll p i x arrivals waitFails resizeOk
  | .skip poll i =>
    match w.polls[poll]? with
    | none => w
    | some p => { w with polls := w.polls.insert poll (p.done i none) }
  | .cleanup poll =>
    match w.polls[poll]? with
    | none => w
    | some p =>
      if p.todo.isEmpty then
        { cleanUp p.isPersistent w (p.closedTerminals.map Prod.fst) with
          polls := w.polls.erase poll }
      else w

end World

end CamelliaRemote.Terminal
