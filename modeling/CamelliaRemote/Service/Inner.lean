import Std.Data.ExtTreeMap
import CamelliaRemote.Lib.Runs

/-!
The services of `server/service.rs`. `ServiceInner` is what the `RwLock` of a service protects.
Every operation takes the lock once, so each is one step; a snapshot callback takes it once per
message and once more when its `ServiceSwap` is dropped, and other threads run in between.
-/

namespace CamelliaRemote.Service
open Std (ExtTreeMap)

/-- What a subscriber's channel has carried: a message of a snapshot callback,
named by the number of that callback, or a message of the service itself. -/
inductive Item (Msg : Type) where
  | snapshot (callback : Nat) (msg : Msg)
  | shared (msg : Msg)
  deriving DecidableEq, Repr

/-- One entry of `subscribes` or `new_subscribes`, from `on_subscribe` on. -/
structure Subscriber (Msg : Type) where
  received : List (Item Msg) := []
  deriving DecidableEq, Repr

variable {Msg : Type}

def Subscriber.send (s : Subscriber Msg) (i : Item Msg) : Subscriber Msg :=
  ⟨s.received ++ [i]⟩

abbrev Subscribers (Msg : Type) := ExtTreeMap Int (Subscriber Msg)

structure ServiceInner (Msg : Type) where
  subscribes : Subscribers Msg := ∅
  newSubscribes : Subscribers Msg := ∅
  needSnapshot : Bool

/-- The service with the snapshot callbacks of its threads: how many have
started, what the unfinished ones have sent, and what those that returned
`Ok` sent in all. -/
structure ServiceTmpl (Msg : Type) extends ServiceInner Msg where
  started : Nat := 0
  running : ExtTreeMap Nat (List Msg) := ∅
  completed : List (Nat × List Msg) := []

namespace ServiceInner

def onSubscribe (s : ServiceInner Msg) (id : Int) : ServiceInner Msg :=
  if (s.subscribes[id]?).isSome then s
  else if s.needSnapshot then { s with newSubscribes := s.newSubscribes.insert id {} }
  else { s with subscribes := s.subscribes.insert id {} }

def onUnsubscribe (s : ServiceInner Msg) (id : Int) : ServiceInner Msg :=
  if (s.subscribes[id]?).isSome then { s with subscribes := s.subscribes.erase id }
  else { s with newSubscribes := s.newSubscribes.erase id }

/-- The senders of a service differ in whom they leave out. -/
def sendWhere (s : ServiceInner Msg) (dst : Int → Bool) (msg : Msg) : ServiceInner Msg :=
  { s with subscribes := s.subscribes.map fun id sub =>
      if dst id then sub.send (.shared msg) else sub }

def sendShared (s : ServiceInner Msg) (msg : Msg) : ServiceInner Msg :=
  s.sendWhere (fun _ => true) msg

def sendTo (s : ServiceInner Msg) (msg : Msg) (id : Int) : ServiceInner Msg :=
  s.sendWhere (fun sid => sid == id) msg

def sendToOthers (s : ServiceInner Msg) (msg : Msg) (id : Int) : ServiceInner Msg :=
  s.sendWhere (fun sid => sid != id) msg

def sendNewSubscribes (s : ServiceInner Msg) (callback : Nat) (msg : Msg) : ServiceInner Msg :=
  { s with newSubscribes := s.newSubscribes.map fun _ sub => sub.send (.snapshot callback msg) }

def swapNewSubscribes (s : ServiceInner Msg) : ServiceInner Msg :=
  { s with subscribes := s.subscribes ∪ s.newSubscribes, newSubscribes := ∅ }

end ServiceInner

inductive Event (Msg : Type) where
  | subscribe (id : Int)
  | unsubscribe (id : Int)
  | sendShared (msg : Msg)
  | sendTo (msg : Msg) (id : Int)
  | sendToOthers (msg : Msg) (id : Int)
  /-- `snapshot` finds `new_subscribes` non-empty and calls the callback. -/
  | snapshotBegin
  /-- `ServiceSwap::send_shared` inside callback number `callback`. -/
  | snapshotSend (callback : Nat) (msg : Msg)
  /-- The callback returns; its `ServiceSwap` is dropped whatever it returns. -/
  | snapshotEnd (callback : Nat) (ok : Bool)
  deriving DecidableEq, Repr

namespace ServiceTmpl

def snapshotBegin (s : ServiceTmpl Msg) : ServiceTmpl Msg :=
  if s.newSubscribes.isEmpty then s
  else { s with started := s.started + 1, running := s.running.insert s.started [] }

def snapshotSend (s : ServiceTmpl Msg) (callback : Nat) (msg : Msg) : ServiceTmpl Msg :=
  match s.running[callback]? with
  | none => s
  | some sent =>
    { s with
      toServiceInner := s.toServiceInner.sendNewSubscribes callback msg
      running := s.running.insert callback (sent ++ [msg]) }

def snapshotEnd (s : ServiceTmpl Msg) (callback : Nat) (ok : Bool) : ServiceTmpl Msg :=
  match s.running[callback]? with
  | none => s
  | some sent =>
    { s with
      toServiceInner := s.toServiceInner.swapNewSubscribes
      running := s.running.erase callback
      completed := if ok then s.completed ++ [(callback, sent)] else s.completed }

def step (s : ServiceTmpl Msg) : Event Msg → ServiceTmpl Msg
  | .subscribe id => { s with toServiceInner := s.toServiceInner.onSubscribe id }
  | .unsubscribe id => { s with toServiceInner := s.toServiceInner.onUnsubscribe id }
  | .sendShared msg => { s with toServiceInner := s.toServiceInner.sendShared msg }
  | .sendTo msg id => { s with toServiceInner := s.toServiceInner.sendTo msg id }
  | .sendToOthers msg id => { s with toServiceInner := s.toServiceInner.sendToOthers msg id }
  | .snapshotBegin => s.snapshotBegin
  | .snapshotSend callback msg => s.snapshotSend callback msg
  | .snapshotEnd callback ok => s.snapshotEnd callback ok

/-- `ServiceTmpl::new`. -/
def new (needSnapshot : Bool) : ServiceTmpl Msg := { needSnapshot }

end ServiceTmpl

end CamelliaRemote.Service
