import Mathlib.Data.List.TakeWhile
import CamelliaRemote.Lib.TreeMaps
import CamelliaRemote.Service.Inner

namespace CamelliaRemote.Service
open Runs ServiceTmpl

variable {Msg : Type}

def Item.isShared : Item Msg → Bool
  | .snapshot _ _ => false
  | .shared _ => true

/-- The messages of one callback, in the order the channel carried them. -/
def fromCallback (callback : Nat) (items : List (Item Msg)) : List Msg :=
  items.filterMap fun
    | .snapshot c msg => if c = callback then some msg else none
    | .shared _ => none

def beforeShared (items : List (Item Msg)) : List (Item Msg) :=
  items.takeWhile fun i => !i.isShared

/-- Some callback that returned `Ok` has all its messages in the channel
before the first message of the service. -/
def Snapshotted (s : ServiceTmpl Msg) (sub : Subscriber Msg) : Prop :=
  ∃ c ∈ s.completed, fromCallback c.1 (beforeShared sub.received) = c.2

instance [DecidableEq Msg] (s : ServiceTmpl Msg) (sub : Subscriber Msg) :
    Decidable (Snapshotted s sub) :=
  inferInstanceAs (Decidable (∃ c ∈ s.completed, _))

theorem fromCallback_snoc (callback c : Nat) (items : List (Item Msg)) (msg : Msg) :
    fromCallback callback (items ++ [Item.snapshot c msg]) =
      fromCallback callback items ++ if c = callback then [msg] else [] := by
  by_cases h : c = callback <;> simp [fromCallback, h]

theorem beforeShared_shared (items : List (Item Msg)) (msg : Msg) :
    beforeShared (items ++ [Item.shared msg]) = beforeShared items := by
  induction items with
  | nil => rfl
  | cons i items ih =>
    cases i with
    | shared => rfl
    | snapshot => simpa [beforeShared, Item.isShared] using ih

theorem beforeShared_of_none {items : List (Item Msg)} (h : ∀ i ∈ items, i.isShared = false) :
    beforeShared items = items := by
  simpa [beforeShared, List.takeWhile_eq_self_iff] using h

/-- What `on_subscribe` and the end of a callback must find for every promoted
subscriber to have a whole snapshot: no running callback has begun to send, and
a callback fails only with nobody parked. -/
def Orderly (s : ServiceTmpl Msg) : Event Msg → Prop
  | .subscribe id => (s.subscribes[id]?).isSome ∨ ∀ c ∈ s.running.toList, c.2.isEmpty
  | .snapshotEnd callback ok =>
    ok = true ∨ (s.running[callback]?).isNone ∨ s.newSubscribes.isEmpty
  | _ => True

instance (s : ServiceTmpl Msg) : ∀ e, Decidable (Orderly s e)
  | .subscribe _ => inferInstanceAs (Decidable (_ ∨ _))
  | .snapshotEnd _ _ => inferInstanceAs (Decidable (_ ∨ _))
  | .unsubscribe _ | .sendShared _ | .sendTo _ _ | .sendToOthers _ _ | .snapshotBegin
  | .snapshotSend _ _ => inferInstanceAs (Decidable True)

structure Apart (s : ServiceTmpl Msg) : Prop where
  needSnapshot : s.needSnapshot = true
  disjoint : ∀ id : Int, (s.subscribes[id]?).isSome → s.newSubscribes[id]? = none

theorem step_apart (s : ServiceTmpl Msg) (e : Event Msg) (h : Apart s) : Apart (s.step e) := by
  obtain ⟨need, apart⟩ := h
  cases e with
  | subscribe j =>
    simp only [step, ServiceInner.onSubscribe]
    split
    · exact ⟨need, apart⟩
    · exact ⟨need, fun id => by have := apart id; grind⟩
  | unsubscribe j =>
    simp only [step, ServiceInner.onUnsubscribe]
    split
    · exact ⟨need, fun id => by have := apart id; grind⟩
    · exact ⟨need, fun id => by have := apart id; grind⟩
  | sendShared | sendTo | sendToOthers =>
    refine ⟨need, fun id => ?_⟩
    simpa [step, ServiceInner.sendShared, ServiceInner.sendTo, ServiceInner.sendToOthers,
      ServiceInner.sendWhere] using apart id
  | snapshotBegin =>
    simp only [step, ServiceTmpl.snapshotBegin]
    split <;> exact ⟨need, apart⟩
  | snapshotSend c msg =>
    simp only [step, ServiceTmpl.snapshotSend]
    split
    · exact ⟨need, apart⟩
    · exact ⟨need, fun id => by simpa [ServiceInner.sendNewSubscribes] using apart id⟩
  | snapshotEnd c ok =>
    simp only [step, ServiceTmpl.snapshotEnd]
    split
    · exact ⟨need, apart⟩
    · exact ⟨need, fun id => by simp [ServiceInner.swapNewSubscribes]⟩

structure Inv (s : ServiceTmpl Msg) : Prop where
  needSnapshot : s.needSnapshot = true
  /-- A parked channel has carried no message of the service, ... -/
  unshared : ∀ (id : Int) sub, s.newSubscribes[id]? = some sub →
    ∀ i ∈ sub.received, i.isShared = false
  /-- ... all that every running callback has sent, ... -/
  follows : ∀ (id : Int) sub, s.newSubscribes[id]? = some sub →
    ∀ (c : Nat) sent, s.running[c]? = some sent → fromCallback c sub.received = sent
  /-- ... and nothing under a number no callback has yet. -/
  unused : ∀ (id : Int) sub, s.newSubscribes[id]? = some sub →
    ∀ c, s.started ≤ c → fromCallback c sub.received = []
  numbered : ∀ (c : Nat) sent, s.running[c]? = some sent → c < s.started
  promoted : ∀ (id : Int) sub, s.subscribes[id]? = some sub → Snapshotted s sub

theorem new_inv : Inv (ServiceTmpl.new true : ServiceTmpl Msg) := by
  constructor <;> simp [ServiceTmpl.new]

theorem subscribe_inv {s : ServiceTmpl Msg} (h : Inv s) (id : Int)
    (ok : Orderly s (.subscribe id)) : Inv (s.step (.subscribe id)) := by
  simp only [step, ServiceInner.onSubscribe]
  split
  · exact h
  · rename_i absent
    have quiet : ∀ (c : Nat) sent, s.running[c]? = some sent → sent = [] := by
      intro c sent hc
      have all := ok.resolve_left absent
      simpa using all (c, sent) (Std.ExtTreeMap.mem_toList_iff_getElem?_eq_some.mpr hc)
    rw [if_pos h.needSnapshot]
    refine ⟨h.needSnapshot, ?_, ?_, ?_, h.numbered, h.promoted⟩
    · intro j sub hj
      rcases TreeMaps.of_insert hj with ⟨-, rfl⟩ | ⟨-, old⟩
      · simp
      · exact h.unshared j sub old
    · intro j sub hj c sent hc
      rcases TreeMaps.of_insert hj with ⟨-, rfl⟩ | ⟨-, old⟩
      · simp [fromCallback, quiet c sent hc]
      · exact h.follows j sub old c sent hc
    · intro j sub hj c hc
      rcases TreeMaps.of_insert hj with ⟨-, rfl⟩ | ⟨-, old⟩
      · rfl
      · exact h.unused j sub old c hc

theorem unsubscribe_inv {s : ServiceTmpl Msg} (h : Inv s) (id : Int) :
    Inv (s.step (.unsubscribe id)) := by
  simp only [step, ServiceInner.onUnsubscribe]
  split
  · exact ⟨h.needSnapshot, h.unshared, h.follows, h.unused, h.numbered,
      fun j sub hj => h.promoted j sub (TreeMaps.of_erase hj).2⟩
  · exact ⟨h.needSnapshot, fun j sub hj => h.unshared j sub (TreeMaps.of_erase hj).2,
      fun j sub hj => h.follows j sub (TreeMaps.of_erase hj).2,
      fun j sub hj => h.unused j sub (TreeMaps.of_erase hj).2, h.numbered, h.promoted⟩

theorem sendWhere_inv {s : ServiceTmpl Msg} (h : Inv s) (dst : Int → Bool) (msg : Msg) :
    Inv { s with toServiceInner := s.toServiceInner.sendWhere dst msg } := by
  refine ⟨h.needSnapshot, h.unshared, h.follows, h.unused, h.numbered, ?_⟩
  intro j sub hj
  simp only [ServiceInner.sendWhere, Std.ExtTreeMap.getElem?_map, Option.map_eq_some_iff] at hj
  obtain ⟨old, hold, rfl⟩ := hj
  obtain ⟨c, hc, same⟩ := h.promoted j old hold
  refine ⟨c, hc, ?_⟩
  split
  · simpa [Subscriber.send, beforeShared_shared] using same
  · exact same

theorem snapshotBegin_inv {s : ServiceTmpl Msg} (h : Inv s) : Inv s.snapshotBegin := by
  simp only [ServiceTmpl.snapshotBegin]
  split
  · exact h
  · refine ⟨h.needSnapshot, h.unshared, ?_, ?_, ?_, h.promoted⟩
    · intro j sub hj c sent hc
      rcases TreeMaps.of_insert hc with ⟨rfl, rfl⟩ | ⟨-, old⟩
      · exact h.unused j sub hj _ (Nat.le_refl _)
      · exact h.follows j sub hj c sent old
    · intro j sub hj c hc
      exact h.unused j sub hj c (by simp only at hc; omega)
    · intro c sent hc
      rcases TreeMaps.of_insert hc with ⟨rfl, -⟩ | ⟨-, old⟩
      · exact Nat.lt_succ_self _
      · exact Nat.lt_succ_of_lt (h.numbered c sent old)

theorem snapshotSend_inv {s : ServiceTmpl Msg} (h : Inv s) (callback : Nat) (msg : Msg) :
    Inv (s.snapshotSend callback msg) := by
  simp only [ServiceTmpl.snapshotSend]
  split
  · exact h
  · rename_i sent hsent
    have parked {j : Int} {sub : Subscriber Msg}
        (hj : (s.toServiceInner.sendNewSubscribes callback msg).newSubscribes[j]? = some sub) :
        ∃ old, s.newSubscribes[j]? = some old ∧ old.send (.snapshot callback msg) = sub := by
      simpa [ServiceInner.sendNewSubscribes] using hj
    have below := h.numbered callback sent hsent
    refine ⟨h.needSnapshot, ?_, ?_, ?_, ?_, h.promoted⟩
    · intro j sub hj i hi
      obtain ⟨old, hold, rfl⟩ := parked hj
      rcases List.mem_append.mp hi with hi | hi
      · exact h.unshared j old hold i hi
      · cases List.mem_singleton.mp hi; rfl
    · intro j sub hj c sent' hc
      obtain ⟨old, hold, rfl⟩ := parked hj
      simp only [Subscriber.send, fromCallback_snoc]
      rcases TreeMaps.of_insert hc with ⟨rfl, rfl⟩ | ⟨other, before⟩
      · simp [h.follows j old hold c sent hsent]
      · simp [other.symm, h.follows j old hold c sent' before]
    · intro j sub hj c hc
      obtain ⟨old, hold, rfl⟩ := parked hj
      have ne : callback ≠ c := by simp only at hc; omega
      simp [Subscriber.send, fromCallback_snoc, ne, h.unused j old hold c hc]
    · intro c sent' hc
      rcases TreeMaps.of_insert hc with ⟨rfl, -⟩ | ⟨-, old⟩
      · exact below
      · exact h.numbered c sent' old

theorem snapshotEnd_inv {s : ServiceTmpl Msg} (h : Inv s) (callback : Nat) (ok : Bool)
    (orderly : Orderly s (.snapshotEnd callback ok)) : Inv (s.snapshotEnd callback ok) := by
  simp only [ServiceTmpl.snapshotEnd]
  split
  · exact h
  · rename_i sent hsent
    refine ⟨h.needSnapshot, ?_, ?_, ?_, ?_, ?_⟩
    iterate 3 (intro j sub hj; simp [ServiceInner.swapNewSubscribes] at hj)
    · intro c sent' hc
      exact h.numbered c sent' (TreeMaps.of_erase hc).2
    · intro j sub hj
      simp only [ServiceInner.swapNewSubscribes, Std.ExtTreeMap.getElem?_union,
        Option.or_eq_some_iff] at hj
      rcases hj with hj | ⟨-, hj⟩
      · have returned : ok = true := by
          rcases orderly with ok | gone | empty
          · exact ok
          · simp [hsent] at gone
          · rw [Std.ExtTreeMap.isEmpty_iff] at empty
            simp [empty] at hj
        refine ⟨(callback, sent), by simp [returned], ?_⟩
        rw [beforeShared_of_none (h.unshared j sub hj)]
        exact h.follows j sub hj callback sent hsent
      · obtain ⟨c, hc, same⟩ := h.promoted j sub hj
        refine ⟨c, ?_, same⟩
        split <;> simp [hc]

theorem step_inv (s : ServiceTmpl Msg) (e : Event Msg) (h : Inv s) (ok : Orderly s e) :
    Inv (s.step e) := by
  cases e with
  | subscribe id => exact subscribe_inv h id ok
  | unsubscribe id => exact unsubscribe_inv h id
  | sendShared msg => exact sendWhere_inv h _ msg
  | sendTo msg id => exact sendWhere_inv h _ msg
  | sendToOthers msg id => exact sendWhere_inv h _ msg
  | snapshotBegin => exact snapshotBegin_inv h
  | snapshotSend c msg => exact snapshotSend_inv h c msg
  | snapshotEnd c ok' => exact snapshotEnd_inv h c ok' ok

/-- **Whole snapshot first.** No id is ever both parked and promoted, and in
every run in which no subscriber arrives after a running callback has begun to
send, and no callback fails while a subscriber is parked, every promoted
subscriber has a whole snapshot in front of the messages of the service. -/
theorem snapshot_first (es : List (Event Msg)) :
    (∀ id : Int, ¬ (((run step (new true) es).subscribes[id]?).isSome ∧
      ((run step (new true) es).newSubscribes[id]?).isSome)) ∧
    (Along step Orderly (new true) es → ∀ (id : Int) sub,
      (run step (new true) es).subscribes[id]? = some sub →
        Snapshotted (run step (new true) es) sub) := by
  constructor
  · have apart : Apart (run step (new true) es) := by
      refine @Runs.invariant _ _ _ (fun _ _ => True) _ (fun s e h _ => step_apart s e h) _ _ ?_ ?_
      · exact ⟨rfl, by simp [ServiceTmpl.new]⟩
      · exact along_true _ _
    rintro id ⟨promoted, parked⟩
    simp [apart.disjoint id promoted] at parked
  · intro ok
    exact (Runs.invariant step_inv new_inv ok).promoted

theorem snapshot_first_two_subscribers :
    Snapshotted (run step (new true)
      [.subscribe 1, .subscribe 2, .snapshotBegin, .snapshotSend 0 7, .snapshotSend 0 8,
        .snapshotEnd 0 true, .sendShared 9]) (⟨[.snapshot 0 7, .snapshot 0 8, .shared 9]⟩ :
          Subscriber Nat) :=
  (snapshot_first _).2 (by decide +kernel) 2 _ (by decide +kernel)

/-- A subscriber that arrives after the first message of the callback is
promoted by its drop without that message. -/
theorem late_subscriber_promoted :
    ¬ ∀ (es : List (Event Nat)) (id : Int) (sub : Subscriber Nat),
      (run step (new true) es).subscribes[id]? = some sub →
        Snapshotted (run step (new true) es) sub := by
  intro h
  have := h [.subscribe 1, .snapshotBegin, .snapshotSend 0 7, .subscribe 2, .snapshotEnd 0 true]
    2 {} (by decide +kernel)
  revert this
  decide +kernel

end CamelliaRemote.Service
