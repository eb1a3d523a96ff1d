import CamelliaRemote.Client.Grab
import CamelliaRemote.Client.KeyEvents

/-!
Keys are released where they were pressed, `src/keyboard.rs` on Linux. `process_event` sends a
captured key to the current session and notes it in `TO_RELEASE`, which does not say for which
session. Releasing the grab takes the table, and its keys are released after the locks are
dropped, in whatever session is current then. A handover takes nothing.
-/

namespace CamelliaRemote.Client
open Runs

/-- `release_remote_keys_for_events` on its way: the keys it has yet to come to, and the
key stroke that follows the release of an Alt key, with whether it is pressed already. -/
structure Flush where
  mode : KeyboardMode
  keys : List KeyboardEvent
  stroke : Option (KeyboardEvent × Bool) := none

/-- A key event, the session it was sent to and the key it is about. -/
structure Sent where
  session : Nat
  key : RdevKey
  evt : KeyEvent

structure Keyboard where
  grab : Grab := {}
  /-- The session of `CUR_SESSION_ID`, if there is one. -/
  current : Option Nat := none
  modifiersState : ModifiersState := []
  /-- The events of `TO_RELEASE`; no two are of one key. -/
  toRelease : List KeyboardEvent := []
  flushes : List Flush := []
  sent : List Sent := []
  /-- Who has owned the grab so far. -/
  owners : List Nat := []

/-- What the keyboard code finds on this machine. -/
structure Desktop where
  layout : Layout
  rdevEnabled : Bool
  peerPlatform : Nat → String

inductive KeyboardStep where
  | grab (e : GrabEvent)
  | setCurSession (session : Option Nat)
  | captured (event : KeyboardEvent) (mode : KeyboardMode) (states : KeyStates)
  /-- The flush with this number goes on, with this key if it comes to a new one. -/
  | releaseRemoteKey (flush : Nat) (key : RdevKey) (states : KeyStates)

/-- The grab step releases the grab, for a call with this mode. -/
def Grab.releases (g : Grab) (rdevEnabled : Bool) : GrabEvent → Option KeyboardMode
  | .changeGrabStatus .wait mode session now =>
    if rdevEnabled ∧ g.state.owner = some session ∧ g.debounced now = false then some mode
    else none
  | .deferredRelease thread now =>
    if (thread ∈ g.deferred ∧ thread.due ≤ now) ∧ g.fires thread then some thread.mode else none
  | _ => none

namespace Keyboard
variable (d : Desktop) (s : Keyboard)

def isLongPress (event : KeyboardEvent) : Bool := event.press && event.key ∈ s.modifiersState

def updateModifiersState (event : KeyboardEvent) : ModifiersState :=
  if isModifier event.key then
    s.modifiersState.filter (· ≠ event.key) ++ if event.press then [event.key] else []
  else s.modifiersState

def updateToRelease (event : KeyboardEvent) : List KeyboardEvent :=
  s.toRelease.filter (·.key ≠ event.key) ++ if event.press then [event] else []

/-- `get_peer_platform`. -/
def peerPlatform : String :=
  match s.current with
  | some session => d.peerPlatform session
  | none => "Windows"

/-- The key events that `process_event` sends. -/
def eventToKeyEvents (mode : KeyboardMode) (states : KeyStates) (event : KeyboardEvent) :
    List KeyEvent :=
  let t := keyEvents d.layout (s.updateModifiersState event) states (s.peerPlatform d) mode event
  t.atOnce ++ t.events

/-- `send_key_event` of each. -/
def sendKeyEvents (key : RdevKey) (evts : List KeyEvent) : List Sent :=
  match s.current with
  | some session => evts.map (⟨session, key, ·⟩)
  | none => []

def processEvent (mode : KeyboardMode) (states : KeyStates) (event : KeyboardEvent) : Keyboard :=
  if s.isLongPress event then s
  else
    { s with
      modifiersState := s.updateModifiersState event
      toRelease := s.updateToRelease event
      sent := s.sent ++ s.sendKeyEvents event.key (s.eventToKeyEvents d mode states event) }

end Keyboard

def isAlt (key : RdevKey) : Bool := key = .alt || key = .altGr

/-- The next event of a flush, and what is left of it. -/
def Flush.next (f : Flush) (key : RdevKey) : Option (KeyboardEvent × Flush) :=
  match f.stroke with
  | some (event, false) => some ({ event with press := true }, { f with stroke := (event, true) })
  | some (event, true) => some ({ event with press := false }, { f with stroke := none })
  | none =>
    (f.keys.find? (·.key = key)).map fun event =>
      ({ event with press := false },
        { f with
          keys := f.keys.filter (·.key ≠ event.key)
          stroke := if isAlt event.key then some (event, false) else none })

def Flush.done (f : Flush) : Bool := f.keys.isEmpty && f.stroke.isNone

namespace Keyboard
variable (d : Desktop) (s : Keyboard)

/-- `take_remote_keys`, for a flush in this mode. -/
def takeRemoteKeys (mode : KeyboardMode) : Keyboard :=
  { s with
    toRelease := []
    flushes := s.flushes ++ if s.toRelease.isEmpty then [] else [⟨mode, s.toRelease, none⟩] }

def stepGrab (e : GrabEvent) : Keyboard :=
  let taken :=
    match s.grab.releases d.rdevEnabled e with
    | some mode => s.takeRemoteKeys mode
    | none => s
  let g := s.grab.step d.rdevEnabled e
  { taken with grab := g, owners := s.owners ++ g.state.owner.toList }

/-- What the flush sends next and in which mode, and the flushes that are left. -/
def nextFlush (flush : Nat) (key : RdevKey) :
    Option (KeyboardMode × KeyboardEvent × List Flush) :=
  match s.flushes[flush]? with
  | none => none
  | some f =>
    (f.next key).map fun (event, f') =>
      (f.mode, event,
        if f'.done then s.flushes.eraseIdx flush else s.flushes.set flush f')

def step : KeyboardStep → Keyboard
  | .grab e => s.stepGrab d e
  | .setCurSession session => { s with current := session }
  | .captured event mode states => s.processEvent d mode states event
  | .releaseRemoteKey flush key states =>
    match s.nextFlush flush key with
    | none => s
    | some (mode, event, flushes) => { s with flushes }.processEvent d mode states event

abbrev after (es : List KeyboardStep) : Keyboard := Runs.run (Keyboard.step d) {} es

/-- The last key event about the key that was sent to the session. -/
def lastSent (session : Nat) (key : RdevKey) : Option KeyEvent :=
  (s.sent.filterMap fun x =>
    if x.session = session ∧ x.key = key then some x.evt else none).getLast?

/-- It was a press. -/
def Holds (session : Nat) (key : RdevKey) : Prop :=
  ∃ evt, s.lastSent session key = some evt ∧ evt.down = true

/-- No step is pending. -/
structure Settled : Prop where
  ops : s.grab.ops = []
  holder : s.grab.holder = none
  flushes : s.flushes = []

/-- The session has owned the grab and does not any more. -/
def Lost (session : Nat) : Prop := session ∈ s.owners ∧ s.grab.state.owner ≠ some session

end Keyboard

/-- The flush comes to a release of the key. -/
def Flush.owes (f : Flush) (key : RdevKey) : Bool :=
  f.keys.any (·.key = key) || f.stroke.any (·.1.key = key)

def Owed (flushes : List Flush) (key : RdevKey) : Prop := ∃ f ∈ flushes, f.owes key = true

/-- **Keys are released where they were pressed.** At the end of the run, a session that
owned the grab at some time and does not any more has no key but a lock key down. -/
def ReleasedWherePressed (d : Desktop) (es : List KeyboardStep) : Prop :=
  ∀ before rest session key, es = before ++ rest →
    (Keyboard.after d before).grab.state.owner = some session →
    (Keyboard.after d es).grab.state.owner ≠ some session → (Keyboard.after d es).Settled →
    isLockKey key = false → ¬ (Keyboard.after d es).Holds session key

namespace Keyboard
variable (d : Desktop) (s : Keyboard)

/-- What `process_event` sends to the session last. -/
def lastProcessed (mode : KeyboardMode) (states : KeyStates) (event : KeyboardEvent)
    (session : Nat) : Option KeyEvent :=
  if s.current = some session ∧ s.isLongPress event = false then
    (s.eventToKeyEvents d mode states event).getLast?
  else none

def Presses (mode : KeyboardMode) (states : KeyStates) (event : KeyboardEvent)
    (session : Nat) : Prop :=
  ∃ evt, s.lastProcessed d mode states event session = some evt ∧ evt.down = true

def Releases (mode : KeyboardMode) (states : KeyStates) (event : KeyboardEvent)
    (session : Nat) : Prop :=
  ∃ evt, s.lastProcessed d mode states event session = some evt ∧ evt.down = false

/-- What the owner has down is owed by a flush, or is among `keys`. -/
def OwnerLeaves (keys : List KeyboardEvent) (owner : Nat) : Prop :=
  ∀ key, isLockKey key = false → s.Holds owner key →
    Owed s.flushes key ∨ ∃ event ∈ keys, event.key = key

/-- The step leaves no key behind: a handover finds no key down in the owner, a release of
the grab finds those that are down in `TO_RELEASE`, no press goes to a session that has
lost the grab, and the last release of a flush goes to the sessions that have lost the grab
with the key down. -/
def LeavesNoKey : KeyboardStep → Prop
  | .grab e =>
    (∀ owner, s.grab.state.owner = some owner → (s.grab.releases d.rdevEnabled e).isSome →
      s.OwnerLeaves s.toRelease owner) ∧
    ∀ owner mode session now, e = .changeGrabStatus .run mode session now →
      s.grab.state.owner = some owner → owner ≠ session → s.OwnerLeaves [] owner
  | .setCurSession _ => True
  | .captured event mode states =>
    isLockKey event.key = false → ∀ session, s.Lost session →
      ¬ s.Presses d mode states event session
  | .releaseRemoteKey flush key states =>
    ∀ mode event flushes, s.nextFlush flush key = some (mode, event, flushes) →
      isLockKey event.key = false → ¬ Owed flushes event.key → ∀ session, s.Lost session →
        ¬ s.Presses d mode states event session ∧
          (s.Holds session event.key → s.Releases d mode states event session)

end Keyboard

theorem filterMap_sent (session key) (evts : List KeyEvent) (session' : Nat) (key' : RdevKey) :
    (evts.map (⟨session, key, ·⟩ : KeyEvent → Sent)).filterMap
        (fun x => if x.session = session' ∧ x.key = key' then some x.evt else none) =
      if session = session' ∧ key = key' then evts else [] := by
  rw [List.filterMap_map]
  change evts.filterMap (fun evt => if session = session' ∧ key = key' then some evt else none) = _
  split
  · simp
  · simp

namespace Keyboard
variable {d : Desktop} {s : Keyboard}

theorem lastSent_processEvent (mode : KeyboardMode) (states : KeyStates) (event : KeyboardEvent)
    (session : Nat) (key : RdevKey) :
    (s.processEvent d mode states event).lastSent session key =
      if event.key = key then
        (s.lastProcessed d mode states event session).or (s.lastSent session key)
      else s.lastSent session key := by
  unfold processEvent lastProcessed
  cases long : s.isLongPress event with
  | true => simp
  | false =>
    simp only [Bool.false_eq_true, if_false, lastSent, List.filterMap_append,
      List.getLast?_append, sendKeyEvents, and_true]
    cases current : s.current with
    | none => simp
    | some session' =>
      rw [filterMap_sent]
      by_cases same : event.key = key
      · by_cases here : session' = session <;> simp [same, here]
      · simp [same]

theorem holds_processEvent {mode : KeyboardMode} {states : KeyStates} {event : KeyboardEvent}
    {session : Nat} {key : RdevKey}
    (holds : (s.processEvent d mode states event).Holds session key) :
    event.key = key ∧ s.Presses d mode states event session ∨
      s.Holds session key ∧ (event.key = key → ¬ s.Releases d mode states event session) := by
  obtain ⟨evt, last, down⟩ := holds
  rw [lastSent_processEvent] at last
  split at last <;> rename_i same
  · cases processed : s.lastProcessed d mode states event session with
    | some evt' =>
      rw [processed, Option.some_or] at last
      cases last
      exact .inl ⟨same, evt, processed, down⟩
    | none =>
      rw [processed, Option.none_or] at last
      refine .inr ⟨⟨evt, last, down⟩, fun _ => ?_⟩
      rintro ⟨evt', processed', -⟩
      exact nomatch processed.symm.trans processed'
  · exact .inr ⟨⟨evt, last, down⟩, fun same' => absurd same' same⟩

theorem processEvent_frame (mode : KeyboardMode) (states : KeyStates) (event : KeyboardEvent) :
    (s.processEvent d mode states event).grab = s.grab ∧
      (s.processEvent d mode states event).owners = s.owners ∧
      (s.processEvent d mode states event).flushes = s.flushes := by
  unfold processEvent
  split <;> exact ⟨rfl, rfl, rfl⟩

end Keyboard

theorem Owed.append_left {flushes flushes' : List Flush} {key : RdevKey}
    (owed : Owed flushes key) : Owed (flushes ++ flushes') key := by
  obtain ⟨f, mem, owes⟩ := owed
  exact ⟨f, List.mem_append_left _ mem, owes⟩

theorem Flush.not_done_of_owes {f : Flush} {key : RdevKey} (owes : f.owes key = true) :
    f.done = false := by
  unfold Flush.owes at owes
  unfold Flush.done
  cases keys : f.keys with
  | cons => rfl
  | nil =>
    cases stroke : f.stroke with
    | some => rfl
    | none => simp [keys, stroke] at owes

/-- A flush still owes all keys but the one it has sent. -/
theorem Flush.owes_next {f f' : Flush} {key key' : RdevKey} {event : KeyboardEvent}
    (next : f.next key = some (event, f')) (owes : f.owes key' = true)
    (other : event.key ≠ key') : f'.owes key' = true := by
  unfold Flush.next at next
  split at next
  · cases next
    simpa [Flush.owes, *] using owes
  · cases next
    simp_all [Flush.owes]
  · rename_i stroke
    rw [Option.map_eq_some_iff] at next
    obtain ⟨found, -, eq⟩ := next
    cases eq
    simp only [Flush.owes, stroke, Option.any_none, Bool.or_false, List.any_eq_true,
      decide_eq_true_eq] at owes
    obtain ⟨event, mem, rfl⟩ := owes
    have kept : event ∈ f.keys.filter (·.key ≠ found.key) := by
      simpa [mem] using Ne.symm other
    simp only [Flush.owes, Bool.or_eq_true, List.any_eq_true]
    exact .inl ⟨event, kept, by simp⟩

theorem Keyboard.owed_nextFlush {s : Keyboard} {flush : Nat} {key key' : RdevKey}
    {mode : KeyboardMode} {event : KeyboardEvent} {flushes : List Flush}
    (next : s.nextFlush flush key = some (mode, event, flushes)) (owed : Owed s.flushes key')
    (other : event.key ≠ key') : Owed flushes key' := by
  unfold Keyboard.nextFlush at next
  split at next
  · exact nomatch next
  rename_i f at'
  rw [Option.map_eq_some_iff] at next
  obtain ⟨⟨event', f'⟩, next, eq⟩ := next
  cases eq
  obtain ⟨g, mem, owes⟩ := owed
  obtain ⟨i, bound, rfl⟩ := List.getElem_of_mem mem
  by_cases same : i = flush
  · subst same
    have found : s.flushes[i] = f := by simpa [bound] using at'
    rw [found] at owes
    have owes' := Flush.owes_next next owes other
    rw [if_neg (by simp [Flush.not_done_of_owes owes'])]
    exact ⟨f', List.mem_set bound f', owes'⟩
  · split
    · exact ⟨_, (List.mem_eraseIdx_iff_getElem.mpr ⟨i, bound, same, rfl⟩), owes⟩
    · refine ⟨s.flushes[i], ?_, owes⟩
      rw [List.mem_iff_getElem]
      exact ⟨i, by simpa using bound, by simp [Ne.symm same]⟩

theorem Grab.schedule_owner {g : Grab} (mode : KeyboardMode) (session : Nat) (now : Instant) :
    (g.schedule mode session now).state.owner = g.state.owner := by
  unfold Grab.schedule
  split <;> rfl

/-- An owner loses the grab by a release or to the `Run` of another session. -/
theorem Grab.owner_loses {g : Grab} {rdevEnabled : Bool} {e : GrabEvent} {owner : Nat}
    (had : g.state.owner = some owner)
    (lost : (g.step rdevEnabled e).state.owner ≠ some owner) :
    (g.releases rdevEnabled e).isSome = true ∨
      ∃ mode session now, e = .changeGrabStatus .run mode session now ∧ owner ≠ session := by
  cases e with
  | changeGrabStatus state mode session now =>
    cases state with
    | ready | exit => exact absurd had lost
    | run =>
      refine .inr ⟨mode, session, now, rfl, ?_⟩
      rintro rfl
      simp only [Grab.step, Grab.run, had, if_true] at lost
      split at lost
      · exact lost rfl
      · exact lost had
    | wait =>
      simp only [Grab.step] at lost
      split at lost <;> rename_i enabled
      · unfold Grab.wait at lost
        split at lost
        · exact absurd had lost
        rename_i owned
        split at lost <;> rename_i young
        · exact absurd ((Grab.schedule_owner _ _ _).trans had) lost
        · have owned := not_not.mp owned
          simp [Grab.releases, enabled, owned, young]
      · exact absurd had lost
  | deferredRelease thread now =>
    simp only [Grab.step] at lost
    split at lost <;> rename_i awake
    · simp only [Grab.deferredRelease] at lost
      split at lost <;> rename_i fires
      · simp [Grab.releases, awake, fires]
      · exact absurd had lost
    · exact absurd had lost
  | lockOp op =>
    simp only [Grab.step] at lost
    split at lost
    · rw [Grab.lockOp, (Grab.hold_state op _).1] at lost
      exact absurd had lost
    · exact absurd had lost
  | callRdev =>
    simp only [Grab.step, Grab.callRdev] at lost
    split at lost
    · rw [(Grab.hold_state _ _).1] at lost
      exact absurd had lost
    · exact absurd had lost

namespace Keyboard
variable {d : Desktop} {s : Keyboard}

/-- A key that is down in a session that has lost the grab is owed by a flush. -/
def NoneBehind (s : Keyboard) : Prop :=
  ∀ session key, isLockKey key = false → s.Holds session key → s.Lost session →
    Owed s.flushes key

theorem owed_stepGrab {e : GrabEvent} {key : RdevKey} (owed : Owed s.flushes key) :
    Owed (s.stepGrab d e).flushes key := by
  simp only [stepGrab]
  split
  · exact owed.append_left
  · exact owed

/-- A release of the grab owes what was in `TO_RELEASE`. -/
theorem owed_of_toRelease {e : GrabEvent} {event : KeyboardEvent}
    (released : (s.grab.releases d.rdevEnabled e).isSome = true) (mem : event ∈ s.toRelease) :
    Owed (s.stepGrab d e).flushes event.key := by
  obtain ⟨mode, eq⟩ := Option.isSome_iff_exists.mp released
  simp only [stepGrab, eq, takeRemoteKeys]
  have some : s.toRelease.isEmpty = false := by
    cases keys : s.toRelease with
    | nil => simp [keys] at mem
    | cons => rfl
  refine ⟨⟨mode, s.toRelease, none⟩, ?_, ?_⟩
  · simp [some]
  · simp only [Flush.owes, Option.any_none, Bool.or_false, List.any_eq_true]
    exact ⟨event, mem, by simp⟩

theorem stepGrab_owner (e : GrabEvent) :
    (s.stepGrab d e).grab.state.owner = (s.grab.step d.rdevEnabled e).state.owner := rfl

theorem holds_stepGrab {e : GrabEvent} {session : Nat} {key : RdevKey} :
    (s.stepGrab d e).Holds session key ↔ s.Holds session key := by
  have same : (s.stepGrab d e).sent = s.sent := by
    simp only [stepGrab]
    split <;> rfl
  simp only [Holds, lastSent, same]

theorem NoneBehind.stepGrab (behind : s.NoneBehind) (e : GrabEvent)
    (leaves : s.LeavesNoKey d (.grab e)) : (s.stepGrab d e).NoneBehind := by
  intro session key unlocked holds lost
  rw [holds_stepGrab] at holds
  obtain ⟨owned, gone⟩ := lost
  have before : session ∈ s.owners := by
    rcases List.mem_append.mp owned with old | new
    · exact old
    · exact absurd (by simpa [stepGrab_owner] using new) gone
  by_cases had : s.grab.state.owner = some session
  · rcases Grab.owner_loses had gone with released | ⟨mode, other, now, rfl, ne⟩
    · rcases leaves.1 session had released key unlocked holds with owed | ⟨event, mem, rfl⟩
      · exact owed_stepGrab owed
      · exact owed_of_toRelease released mem
    · rcases leaves.2 session mode other now rfl had ne key unlocked holds with owed | ⟨_, mem, -⟩
      · exact owed_stepGrab owed
      · exact nomatch mem
  · exact owed_stepGrab (behind session key unlocked holds ⟨before, had⟩)

theorem NoneBehind.captured (behind : s.NoneBehind) (event : KeyboardEvent)
    (mode : KeyboardMode) (states : KeyStates)
    (leaves : s.LeavesNoKey d (.captured event mode states)) :
    (s.processEvent d mode states event).NoneBehind := by
  intro session key unlocked holds lost
  obtain ⟨grab, owners, flushes⟩ := processEvent_frame (d := d) (s := s) mode states event
  have lost : s.Lost session := by simpa [Lost, grab, owners] using lost
  rw [flushes]
  rcases holds_processEvent holds with ⟨rfl, presses⟩ | ⟨holds, -⟩
  · exact absurd presses (leaves unlocked session lost)
  · exact behind session key unlocked holds lost

theorem NoneBehind.releaseRemoteKey (behind : s.NoneBehind) (flush : Nat) (key : RdevKey)
    (states : KeyStates) (leaves : s.LeavesNoKey d (.releaseRemoteKey flush key states)) :
    (s.step d (.releaseRemoteKey flush key states)).NoneBehind := by
  simp only [step]
  split
  · exact behind
  rename_i mode event flushes next
  intro session key' unlocked holds lost
  obtain ⟨grab, owners, same⟩ := processEvent_frame (d := d) (s := { s with flushes }) mode states
    event
  have lost : s.Lost session := by simpa [Lost, grab, owners] using lost
  rw [same]
  by_contra unpaid
  rcases holds_processEvent holds with ⟨rfl, presses⟩ | ⟨holds, unreleased⟩
  · exact (leaves mode event flushes next unlocked unpaid session lost).1 presses
  · by_cases about : event.key = key'
    · subst about
      exact unreleased rfl ((leaves mode event flushes next unlocked unpaid session lost).2 holds)
    · exact unpaid (owed_nextFlush next (behind session key' unlocked holds lost) about)

theorem NoneBehind.step (s : Keyboard) (e : KeyboardStep) (behind : s.NoneBehind)
    (leaves : s.LeavesNoKey d e) : (s.step d e).NoneBehind := by
  cases e with
  | grab e => exact behind.stepGrab e leaves
  | setCurSession session => exact behind
  | captured event mode states => exact behind.captured event mode states leaves
  | releaseRemoteKey flush key states => exact behind.releaseRemoteKey flush key states leaves

/-- Who owns the grab is among those who have. -/
theorem owner_step (s : Keyboard) (e : KeyboardStep)
    (noted : ∀ session, s.grab.state.owner = some session → session ∈ s.owners) :
    s.owners ⊆ (s.step d e).owners ∧
      ∀ session, (s.step d e).grab.state.owner = some session → session ∈ (s.step d e).owners := by
  cases e with
  | grab e =>
    simp only [Keyboard.step, Keyboard.stepGrab]
    exact ⟨List.subset_append_left _ _,
      fun session owner => List.mem_append_right _ (by simp [owner])⟩
  | setCurSession session => exact ⟨List.Subset.refl _, noted⟩
  | captured event mode states =>
    obtain ⟨grab, owners, -⟩ := processEvent_frame (d := d) (s := s) mode states event
    simp only [Keyboard.step, grab, owners]
    exact ⟨List.Subset.refl _, noted⟩
  | releaseRemoteKey flush key states =>
    simp only [Keyboard.step]
    split
    · exact ⟨List.Subset.refl _, noted⟩
    · rename_i mode event flushes _
      obtain ⟨grab, owners, -⟩ := processEvent_frame (d := d) (s := { s with flushes }) mode states
        event
      rw [grab, owners]
      exact ⟨List.Subset.refl _, noted⟩

theorem owners_run (s : Keyboard) (es : List KeyboardStep)
    (noted : ∀ session, s.grab.state.owner = some session → session ∈ s.owners) :
    s.owners ⊆ (Runs.run (Keyboard.step d) s es).owners ∧
      ∀ session, (Runs.run (Keyboard.step d) s es).grab.state.owner = some session →
        session ∈ (Runs.run (Keyboard.step d) s es).owners := by
  induction es generalizing s with
  | nil => exact ⟨List.Subset.refl _, noted⟩
  | cons e es ih =>
    obtain ⟨more, noted'⟩ := owner_step (d := d) s e noted
    obtain ⟨rest, last⟩ := ih (s.step d e) noted'
    exact ⟨List.Subset.trans more rest, last⟩

theorem mem_owners {before rest : List KeyboardStep} {session : Nat}
    (owner : (after d before).grab.state.owner = some session) :
    session ∈ (after d (before ++ rest)).owners := by
  obtain ⟨-, noted⟩ := owners_run (d := d) {} before nofun
  obtain ⟨more, -⟩ := owners_run (d := d) (after d before) rest noted
  rw [after, Runs.run_append]
  exact more (noted session owner)

end Keyboard

/-- **When no key is left behind.** In every run whose steps all leave no key behind, a
session that has lost the grab has no key down once nothing is pending. -/
theorem keys_released_where_pressed (d : Desktop) (es : List KeyboardStep)
    (leaves : Runs.Along (Keyboard.step d) (fun s e => s.LeavesNoKey d e) {} es) :
    ReleasedWherePressed d es := by
  rintro before rest session key rfl owner gone settled unlocked holds
  have behind : (Keyboard.after d (before ++ rest)).NoneBehind :=
    Runs.invariant (fun _ _ => Keyboard.NoneBehind.step _ _)
      (fun _ _ _ _ lost => nomatch lost.1) leaves
  have lost := behind session key unlocked holds ⟨Keyboard.mem_owners owner, gone⟩
  rw [settled.flushes] at lost
  obtain ⟨f, mem, -⟩ := lost
  exact nomatch mem

/-- Two Linux peers. -/
def sampleDesktop : Desktop where
  layout := ⟨fun _ => none, fun _ => none, fun _ => none, fun _ => none, false⟩
  rdevEnabled := true
  peerPlatform := fun _ => "Linux"

def pressA : KeyboardEvent := { key := .key 0, press := true, positionCode := 38 }

/-- The first session gets the grab and the press of a key. -/
def pressInFirst : List KeyboardStep :=
  [.setCurSession (some 1), .grab (.changeGrabStatus .run .map 1 1000000),
    .grab (.lockOp (.applyRunGrabIfOwner 1 false)), .grab .callRdev, .captured pressA .map {}]

/-- Then the pointer leaves it, and the grab is released. -/
def leaveFirst : List KeyboardStep :=
  pressInFirst ++
    [KeyboardStep.grab (.changeGrabStatus .wait .map 1 401000000),
      .grab (.lockOp .disableGrabIfReleased), .grab .callRdev,
      .releaseRemoteKey 0 (.key 0) {}]

/-- A grab step that releases nothing and is no `Run` of another session. -/
theorem leavesNoKey_grab {d : Desktop} {s : Keyboard} {e : GrabEvent}
    (kept : s.grab.releases d.rdevEnabled e = none)
    (other : ∀ owner mode session now, e = .changeGrabStatus .run mode session now →
      s.grab.state.owner = some owner → owner = session) : s.LeavesNoKey d (.grab e) := by
  constructor
  · intro owner _ released
    rw [kept] at released
    exact nomatch released
  · intro owner mode session now run had ne
    exact absurd (other owner mode session now run had) ne

/-- The flush releases the key in the first session. -/
theorem keys_released_where_pressed_leave : ReleasedWherePressed sampleDesktop leaveFirst := by
  apply keys_released_where_pressed
  refine ⟨trivial, leavesNoKey_grab rfl nofun, leavesNoKey_grab rfl nofun,
    leavesNoKey_grab rfl nofun, ?_, ⟨?_, nofun⟩, leavesNoKey_grab rfl nofun,
    leavesNoKey_grab rfl nofun, ?_, trivial⟩
  · rintro - session ⟨owned, gone⟩
    have owned : session ∈ [1, 1, 1] := owned
    have first : session = 1 := by simpa using owned
    subst first
    exact absurd rfl gone
  · intro owner had _ key _ holds
    obtain ⟨evt, last, -⟩ := holds
    obtain ⟨x, mem, sent⟩ := List.mem_filterMap.mp (List.mem_of_getLast? last)
    cases List.mem_singleton.mp mem
    simp only [Option.ite_none_right_eq_some] at sent
    exact .inr ⟨pressA, List.mem_cons_self, sent.1.2⟩
  · intro mode event flushes next _ _ session lost
    cases next
    have owned : session ∈ [1, 1, 1] := lost.1
    have first : session = 1 := by simpa using owned
    subst first
    refine ⟨?_, fun _ => ⟨_, rfl, rfl⟩⟩
    rintro ⟨evt, processed, down⟩
    cases processed
    exact nomatch down

/-- Then the second one enters. -/
def handOver : List KeyboardStep :=
  pressInFirst ++
    [KeyboardStep.setCurSession (some 2), .grab (.changeGrabStatus .run .map 2 2000000),
      .grab (.lockOp (.applyRunGrabIfOwner 2 true)), .grab .callRdev, .grab .callRdev]

/-- The key stays down in the first session. -/
theorem handover_leaves_key_down : ¬ ReleasedWherePressed sampleDesktop handOver := by
  intro released
  refine released (handOver.take 2) (handOver.drop 2) 1 (.key 0) rfl rfl (by decide)
    ⟨rfl, rfl, rfl⟩ rfl ?_
  exact ⟨_, rfl, rfl⟩

end CamelliaRemote.Client
