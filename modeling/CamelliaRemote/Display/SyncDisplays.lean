import CamelliaRemote.Lib.Runs

/-!
The display list that is announced, `src/server/display_service.rs`. `SYNC_DISPLAYS` is behind a
lock, `TEMP_IGNORE_DISPLAYS_CHANGED` is an atomic flag that guards set and clear. A change that
comes while the flag is set is not announced when it comes. `changes_announced` says that it is
announced nevertheless, when the guards are gone.
-/

namespace CamelliaRemote.Display

structure SyncDisplaysInfo (α : Type) where
  displays : List α := []
  isSynced : Bool := false

/-- Where a guard is: its `drop` sleeps, clears the flag, and then takes the lock. -/
inductive Guard where
  | held
  | cleared
  | dropped
  deriving DecidableEq

structure DisplayService (α : Type) where
  syncDisplays : SyncDisplaysInfo α := {}
  tempIgnoreDisplaysChanged : Bool := false
  guards : List Guard := []
  /-- The snapshots that have found the flag clear and wait for the lock. -/
  snapshots : Nat := 0
  /-- `check_changed` has set the displays, holds the lock and comes to read the flag. -/
  changing : Bool := false
  /-- What `get_update_sync_displays` gave last. -/
  taken : Option (List α) := none

inductive DisplayEvent (α : Type) where
  /-- `check_changed` up to the flag, and from it. -/
  | setDisplays (displays : List α)
  | readFlag
  /-- `temp_ignore_displays_changed`. -/
  | tempIgnore
  | clearFlag (guard : Nat)
  | resync (guard : Nat)
  /-- The closure of the snapshot in `run` up to the lock, and from it. -/
  | snapshot (hasSubscribes : Bool)
  | newSubscriber
  | getDisplaysMsg

namespace DisplayService

variable {α : Type} (s : DisplayService α)

def setSynced (isSynced : Bool) : DisplayService α :=
  { s with syncDisplays := { s.syncDisplays with isSynced } }

/-- A step that needs the lock waits while it is held. -/
def locked (body : DisplayService α) : DisplayService α := if s.changing then s else body

def setDisplays [BEq α] (s : DisplayService α) (displays : List α) : DisplayService α :=
  if s.syncDisplays.displays == displays then s
  else { s with syncDisplays := { s.syncDisplays with displays }, changing := true }

def readFlag : DisplayService α :=
  if s.changing then
    let s := { s with changing := false }
    if s.tempIgnoreDisplaysChanged then s else s.setSynced false
  else s

def getUpdateSyncDisplays : DisplayService α :=
  if s.syncDisplays.isSynced then s
  else { s.setSynced true with taken := some s.syncDisplays.displays }

def tempIgnore : DisplayService α :=
  { s with tempIgnoreDisplaysChanged := true, guards := s.guards ++ [Guard.held] }

def clearFlag (guard : Nat) : DisplayService α :=
  if s.guards[guard]? = some .held then
    { s with tempIgnoreDisplaysChanged := false, guards := s.guards.set guard .cleared }
  else s

def resync (guard : Nat) : DisplayService α :=
  if s.guards[guard]? = some .cleared then
    { s.setSynced false with guards := s.guards.set guard .dropped }
  else s

def snapshot (hasSubscribes : Bool) : DisplayService α :=
  if !s.tempIgnoreDisplaysChanged && hasSubscribes then { s with snapshots := s.snapshots + 1 }
  else s

def newSubscriber : DisplayService α :=
  if s.snapshots = 0 then s else { s.setSynced false with snapshots := s.snapshots - 1 }

def step [BEq α] (s : DisplayService α) : DisplayEvent α → DisplayService α
  | .setDisplays displays => s.locked (s.setDisplays displays)
  | .readFlag => s.readFlag
  | .tempIgnore => s.tempIgnore
  | .clearFlag guard => s.clearFlag guard
  | .resync guard => s.locked (s.resync guard)
  | .snapshot hasSubscribes => s.snapshot hasSubscribes
  | .newSubscriber => s.locked s.newSubscriber
  | .getDisplaysMsg => s.locked s.getUpdateSyncDisplays

/-- A guard that has not come to the end of its `drop`. -/
def GuardAlive : Prop := ∃ guard ∈ s.guards, guard ≠ .dropped

/-- The list that was taken last is the current one. -/
def Announced : Prop := s.taken = some s.syncDisplays.displays

/-- The flag is set by a guard that is still to clear it; what is synced but not announced
waits for a guard, or for the flag. -/
structure Sound : Prop where
  flag : s.tempIgnoreDisplaysChanged = true → .held ∈ s.guards
  owed : s.syncDisplays.isSynced = true → s.Announced ∨ s.GuardAlive ∨ s.changing = true

variable {s}

theorem sound_new : Sound ({} : DisplayService α) := by
  constructor
  · intro set
    cases set
  · intro synced
    cases synced

theorem Sound.alive_of_flag (h : Sound s) (flag : s.tempIgnoreDisplaysChanged = true) :
    s.GuardAlive :=
  ⟨.held, h.flag flag, by decide⟩

/-- A step that ends in a list that is not synced owes nothing. -/
theorem Sound.unsynced {t : DisplayService α} (h : Sound s)
    (flag : t.tempIgnoreDisplaysChanged = s.tempIgnoreDisplaysChanged)
    (guards : .held ∈ s.guards → .held ∈ t.guards)
    (unsynced : t.syncDisplays.isSynced = false) : Sound t := by
  constructor
  · intro set
    exact guards (h.flag (flag ▸ set))
  · intro synced
    rw [unsynced] at synced
    cases synced

theorem sound_setDisplays [BEq α] (h : Sound s) (displays : List α) :
    Sound (s.setDisplays displays) := by
  unfold setDisplays
  split
  · exact h
  · exact ⟨h.flag, fun _ => .inr (.inr rfl)⟩

theorem sound_readFlag (h : Sound s) : Sound s.readFlag := by
  unfold readFlag
  split
  · simp only
    split
    · rename_i flag
      exact ⟨h.flag, fun _ => .inr (.inl (h.alive_of_flag flag))⟩
    · exact h.unsynced rfl id rfl
  · exact h

theorem sound_tempIgnore (s : DisplayService α) : Sound s.tempIgnore := by
  unfold tempIgnore
  constructor
  · intro _
    exact List.mem_append_right _ (List.mem_singleton_self _)
  · intro _
    exact .inr (.inl ⟨.held, List.mem_append_right _ (List.mem_singleton_self _), by decide⟩)

theorem sound_clearFlag (h : Sound s) (guard : Nat) : Sound (s.clearFlag guard) := by
  unfold clearFlag
  split
  · rename_i held
    constructor
    · intro set
      cases set
    · intro _
      refine .inr (.inl ⟨.cleared, ?_, by decide⟩)
      exact List.mem_set (List.getElem?_eq_some_iff.mp held).1 _
  · exact h

theorem sound_resync (h : Sound s) (guard : Nat) : Sound (s.resync guard) := by
  unfold resync
  split
  · rename_i cleared
    refine h.unsynced rfl (fun held => ?_) rfl
    obtain ⟨i, found⟩ := List.getElem?_of_mem held
    have other : guard ≠ i := by
      rintro rfl
      rw [cleared] at found
      cases found
    refine List.mem_of_getElem? (i := i) ?_
    rw [List.getElem?_set_ne other]
    exact found
  · exact h

theorem sound_newSubscriber (h : Sound s) : Sound s.newSubscriber := by
  unfold newSubscriber
  split
  · exact h
  · exact h.unsynced rfl id rfl

theorem sound_getUpdateSyncDisplays (h : Sound s) : Sound s.getUpdateSyncDisplays := by
  unfold getUpdateSyncDisplays
  split
  · exact h
  · exact ⟨h.flag, fun _ => .inl rfl⟩

theorem sound_locked {t : DisplayService α} (h : Sound s) (ht : Sound t) : Sound (s.locked t) := by
  unfold locked
  split
  · exact h
  · exact ht

theorem sound_step [BEq α] (h : Sound s) (e : DisplayEvent α) : Sound (s.step e) := by
  cases e with
  | setDisplays displays => exact sound_locked h (sound_setDisplays h displays)
  | readFlag => exact sound_readFlag h
  | tempIgnore => exact sound_tempIgnore s
  | clearFlag guard => exact sound_clearFlag h guard
  | resync guard => exact sound_locked h (sound_resync h guard)
  | snapshot hasSubscribes =>
    simp only [step, snapshot]
    split
    · exact ⟨h.flag, h.owed⟩
    · exact h
  | newSubscriber => exact sound_locked h (sound_newSubscriber h)
  | getDisplaysMsg => exact sound_locked h (sound_getUpdateSyncDisplays h)

end DisplayService

open DisplayService

theorem sound_run {α : Type} [BEq α] (events : List (DisplayEvent α)) :
    (Runs.run DisplayService.step {} events).Sound := by
  induction events using List.reverseRecOn with
  | nil => exact sound_new
  | append_singleton events e ih =>
    rw [Runs.run_append]
    exact sound_step ih e

/-- **No change of the displays is lost**: when no guard is alive and the list is synced,
the list that was taken last is the current one. -/
theorem changes_announced {α : Type} [BEq α] (events : List (DisplayEvent α))
    (free : (Runs.run DisplayService.step {} events).changing = false)
    (gone : ¬ (Runs.run DisplayService.step {} events).GuardAlive)
    (synced : (Runs.run DisplayService.step {} events).syncDisplays.isSynced = true) :
    (Runs.run DisplayService.step {} events).taken =
      some (Runs.run DisplayService.step {} events).syncDisplays.displays := by
  rcases (sound_run events).owed synced with announced | alive | changing
  · exact announced
  · exact absurd alive gone
  · rw [free] at changing
    cases changing

/-- A change under two guards that overlap is taken when both are gone. -/
theorem changes_announced_two_guards :
    (Runs.run DisplayService.step ({} : DisplayService Nat)
      [.setDisplays [1], .readFlag, .getDisplaysMsg, .tempIgnore, .tempIgnore, .clearFlag 0,
        .tempIgnore, .setDisplays [2], .readFlag, .resync 0, .clearFlag 1, .getDisplaysMsg,
        .clearFlag 2, .resync 2, .resync 1, .getDisplaysMsg]).taken = some [2] :=
  changes_announced _ rfl (by rintro ⟨guard, mem, alive⟩; revert guard; decide) rfl

end CamelliaRemote.Display
