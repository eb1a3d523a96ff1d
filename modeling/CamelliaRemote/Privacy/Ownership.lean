import CamelliaRemote.Lib.TreeMaps
import CamelliaRemote.Privacy.Mode

namespace CamelliaRemote.Privacy
open Runs World

variable {p : Platform}

/-- `turn_on_privacy_sync` of the owner would replace the implementation. -/
def Switches (p : Platform) (s : World) (w : OnAnswer) (implKey : String) : Prop :=
  s.privacyMode.curImplKey ≠ getSupportedImpl p w implKey

instance (s : World) (w : OnAnswer) (implKey : String) : Decidable (Switches p s w implKey) :=
  inferInstanceAs (Decidable (_ ≠ _))

/-- The sections in which a connection gives its own privacy mode up: it turns
it off, loses the permission, ends, fails the check of its own turn-on, recovers
from its own failed turn-on, or switches the implementation. -/
def GivesUp (p : Platform) (s : World) (c : Connection) : Action → Prop
  | .togglePrivacyMode t _ => t.on = false
  | .privacyOption q _ => q = .no
  | .checkPrivacyModeErr err _ => err ≠ ""
  | .recoverTurnOff _ | .revokeTurnOff _ | .closeTurnOff _ => True
  | .turnOnSync w => ∃ implKey, c.phase = .turningOn implKey ∧ Switches p s w implKey
  | .timeout _ | .recoverCheck | .switchPermission _ | .leaveLoop => False

/-- A step in which connection `a` itself gives privacy mode up. -/
def Releases (p : Platform) (a : Int) (s : World) : Event → Prop
  | .connect _ => False
  | .task id act => id = a ∧ ∃ c, s.conns[id]? = some c ∧ GivesUp p s c act
  | .thread n w => ∃ t, s.threads[n]? = some t ∧ t.connId = a ∧ Switches p s w t.implKey

/-- The error path of a failed turn-on runs only while no other connection owns
privacy mode, and `get_new_id` has not wrapped around to the invalid id. -/
def Orderly (s : World) : Event → Prop
  | .connect _ => s.getNewId ≠ invalidPrivacyModeConnId
  | .task id (.recoverTurnOff _) =>
    (s.conns[id]?).any (·.isRecovering) →
      s.owner = invalidPrivacyModeConnId ∨ s.owner = id
  | _ => True

instance (s : World) : ∀ e, Decidable (Orderly s e)
  | .connect _ => inferInstanceAs (Decidable (_ ≠ _))
  | .task _ (.recoverTurnOff _) => inferInstanceAs (Decidable (_ → _))
  | .task _ (.togglePrivacyMode _ _) | .task _ (.privacyOption _ _) | .task _ (.turnOnSync _)
  | .task _ (.timeout _) | .task _ (.checkPrivacyModeErr _ _) | .task _ .recoverCheck
  | .task _ (.switchPermission _) | .task _ (.revokeTurnOff _) | .task _ .leaveLoop
  | .task _ (.closeTurnOff _) | .thread _ _ => inferInstanceAs (Decidable True)

/-- No task or thread acts under the invalid id. -/
structure ValidIds (s : World) : Prop where
  conns : ∀ (id : Int) c, s.conns[id]? = some c → id ≠ invalidPrivacyModeConnId
  threads : ∀ (n : Nat) t, s.threads[n]? = some t → t.connId ≠ invalidPrivacyModeConnId

theorem turnOffPrivacy_other {g : Global} {a id : Int} (own : g.owner = a)
    (valid : a ≠ invalidPrivacyModeConnId) (caller : id ≠ invalidPrivacyModeConnId)
    (other : id ≠ a) (answer : OffAnswer) : (turnOffPrivacy g id answer).1 = g := by
  cases g with
  | none => rfl
  | some m =>
    have held : m.connId = a := own
    have refused : m.checkOffConnId id = .error turnOffOtherId := by
      simp [PrivacyModeImpl.checkOffConnId, held, valid, caller, Ne.symm other]
    simp [turnOffPrivacy, PrivacyModeImpl.turnOffPrivacy, refused]

theorem turnOnPrivacySync_other {g : Global} {a id : Int} (own : g.owner = a)
    (valid : a ≠ invalidPrivacyModeConnId) (other : id ≠ a) (w : OnAnswer) (implKey : String) :
    (turnOnPrivacySync p w g implKey id).1 = g := by
  cases g with
  | none => exact absurd own.symm valid
  | some m =>
    have held : m.connId = a := own
    have refused : m.checkOnConnId id = .error occupied := by
      simp [PrivacyModeImpl.checkOnConnId, held, valid, Ne.symm other]
    simp [turnOnPrivacySync, refused]

theorem turnOnPrivacySync_same {g : Global} {a : Int} (own : g.owner = a)
    (valid : a ≠ invalidPrivacyModeConnId) {w : OnAnswer} {implKey : String}
    (same : g.curImplKey = getSupportedImpl p w implKey) :
    (turnOnPrivacySync p w g implKey a).1 = g := by
  cases g with
  | none => exact absurd own.symm valid
  | some m =>
    have held : m.connId = a := own
    have again : m.checkOnConnId a = .ok true := by
      simp [PrivacyModeImpl.checkOnConnId, held]
    have key : m.implKey = getSupportedImpl p w implKey := same
    simp [turnOnPrivacySync, again, key]

theorem turnOnPrivacySync_owner {s : World} {a id : Int} (own : s.owner = a)
    (valid : a ≠ invalidPrivacyModeConnId) {w : OnAnswer} {implKey : String}
    (stays : id = a → ¬ Switches p s w implKey) :
    (turnOnPrivacySync p w s.privacyMode implKey id).1 = s.privacyMode := by
  by_cases same : id = a
  · subst same
    exact turnOnPrivacySync_same own valid (not_not.mp (stays rfl))
  · exact turnOnPrivacySync_other own valid same w implKey

theorem turnOnPrivacy_privacyMode (s : World) (id : Int) (c : Connection) (implKey : String) :
    (s.turnOnPrivacy p id c implKey).privacyMode = s.privacyMode := by
  unfold World.turnOnPrivacy
  split
  · rfl
  · split
    · rfl
    · split <;> rfl

theorem turnOffPrivacy_privacyMode {s : World} {a id : Int} (own : s.owner = a)
    (valid : a ≠ invalidPrivacyModeConnId) (caller : id ≠ invalidPrivacyModeConnId)
    (other : id ≠ a) (c : Connection) (implKey : String) (answer : OffAnswer) :
    (s.turnOffPrivacy p id c implKey answer).privacyMode = s.privacyMode := by
  unfold World.turnOffPrivacy
  split
  · rfl
  · exact turnOffPrivacy_other own valid caller other answer

theorem act_privacyMode {s : World} {a id : Int} {c : Connection} {act : Action}
    (own : s.owner = a) (valid : a ≠ invalidPrivacyModeConnId)
    (caller : id ≠ invalidPrivacyModeConnId) (found : s.conns[id]? = some c)
    (keeps : id = a → ¬ GivesUp p s c act) (ok : Orderly s (.task id act)) :
    (s.act p id c act).privacyMode = s.privacyMode := by
  cases act with
  | togglePrivacyMode t answer =>
    simp only [World.act]
    split
    · rfl
    · split
      · exact turnOnPrivacy_privacyMode s id c _
      · rename_i off
        have other : id ≠ a := fun same => keeps same (Bool.eq_false_iff.mpr off)
        exact turnOffPrivacy_privacyMode own valid caller other c _ answer
  | privacyOption q answer =>
    simp only [World.act]
    split
    · rfl
    · cases q with
      | yes => exact turnOnPrivacy_privacyMode s id c _
      | no =>
        have other : id ≠ a := fun same => keeps same rfl
        exact turnOffPrivacy_privacyMode own valid caller other c _ answer
      | notSet => rfl
  | turnOnSync w =>
    simp only [World.act]
    split
    · rename_i implKey phase
      exact turnOnPrivacySync_owner own valid fun same switches =>
        keeps same ⟨implKey, phase, switches⟩
    · rfl
  | timeout e => simp only [World.act]; split <;> rfl
  | checkPrivacyModeErr err answer =>
    simp only [World.act]
    split
    · split
      · rfl
      · rename_i bad
        have other : id ≠ a := fun same => keeps same bad
        exact turnOffPrivacy_other own valid caller other answer
    · rfl
  | recoverCheck =>
    simp only [World.act]
    split
    · split <;> rfl
    · rfl
  | recoverTurnOff answer =>
    simp only [World.act]
    split
    · rename_i e implKey phase
      have recovering : (s.conns[id]?).any (·.isRecovering) := by
        simp [found, Connection.isRecovering, phase]
      rcases ok recovering with none | same
      · exact absurd (own.symm.trans none) valid
      · exact absurd trivial (keeps (same.symm.trans own))
    · rfl
  | switchPermission enabled =>
    simp only [World.act]
    split
    · unfold World.switchPermission
      split <;> rfl
    · rfl
  | revokeTurnOff answer =>
    simp only [World.act]
    split
    · have other : id ≠ a := fun same => keeps same trivial
      exact turnOffPrivacy_other own valid caller other answer
    · rfl
  | leaveLoop =>
    simp only [World.act]
    split
    · rfl
    · split <;> rfl
  | closeTurnOff answer =>
    simp only [World.act]
    split
    · have other : id ≠ a := fun same => keeps same trivial
      exact turnOffPrivacy_other own valid caller other answer
    · rfl

theorem step_owner {s : World} {a : Int} {e : Event} (ids : ValidIds s) (own : s.owner = a)
    (valid : a ≠ invalidPrivacyModeConnId) (keeps : ¬ Releases p a s e) (ok : Orderly s e) :
    (s.step p e).owner = a := by
  suffices same : (s.step p e).privacyMode = s.privacyMode by
    rw [← own, World.owner, World.owner, same]
  cases e with
  | connect c => rfl
  | task id act =>
    simp only [World.step]
    split
    · rfl
    · rename_i c found
      exact act_privacyMode own valid (ids.conns id c found) found
        (fun same up => keeps ⟨same, c, found, up⟩) ok
  | thread n w =>
    simp only [World.step]
    split
    · rfl
    · rename_i t found
      exact turnOnPrivacySync_owner own valid fun same switches =>
        keeps ⟨t, found, same, switches⟩

theorem ValidIds.put {s : World} (h : ValidIds s) {id : Int} (c : Connection)
    (valid : id ≠ invalidPrivacyModeConnId) : ValidIds (s.put id c) := by
  refine ⟨fun j d hj => ?_, h.threads⟩
  rcases TreeMaps.of_insert hj with ⟨rfl, -⟩ | ⟨-, old⟩
  · exact valid
  · exact h.conns j d old

theorem ValidIds.erase {s : World} (h : ValidIds s) (id : Int) (g : Global) :
    ValidIds { s with conns := s.conns.erase id, privacyMode := g } := by
  exact ⟨fun j d hj => h.conns j d (TreeMaps.of_erase hj).2, h.threads⟩

theorem ValidIds.global {s : World} (h : ValidIds s) (g : Global) :
    ValidIds { s with privacyMode := g } := ⟨h.conns, h.threads⟩

theorem turnOnPrivacy_validIds {s : World} (h : ValidIds s) {id : Int} (c : Connection)
    (valid : id ≠ invalidPrivacyModeConnId) (implKey : String) :
    ValidIds (s.turnOnPrivacy p id c implKey) := by
  unfold World.turnOnPrivacy
  split
  · exact h.put _ valid
  · split
    · exact h.put _ valid
    · split
      · refine ⟨(h.put _ valid).conns, fun n t ht => ?_⟩
        rcases TreeMaps.of_insert ht with ⟨-, rfl⟩ | ⟨-, old⟩
        · exact valid
        · exact h.threads n t old
      · exact h.put _ valid

theorem turnOffPrivacy_validIds {s : World} (h : ValidIds s) {id : Int} (c : Connection)
    (valid : id ≠ invalidPrivacyModeConnId) (implKey : String) (answer : OffAnswer) :
    ValidIds (s.turnOffPrivacy p id c implKey answer) := by
  unfold World.turnOffPrivacy
  split
  · exact h.put _ valid
  · exact (h.put _ valid).global _

theorem act_validIds {s : World} (h : ValidIds s) {id : Int} (c : Connection) (act : Action)
    (valid : id ≠ invalidPrivacyModeConnId) : ValidIds (s.act p id c act) := by
  cases act with
  | togglePrivacyMode t answer =>
    simp only [World.act]
    split
    · exact h
    · split
      · exact turnOnPrivacy_validIds h c valid _
      · exact turnOffPrivacy_validIds h c valid _ _
  | privacyOption q answer =>
    simp only [World.act]
    split
    · exact h
    · cases q with
      | yes => exact turnOnPrivacy_validIds h c valid _
      | no => exact turnOffPrivacy_validIds h c valid _ _
      | notSet => exact h
  | turnOnSync w =>
    simp only [World.act]
    split
    · exact (h.put _ valid).global _
    · exact h
  | timeout e =>
    simp only [World.act]
    split
    · exact h.put _ valid
    · exact h
  | checkPrivacyModeErr err answer =>
    simp only [World.act]
    split
    · split
      · exact h.put _ valid
      · exact (h.put _ valid).global _
    · exact h
  | recoverCheck =>
    simp only [World.act]
    split
    · split <;> exact h.put _ valid
    · exact h
  | recoverTurnOff answer =>
    simp only [World.act]
    split
    · exact (h.put _ valid).global _
    · exact h
  | switchPermission enabled =>
    simp only [World.act]
    split
    · unfold World.switchPermission
      split <;> exact h.put _ valid
    · exact h
  | revokeTurnOff answer =>
    simp only [World.act]
    split
    · exact (h.put _ valid).global _
    · exact h
  | leaveLoop =>
    simp only [World.act]
    split
    · exact h
    · split
      · exact h.put _ valid
      · exact h.erase id _
  | closeTurnOff answer =>
    simp only [World.act]
    split
    · exact h.erase id _
    · exact h

theorem step_validIds (s : World) (e : Event) (h : ValidIds s) (ok : Orderly s e) :
    ValidIds (s.step p e) := by
  cases e with
  | connect c =>
    obtain ⟨conns, threads⟩ := h.put { c with phase := .idle, sent := [] } ok
    exact ⟨conns, threads⟩
  | task id act =>
    simp only [World.step]
    split
    · exact h
    · rename_i c found
      exact act_validIds h c act (h.conns id c found)
  | thread n w =>
    simp only [World.step]
    split
    · exact h
    · rename_i t found
      have delivered (res : Option (Except String Bool)) : ValidIds (s.deliver n t res) := by
        unfold World.deliver
        split
        · exact h
        · split
          · split
            · exact h.put _ (h.threads n t found)
            · exact h
          · exact h
      exact ⟨(delivered _).conns, fun m u hu => h.threads m u (TreeMaps.of_erase hu).2⟩

theorem new_validIds (implKey : Option String) (idCount : Int) :
    ValidIds (World.new implKey idCount) := by
  constructor <;> simp [World.new]

/-- **Privacy mode belongs to its owner.** Once `a` owns privacy mode it owns it
after every continuation in which `a` itself does not give it up, provided that
no error path of another connection's failed turn-on runs while `a` is the
owner and no connection is numbered with the invalid id. -/
theorem owner_keeps_privacy_mode (p : Platform) (implKey : Option String) (idCount a : Int)
    (es fs : List Event) (ok : Along (step p) Orderly (new implKey idCount) (es ++ fs))
    (own : (run (step p) (new implKey idCount) es).owner = a)
    (on : a ≠ invalidPrivacyModeConnId)
    (keeps : Along (step p) (fun s e => ¬ Releases p a s e)
      (run (step p) (new implKey idCount) es) fs) :
    (run (step p) (new implKey idCount) (es ++ fs)).owner = a := by
  rw [along_append] at ok
  have ids : ValidIds (run (step p) (new implKey idCount) es) :=
    Runs.invariant step_validIds (new_validIds implKey idCount) ok.1
  have held : ValidIds (run (step p) (new implKey idCount) (es ++ fs)) ∧
      (run (step p) (new implKey idCount) (es ++ fs)).owner = a := by
    rw [run_append]
    refine @Runs.invariant _ _ _ (fun s e => Orderly s e ∧ ¬ Releases p a s e)
      (fun s => ValidIds s ∧ s.owner = a) ?_ _ _ ⟨ids, own⟩ (along_and.mpr ⟨ok.2, keeps⟩)
    intro s e h admitted
    exact ⟨step_validIds s e h.1 admitted.1, step_owner h.1 h.2 on admitted.2 admitted.1⟩
  exact held.2

def windows : Platform where
  creators := ["privacy_mode_impl_exclude_from_capture", "privacy_mode_impl_virtual_display"]
  defaultImpl := "privacy_mode_impl_exclude_from_capture"
  isAsync := fun _ => false

def windowsAnswer : OnAnswer where
  supported := ["privacy_mode_impl_exclude_from_capture", "privacy_mode_impl_virtual_display"]
  optionKey := ""
  turnOn := .ok true

/-- Connections 1001 and 1002 are there and 1001 turns privacy mode on. -/
def ownedRun : List Event :=
  [.connect {}, .connect {}, .task 1001 (.togglePrivacyMode ⟨true, ""⟩ .off),
    .task 1001 (.turnOnSync windowsAnswer), .task 1001 (.checkPrivacyModeErr "" .off)]

/-- Connection 1002 is refused and recovers. -/
def refusedRun : List Event :=
  [.task 1002 (.togglePrivacyMode ⟨true, ""⟩ .off), .task 1002 (.turnOnSync windowsAnswer),
    .task 1002 .recoverCheck, .task 1002 (.recoverTurnOff .off)]

/-- Connection 1002 asks to turn privacy mode off, loses its permission and
leaves. -/
def politeRun : List Event :=
  [.task 1002 (.togglePrivacyMode ⟨false, ""⟩ .off), .task 1002 (.switchPermission false),
    .task 1002 .leaveLoop]

theorem owner_keeps_privacy_mode_polite :
    (run (step windows) (new (some "privacy_mode_impl_exclude_from_capture") 1000)
      (ownedRun ++ politeRun)).owner = 1001 := by
  apply owner_keeps_privacy_mode
  · decide +kernel
  · decide +kernel
  · decide
  · simp [Along, Releases, politeRun]

/-- The refused connection takes privacy mode from its owner. -/
theorem refused_turns_owner_off :
    ¬ ∀ (p : Platform) (implKey : Option String) (idCount a : Int) (es fs : List Event),
      (run (step p) (new implKey idCount) es).owner = a → a ≠ invalidPrivacyModeConnId →
      Along (step p) (fun s e => ¬ Releases p a s e) (run (step p) (new implKey idCount) es) fs →
      (run (step p) (new implKey idCount) (es ++ fs)).owner = a := by
  intro h
  have kept := h windows (some "privacy_mode_impl_exclude_from_capture") 1000 1001 ownedRun
    refusedRun (by decide +kernel) (by decide) (by simp [Along, Releases, refusedRun])
  have off : (run (step windows) (new (some "privacy_mode_impl_exclude_from_capture") 1000)
      (ownedRun ++ refusedRun)).owner = 0 := by
    decide +kernel
  rw [off] at kept
  exact absurd kept (by decide)

end CamelliaRemote.Privacy
