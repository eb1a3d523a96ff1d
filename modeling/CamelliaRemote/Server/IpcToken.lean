import Mathlib.Data.List.Nodup
import CamelliaRemote.Server.PortableService

namespace CamelliaRemote.PortableService
open Runs

inductive Place where
  | unmade
  | launch (launch : Nat)
  | current
  | consumed
  | spent

/-- Every token is in one place at a time. -/
structure Placed (place : IpcToken → Place) (s : Runtime) : Prop where
  made : ∀ token, place token ≠ .unmade → token ∈ s.made.map Prod.fst
  launch : ∀ i token name, s.launches i = .created token name → place token = .launch i
  token : ∀ token, s.token = some token → place token = .current
  consumed : ∀ h ∈ s.handshakes, place h.consumedToken = .consumed
  distinct : (s.handshakes.map Handshake.consumedToken).Nodup
  spent : ∀ token ∈ s.succeeded, place token = .spent
  later : ∀ i, s.next ≤ i → s.launches i = .idle

/-- A token that is accepted or will be is that of the current shared memory. -/
structure Bound (s : Runtime) : Prop where
  unique : ∀ token token' name, (token, name) ∈ s.made → (token', name) ∈ s.made → token = token'
  launches : ∀ i token name, s.launches i = .created token name → (token, name) ∈ s.made
  /-- Until a launch has set its token, or cleared the state, the one before may still be
  there. -/
  token : ∀ token, s.token = some token →
    (∃ name, (token, name) ∈ s.made ∧ s.name = some name ∧ s.shmem = some (some token)) ∨
    (∃ i token' name, s.launches i = .created token' name ∧ s.name = some name) ∨
    (∃ i, s.launches i = .failing) ∧ s.shmem = some none
  launch : ∀ i token name, s.launches i = .created token name → s.name = some name →
    s.shmem = some (some token)
  handshake : ∀ h ∈ s.handshakes, ∃ name, h.consumedTokenShmemName = some name ∧
    (h.consumedToken, name) ∈ s.made

/-- The same but for the stages of the calls that have no token to set. -/
structure Alike (s s' : Runtime) : Prop where
  created : ∀ i token name, s'.launches i = .created token name ↔ s.launches i = .created token name
  later : (∀ i, s.next ≤ i → s.launches i = .idle) → ∀ i, s'.next ≤ i → s'.launches i = .idle
  made : s'.made = s.made
  handshakes : s'.handshakes = s.handshakes
  succeeded : s'.succeeded = s.succeeded

variable {place : IpcToken → Place} {s s' : Runtime}

theorem Alike.refl (s : Runtime) : Alike s s := ⟨fun _ _ _ => .rfl, id, rfl, rfl, rfl⟩

/-- The call is in progress and has no token to set. -/
def Stage.midway : Stage → Bool
  | .idle | .created .. => false
  | _ => true

theorem Alike.setStage {launch : Nat} {stage : Stage} (alike : Alike s s')
    (old : (s'.launches launch).midway = true)
    (new : ∀ token name, stage ≠ .created token name) : Alike s (s'.setStage launch stage) where
  created i token name := by
    rw [← alike.created i token name]
    by_cases same : i = launch
    · subst same
      have other : s'.launches i ≠ .created token name := by
        intro created
        simp [created, Stage.midway] at old
      simp [Runtime.setStage, new token name, other]
    · simp [Runtime.setStage, same]
  later idle i le := by
    have here := alike.later idle i le
    have ne : i ≠ launch := by
      rintro rfl
      simp [here, Stage.midway] at old
    simpa [Runtime.setStage, ne] using here
  made := alike.made
  handshakes := alike.handshakes
  succeeded := alike.succeeded

theorem Placed.alike (placed : Placed place s) (alike : Alike s s')
    (token : ∀ token, s'.token = some token → s.token = some token) : Placed place s' where
  made t made := alike.made ▸ placed.made t made
  launch i t name created := placed.launch i t name ((alike.created i t name).mp created)
  token t current := placed.token t (token t current)
  consumed h mem := placed.consumed h (alike.handshakes ▸ mem)
  distinct := alike.handshakes ▸ placed.distinct
  spent t mem := placed.spent t (alike.succeeded ▸ mem)
  later := alike.later placed.later

theorem Bound.alike (bound : Bound s) (alike : Alike s s')
    (failing : ∀ i, s.launches i = .failing → s'.launches i = .failing)
    (token : s'.token = s.token) (name : s'.name = s.name) (shmem : s'.shmem = s.shmem) :
    Bound s' where
  unique := alike.made ▸ bound.unique
  launches i t n created := by
    rw [alike.made]
    exact bound.launches i t n ((alike.created i t n).mp created)
  token t current := by
    rw [token] at current
    rw [name, shmem, alike.made]
    refine (bound.token t current).imp_right (Or.imp ?_ ?_)
    · rintro ⟨i, t', n, created, own⟩
      exact ⟨i, t', n, (alike.created i t' n).mpr created, own⟩
    · rintro ⟨⟨i, stage⟩, empty⟩
      exact ⟨⟨i, failing i stage⟩, empty⟩
  launch i t n created own := by
    rw [name] at own
    rw [shmem]
    exact bound.launch i t n ((alike.created i t n).mp created) own
  handshake h mem := by
    rw [alike.made]
    exact bound.handshake h (alike.handshakes ▸ mem)

theorem Bound.cleared (bound : Bound s) (alike : Alike s s') (token : s'.token = none)
    (name : s'.name = none) : Bound s' where
  unique := alike.made ▸ bound.unique
  launches i t n created := by
    rw [alike.made]
    exact bound.launches i t n ((alike.created i t n).mp created)
  token t current := nomatch token.symm.trans current
  launch i t n _ own := nomatch name.symm.trans own
  handshake h mem := by
    rw [alike.made]
    exact bound.handshake h (alike.handshakes ▸ mem)

/-- Tokens that were made stay made when one of them moves. -/
theorem Placed.made_moved (placed : Placed place s) {moved : IpcToken}
    (known : place moved ≠ .unmade) (token : IpcToken) :
    place token ≠ .unmade ∨ token = moved → token ∈ s.made.map Prod.fst := by
  rintro (other | rfl)
  · exact placed.made token other
  · exact placed.made token known

/-- One token moves, and every other one stays where it was. -/
theorem Placed.move (placed : Placed place s) {moved : IpcToken} {target : Place}
    (made : ∀ token, place token ≠ .unmade ∨ token = moved → token ∈ s'.made.map Prod.fst)
    (launch : ∀ i token name, s'.launches i = .created token name →
      token = moved ∧ target = .launch i ∨ token ≠ moved ∧ s.launches i = .created token name)
    (token : ∀ token, s'.token = some token →
      token = moved ∧ target = .current ∨ token ≠ moved ∧ s.token = some token)
    (consumed : ∀ h ∈ s'.handshakes,
      h.consumedToken = moved ∧ target = .consumed ∨ h.consumedToken ≠ moved ∧ h ∈ s.handshakes)
    (distinct : (s'.handshakes.map Handshake.consumedToken).Nodup)
    (spent : ∀ token ∈ s'.succeeded,
      token = moved ∧ target = .spent ∨ token ≠ moved ∧ token ∈ s.succeeded)
    (later : ∀ i, s'.next ≤ i → s'.launches i = .idle) :
    Placed (Function.update place moved target) s' where
  made t known := by
    by_cases same : t = moved
    · exact made t (.inr same)
    · rw [Function.update_of_ne same] at known
      exact made t (.inl known)
  launch i t name created := by
    rcases launch i t name created with ⟨rfl, rfl⟩ | ⟨ne, old⟩
    · exact Function.update_self ..
    · exact (Function.update_of_ne ne ..).trans (placed.launch i t name old)
  token t current := by
    rcases token t current with ⟨rfl, rfl⟩ | ⟨ne, old⟩
    · exact Function.update_self ..
    · exact (Function.update_of_ne ne ..).trans (placed.token t old)
  consumed h mem := by
    rcases consumed h mem with ⟨eq, rfl⟩ | ⟨ne, old⟩
    · rw [eq]
      exact Function.update_self ..
    · exact (Function.update_of_ne ne ..).trans (placed.consumed h old)
  distinct := distinct
  spent t mem := by
    rcases spent t mem with ⟨rfl, rfl⟩ | ⟨ne, old⟩
    · exact Function.update_self ..
    · exact (Function.update_of_ne ne ..).trans (placed.spent t old)
  later := later

/-- Two tokens in different places are not the same. -/
theorem ne_of_place {token token' : IpcToken} {at' : Place} (here : place token = at')
    (there : place token' ≠ at') : token' ≠ token := by
  rintro rfl
  exact there here

namespace Runtime

theorem start_alike (running hasRunningProcess : Bool)
    (later : ∀ i, s.next ≤ i → s.launches i = .idle) :
    Alike s (s.start running hasRunningProcess) := by
  unfold start
  simp only
  split
  · exact ⟨fun _ _ _ => .rfl, id, rfl, rfl, rfl⟩
  · refine ⟨fun i token name => ?_, fun idle i le => ?_, rfl, rfl, rfl⟩
    · by_cases same : i = s.next
      · subst same
        simp [setStage, later s.next (Nat.le_refl _)]
      · simp [setStage, same]
    · have after : s.next + 1 ≤ i := le
      have ne : i ≠ s.next := by omega
      have here := idle i (by omega)
      simpa [setStage, ne] using here

theorem start_frame (running hasRunningProcess : Bool)
    (later : ∀ i, s.next ≤ i → s.launches i = .idle) :
    (s.start running hasRunningProcess).token = s.token ∧
      (s.start running hasRunningProcess).name = s.name ∧
      (s.start running hasRunningProcess).shmem = s.shmem ∧
      ∀ i, s.launches i = .failing →
        (s.start running hasRunningProcess).launches i = .failing := by
  unfold start
  simp only
  split
  · exact ⟨rfl, rfl, rfl, fun _ => id⟩
  · refine ⟨rfl, rfl, rfl, fun i failing => ?_⟩
    have ne : i ≠ s.next := by
      rintro rfl
      exact nomatch failing.symm.trans (later s.next (Nat.le_refl _))
    simpa [setStage, ne] using failing

theorem accepts_iff {candidate : IpcToken} :
    s.accepts candidate = true ↔
      s.token = some candidate ∧ byteLen candidate = ipcTokenLen := by
  unfold accepts constantTimeIpcTokenEq
  cases s.token with
  | none => simp
  | some token =>
    simp only [Option.any_some, Bool.and_eq_true, decide_eq_true_eq, Option.some.injEq]
    constructor
    · rintro ⟨⟨-, len⟩, rfl⟩
      exact ⟨rfl, len⟩
    · rintro ⟨rfl, len⟩
      exact ⟨⟨len, len⟩, rfl⟩

theorem later_setStage {launch : Nat} {stage : Stage} (placed : Placed place s)
    (known : s.launches launch ≠ .idle) (i : Nat) (le : s.next ≤ i) :
    (s.setStage launch stage).launches i = .idle := by
  have here := placed.later i le
  have ne : i ≠ launch := by
    rintro rfl
    exact known here
  simpa [setStage, ne] using here

theorem createShmem_created {launch i : Nat} {token token' : IpcToken} {name name' : String}
    (created : (s.createShmem launch token name).launches i = .created token' name') :
    i = launch ∧ token' = token ∧ name' = name ∨ s.launches i = .created token' name' := by
  unfold createShmem at created
  by_cases same : i = launch
  · subst same
    split at created
    · simp only [setStage, Function.update_self, Stage.created.injEq] at created
      exact .inl ⟨rfl, created.1.symm, created.2.symm⟩
    · simp [setStage] at created
  · split at created
    · exact .inr (by simpa [setStage, same] using created)
    · exact .inr (by simpa [setStage, same] using created)

/-- What the section under `SHMEM` changes besides the stage and the slot. -/
theorem createShmem_frame (launch : Nat) (token : IpcToken) (name : String) :
    (s.createShmem launch token name).made = s.made ++ [(token, name)] ∧
      (s.createShmem launch token name).name = some name ∧
      (s.createShmem launch token name).token = s.token ∧
      (s.createShmem launch token name).handshakes = s.handshakes ∧
      (s.createShmem launch token name).succeeded = s.succeeded := by
  unfold createShmem
  split <;> exact ⟨rfl, rfl, rfl, rfl, rfl⟩

theorem createShmem_later (placed : Placed place s) {launch : Nat} (token : IpcToken)
    (name : String) (known : s.launches launch ≠ .idle) (i : Nat)
    (le : (s.createShmem launch token name).next ≤ i) :
    (s.createShmem launch token name).launches i = .idle := by
  unfold createShmem at le ⊢
  split at le
  · rename_i valid
    rw [if_pos valid]
    exact later_setStage placed known i le
  · rename_i valid
    rw [if_neg valid]
    exact later_setStage placed known i le

theorem placed_createShmem (placed : Placed place s) {launch : Nat} {token : IpcToken}
    {name : String} (stage : s.launches launch = .cleared) (fresh : token ∉ s.made.map Prod.fst) :
    Placed (Function.update place token (.launch launch)) (s.createShmem launch token name) := by
  have unmade : place token = .unmade := by
    by_contra known
    exact fresh (placed.made token known)
  have known : s.launches launch ≠ .idle := by simp [stage]
  obtain ⟨made, -, current, handshakes, succeeded⟩ :=
    createShmem_frame (s := s) launch token name
  refine placed.move ?_ ?_ ?_ ?_ (handshakes ▸ placed.distinct) ?_
    (createShmem_later placed token name known)
  · rw [made, List.map_append]
    rintro t (known | rfl)
    · exact List.mem_append_left _ (placed.made t known)
    · exact List.mem_append_right _ List.mem_cons_self
  · intro i t name' created
    rcases createShmem_created created with ⟨rfl, rfl, -⟩ | old
    · exact .inl ⟨rfl, rfl⟩
    · exact .inr ⟨ne_of_place unmade (by simp [placed.launch i t name' old]), old⟩
  · intro t eq
    rw [current] at eq
    exact .inr ⟨ne_of_place unmade (by simp [placed.token t eq]), eq⟩
  · intro h mem
    rw [handshakes] at mem
    exact .inr ⟨ne_of_place unmade (by simp [placed.consumed h mem]), mem⟩
  · intro t mem
    rw [succeeded] at mem
    exact .inr ⟨ne_of_place unmade (by simp [placed.spent t mem]), mem⟩

theorem placed_setToken (placed : Placed place s) {launch : Nat} {token : IpcToken} {name : String}
    (stage : s.launches launch = .created token name) :
    Placed (Function.update place token .current)
      { s.setStage launch .armed with token := some token } := by
  have here := placed.launch launch token name stage
  have known : s.launches launch ≠ .idle := by simp [stage]
  refine placed.move (placed.made_moved (by simp [here])) ?_ ?_ ?_ placed.distinct ?_
    (later_setStage placed known)
  · intro i t name' created
    have other : i ≠ launch := by
      rintro rfl
      simp [setStage] at created
    have old : s.launches i = .created t name' := by simpa [setStage, other] using created
    exact .inr ⟨ne_of_place here (by simp [placed.launch i t name' old, other]), old⟩
  · intro t current
    exact .inl ⟨(Option.some.inj current).symm, rfl⟩
  · intro h mem
    exact .inr ⟨ne_of_place here (by simp [placed.consumed h mem]), mem⟩
  · intro t mem
    exact .inr ⟨ne_of_place here (by simp [placed.spent t mem]), mem⟩

theorem placed_consume (placed : Placed place s) {candidate : IpcToken}
    (accepted : s.accepts candidate = true) :
    Placed (Function.update place candidate .consumed) { s with
      token := none
      shmem := s.shmem.map fun _ => none
      handshakes := s.handshakes ++ [⟨candidate, s.name⟩] } := by
  have here := placed.token candidate (accepts_iff.mp accepted).1
  have others : ∀ h ∈ s.handshakes, h.consumedToken ≠ candidate := fun h mem =>
    ne_of_place here (by simp [placed.consumed h mem])
  refine placed.move (placed.made_moved (by simp [here])) ?_ nofun ?_ ?_ ?_ placed.later
  · intro i t name created
    exact .inr ⟨ne_of_place here (by simp [placed.launch i t name created]), created⟩
  · intro h mem
    rcases List.mem_append.mp mem with old | new
    · exact .inr ⟨others h old, old⟩
    · rw [List.mem_singleton.mp new]
      exact .inl ⟨rfl, rfl⟩
  · rw [List.map_append, List.nodup_append]
    refine ⟨placed.distinct, List.nodup_singleton _, ?_⟩
    intro t mem t' mem'
    obtain ⟨h, old, rfl⟩ := List.mem_map.mp mem
    rw [List.mem_singleton.mp mem']
    exact others h old
  · intro t mem
    exact .inr ⟨ne_of_place here (by simp [placed.spent t mem]), mem⟩

/-- The other handshakes have other tokens. -/
theorem other_handshake (placed : Placed place s) {h h' : Handshake} (mem : h ∈ s.handshakes)
    (mem' : h' ∈ s.handshakes.erase h) : h'.consumedToken ≠ h.consumedToken := by
  have nodup : s.handshakes.Nodup := List.Nodup.of_map _ placed.distinct
  rw [nodup.mem_erase_iff] at mem'
  intro eq
  exact mem'.1 (List.inj_on_of_nodup_map placed.distinct mem'.2 mem eq)

theorem distinct_erase (placed : Placed place s) (h : Handshake) :
    ((s.handshakes.erase h).map Handshake.consumedToken).Nodup :=
  placed.distinct.sublist (List.erase_sublist.map _)

theorem placed_handshakeDone (placed : Placed place s) {h : Handshake} (mem : h ∈ s.handshakes) :
    Placed (Function.update place h.consumedToken .spent)
      { s with
        handshakes := s.handshakes.erase h
        succeeded := s.succeeded ++ [h.consumedToken] } := by
  have here := placed.consumed h mem
  refine placed.move (placed.made_moved (by simp [here])) ?_ ?_ ?_ (distinct_erase placed h) ?_
    placed.later
  · intro i t name created
    exact .inr ⟨ne_of_place here (by simp [placed.launch i t name created]), created⟩
  · intro t current
    exact .inr ⟨ne_of_place here (by simp [placed.token t current]), current⟩
  · intro h' mem'
    exact .inr ⟨other_handshake placed mem mem', List.mem_of_mem_erase mem'⟩
  · intro t mem'
    rcases List.mem_append.mp mem' with old | new
    · exact .inr ⟨ne_of_place here (by simp [placed.spent t old]), old⟩
    · exact .inl ⟨List.mem_singleton.mp new, rfl⟩

/-- What giving a token back does: the token is set where the current shared memory is the
one that the handshake found, and the runtime token is not another one. -/
theorem restore_cases (token : IpcToken) (expected : Option String) :
    s.restoreRuntimeIpcTokenAfterFailedHandshake token expected = s ∨
    s.restoreRuntimeIpcTokenAfterFailedHandshake token expected = { s with token := none } ∨
    s.name = expected ∧ s.shmem.isSome = true ∧ (∀ t, s.token = some t → t = token) ∧
      s.restoreRuntimeIpcTokenAfterFailedHandshake token expected =
        { s with shmem := some (some token), token := some token } := by
  unfold restoreRuntimeIpcTokenAfterFailedHandshake
  simp only
  split
  · exact .inl rfl
  rename_i same
  have forgotten : ({ s with token := if s.token = some token then none else s.token } : Runtime) =
      { s with token := none } := by
    cases current : s.token with
    | none => simp
    | some t =>
      simp only [current, Option.any_some, decide_eq_true_eq, not_not] at same
      simp [same]
  split
  · exact .inr (.inl forgotten)
  rename_i named
  split
  · rename_i slot shmem
    split
    · refine .inr (.inr ⟨not_not.mp named, by simp [shmem], fun t current => ?_, rfl⟩)
      simpa [current] using same
    · exact .inr (.inl forgotten)
  · exact .inr (.inl forgotten)

theorem placed_erase (placed : Placed place s) (h : Handshake) :
    Placed place { s with handshakes := s.handshakes.erase h } :=
  { placed with
    consumed := fun h' mem => placed.consumed h' (List.mem_of_mem_erase mem)
    distinct := distinct_erase placed h }

theorem placed_restore (placed : Placed place s) {h : Handshake} (mem : h ∈ s.handshakes) :
    ∃ place', Placed place'
      ({ s with handshakes := s.handshakes.erase h }.restoreRuntimeIpcTokenAfterFailedHandshake
        h.consumedToken h.consumedTokenShmemName) := by
  have erased := placed_erase placed h
  have here := placed.consumed h mem
  rcases restore_cases (s := { s with handshakes := s.handshakes.erase h }) h.consumedToken
    h.consumedTokenShmemName with same | forgotten | ⟨-, -, -, given⟩
  · rw [same]
    exact ⟨place, erased⟩
  · rw [forgotten]
    exact ⟨place, erased.alike ⟨fun _ _ _ => .rfl, id, rfl, rfl, rfl⟩ nofun⟩
  · rw [given]
    refine ⟨Function.update place h.consumedToken .current,
      erased.move (erased.made_moved (by simp [here])) ?_ ?_ ?_ erased.distinct ?_ placed.later⟩
    · intro i t name created
      exact .inr ⟨ne_of_place here (by simp [placed.launch i t name created]), created⟩
    · intro t current
      exact .inl ⟨(Option.some.inj current).symm, rfl⟩
    · intro h' mem'
      exact .inr ⟨other_handshake placed mem mem', mem'⟩
    · intro t spent
      exact .inr ⟨ne_of_place here (by simp [placed.spent t spent]), spent⟩

/-- What a step can do. -/
inductive StepKind (s : Runtime) : Event → Runtime → Prop where
  | kept {e s'} (alike : Alike s s')
      (failing : ∀ i, s.launches i = .failing → s'.launches i = .failing)
      (token : s'.token = s.token) (name : s'.name = s.name) (shmem : s'.shmem = s.shmem) :
      StepKind s e s'
  | cleared {e s'} (alike : Alike s s') (token : s'.token = none) (name : s'.name = none) :
      StepKind s e s'
  | created {launch token name} (stage : s.launches launch = .cleared) :
      StepKind s (.createShmem launch (some (token, name))) (s.createShmem launch token name)
  | set {launch token name} (stage : s.launches launch = .created token name) :
      StepKind s (.setRuntimeIpcToken launch)
        { s.setStage launch .armed with token := some token }
  | consumed {candidate} (accepted : s.accepts candidate = true) :
      StepKind s (.consume candidate) { s with
        token := none
        shmem := s.shmem.map fun _ => none
        handshakes := s.handshakes ++ [⟨candidate, s.name⟩] }
  | succeeded {h} (mem : h ∈ s.handshakes) :
      StepKind s (.handshakeDone h) { s with
        handshakes := s.handshakes.erase h
        succeeded := s.succeeded ++ [h.consumedToken] }
  | restored {h} (mem : h ∈ s.handshakes) :
      StepKind s (.restore h)
        ({ s with handshakes := s.handshakes.erase h }.restoreRuntimeIpcTokenAfterFailedHandshake
          h.consumedToken h.consumedTokenShmemName)

theorem StepKind.same (e : Event) : StepKind s e s :=
  .kept (.refl s) (fun _ => id) rfl rfl rfl

/-- A call goes on to a stage without a token to set. -/
theorem StepKind.setStage {launch : Nat} {stage stage' : Stage} {e : Event}
    (here : s.launches launch = stage) (old : stage.midway = true) (other : stage ≠ .failing)
    (new : ∀ token name, stage' ≠ .created token name) :
    StepKind s e (s.setStage launch stage') := by
  refine .kept ((Alike.refl s).setStage (here ▸ old) new) (fun i failing => ?_) rfl rfl rfl
  have ne : i ≠ launch := by
    rintro rfl
    exact other (here.symm.trans failing)
  simpa [Runtime.setStage, ne] using failing

theorem StepKind.clearStage {launch : Nat} {stage' : Stage} {e : Event}
    (old : (s.launches launch).midway = true)
    (new : ∀ token name, stage' ≠ .created token name) :
    StepKind s e (s.clearRuntimeShmemState.setStage launch stage') := by
  have cleared : Alike s s.clearRuntimeShmemState := ⟨fun _ _ _ => .rfl, id, rfl, rfl, rfl⟩
  exact .cleared (cleared.setStage old new) rfl rfl

theorem step_kind (later : ∀ i, s.next ≤ i → s.launches i = .idle) (e : Event) :
    StepKind s e (s.step e) := by
  cases e with
  | start running hasRunningProcess =>
    obtain ⟨token, name, shmem, failing⟩ := start_frame running hasRunningProcess later
    exact .kept (start_alike running hasRunningProcess later) failing token name shmem
  | clear launch =>
    simp only [step]
    split <;> rename_i stage
    · exact .clearStage (by rw [stage]; rfl) nofun
    · exact .clearStage (by rw [stage]; rfl) nofun
    · exact .same _
  | createShmem launch made =>
    simp only [step]
    split <;> rename_i stage
    · exact .created stage
    · exact .setStage stage rfl nofun nofun
    · exact .same _
  | setRuntimeIpcToken launch =>
    simp only [step]
    split
    · exact .set ‹_›
    · exact .same _
  | runProcess launch result =>
    simp only [step]
    split <;> rename_i stage
    · exact .setStage stage rfl nofun nofun
    · exact .setStage stage rfl nofun nofun
    · exact .setStage stage rfl nofun nofun
    · exact .same _
  | endFailed launch =>
    simp only [step]
    split <;> rename_i stage
    · have ended : StepKind s (.endFailed launch) (s.setStage launch .idle) :=
        .setStage stage rfl nofun nofun
      cases ended with
      | kept alike failing token name shmem =>
        exact .kept ⟨alike.created, alike.later, rfl, rfl, rfl⟩ failing rfl rfl rfl
      | cleared alike token name =>
        exact .cleared ⟨alike.created, alike.later, rfl, rfl, rfl⟩ token name
    · exact .same _
  | consume candidate =>
    simp only [step, consumeRuntimeIpcTokenIfMatch]
    split
    · exact .consumed ‹_›
    · exact .same _
  | handshakeDone h =>
    simp only [step]
    split
    · exact .succeeded ‹_›
    · exact .same _
  | restore h =>
    simp only [step]
    split
    · exact .restored ‹_›
    · exact .same _
  | shutdown => exact .cleared ⟨fun _ _ _ => .rfl, id, rfl, rfl, rfl⟩ rfl rfl
  | resetStarting =>
    exact .kept ⟨fun _ _ _ => .rfl, id, rfl, rfl, rfl⟩ (fun _ => id) rfl rfl rfl

/-- **Tokens stay apart.** -/
theorem placed_step (placed : Placed place s) (e : Event) (fresh : s.Fresh e) :
    ∃ place', Placed place' (s.step e) := by
  generalize after : s.step e = s'
  have kind := after ▸ step_kind placed.later e
  cases kind with
  | kept alike _ token _ _ => exact ⟨place, placed.alike alike fun t current => token ▸ current⟩
  | cleared alike token _ =>
    exact ⟨place, placed.alike alike fun t current => nomatch token.symm.trans current⟩
  | created stage => exact ⟨_, placed_createShmem placed stage fresh.1⟩
  | set stage => exact ⟨_, placed_setToken placed stage⟩
  | consumed accepted => exact ⟨_, placed_consume placed accepted⟩
  | succeeded mem => exact ⟨_, placed_handshakeDone placed mem⟩
  | restored mem => exact placed_restore placed mem

theorem bound_createShmem (bound : Bound s) {launch : Nat} {token : IpcToken} {name : String}
    (fresh : name ∉ s.made.map Prod.snd) : Bound (s.createShmem launch token name) := by
  obtain ⟨made, named, current, handshakes, -⟩ := createShmem_frame (s := s) launch token name
  have unnamed : ∀ t, (t, name) ∉ s.made := fun t mem =>
    fresh (List.mem_map.mpr ⟨(t, name), mem, rfl⟩)
  constructor
  · rw [made]
    intro t t' n mem mem'
    rcases List.mem_append.mp mem with old | new <;> rcases List.mem_append.mp mem' with old' | new'
    · exact bound.unique t t' n old old'
    · cases List.mem_singleton.mp new'
      exact absurd old (unnamed t)
    · cases List.mem_singleton.mp new
      exact absurd old' (unnamed t')
    · cases List.mem_singleton.mp new
      cases List.mem_singleton.mp new'
      rfl
  · intro i t n created
    rw [made]
    rcases createShmem_created created with ⟨-, rfl, rfl⟩ | old
    · exact List.mem_append_right _ List.mem_cons_self
    · exact List.mem_append_left _ (bound.launches i t n old)
  · intro t eq
    unfold createShmem
    split
    · exact .inr (.inl ⟨launch, token, name, by simp [setStage], rfl⟩)
    · exact .inr (.inr ⟨⟨launch, by simp [setStage]⟩, rfl⟩)
  · intro i t n created own
    cases named.symm.trans own
    rcases createShmem_created created with ⟨rfl, rfl, -⟩ | old
    · unfold createShmem at created ⊢
      split at created
      · rename_i valid
        rw [if_pos valid]
      · simp [setStage] at created
    · exact absurd (bound.launches i t name old) (unnamed t)
  · intro h mem
    rw [handshakes] at mem
    obtain ⟨n, eq, old⟩ := bound.handshake h mem
    exact ⟨n, eq, made ▸ List.mem_append_left _ old⟩

theorem bound_setToken (bound : Bound s) {launch : Nat} {token : IpcToken} {name : String}
    (stage : s.launches launch = .created token name) (own : s.name = some name) :
    Bound { s.setStage launch .armed with token := some token } := by
  have other : ∀ i t n, (s.setStage launch .armed).launches i = .created t n →
      s.launches i = .created t n := by
    intro i t n created
    have ne : i ≠ launch := by
      rintro rfl
      simp [setStage] at created
    simpa [setStage, ne] using created
  constructor
  · exact bound.unique
  · exact fun i t n created => bound.launches i t n (other i t n created)
  · intro t current
    cases current
    exact .inl ⟨name, bound.launches launch token name stage, own,
      bound.launch launch token name stage own⟩
  · exact fun i t n created => bound.launch i t n (other i t n created)
  · exact bound.handshake

/-- While the slot holds a token that is accepted, no launch has yet to set the token that
the slot was made with. -/
theorem no_launch (placed : Placed place s) (bound : Bound s) {token : IpcToken}
    (current : s.token = some token) (slot : s.shmem = some (some token)) (i : Nat)
    (token' : IpcToken) (name : String) (created : s.launches i = .created token' name) :
    s.name ≠ some name := by
  intro own
  have slot' := bound.launch i token' name created own
  rw [slot] at slot'
  cases slot'
  exact nomatch (placed.launch i _ name created).symm.trans (placed.token _ current)

theorem bound_consume (placed : Placed place s) (bound : Bound s) {candidate : IpcToken}
    (accepted : s.accepts candidate = true) (slot : s.shmem = some (some candidate)) :
    Bound { s with
      token := none
      shmem := s.shmem.map fun _ => none
      handshakes := s.handshakes ++ [⟨candidate, s.name⟩] } := by
  have current := (accepts_iff.mp accepted).1
  have unset := no_launch placed bound current slot
  constructor
  · exact bound.unique
  · exact bound.launches
  · exact nofun
  · exact fun i t n created own => absurd own (unset i t n created)
  · intro h mem
    rcases List.mem_append.mp mem with old | new
    · exact bound.handshake h old
    · rw [List.mem_singleton.mp new]
      rcases bound.token candidate current with ⟨n, made, own, -⟩ | ⟨i, t, n, created, own⟩ |
        ⟨-, empty⟩
      · exact ⟨n, own, made⟩
      · exact absurd own (unset i t n created)
      · exact nomatch slot.symm.trans empty

theorem bound_erase (bound : Bound s) (h : Handshake) :
    Bound { s with handshakes := s.handshakes.erase h } :=
  { bound with handshake := fun h' mem => bound.handshake h' (List.mem_of_mem_erase mem) }

theorem bound_restore (placed : Placed place s) (bound : Bound s) {h : Handshake}
    (mem : h ∈ s.handshakes) :
    Bound ({ s with handshakes := s.handshakes.erase h }.restoreRuntimeIpcTokenAfterFailedHandshake
      h.consumedToken h.consumedTokenShmemName) := by
  have erased := bound_erase bound h
  obtain ⟨name, found, made⟩ := bound.handshake h mem
  rcases restore_cases (s := { s with handshakes := s.handshakes.erase h }) h.consumedToken
    h.consumedTokenShmemName with same | forgotten | ⟨named, -, -, given⟩
  · rw [same]
    exact erased
  · rw [forgotten]
    exact { erased with token := nofun }
  · rw [given]
    have own : s.name = some name := named.trans found
    refine ⟨bound.unique, bound.launches, ?_, ?_, erased.handshake⟩
    · intro t current
      cases current
      exact .inl ⟨name, made, own, rfl⟩
    · intro i t n created own'
      cases own.symm.trans own'
      have same := bound.unique _ _ _ made (bound.launches i t name created)
      subst same
      exact nomatch (placed.consumed h mem).symm.trans (placed.launch i _ name created)

theorem bound_step (placed : Placed place s) (bound : Bound s) (e : Event) (fresh : s.Fresh e)
    (order : s.InOrder e) : Bound (s.step e) := by
  generalize after : s.step e = s'
  have kind := after ▸ step_kind placed.later e
  cases kind with
  | kept alike failing token name shmem => exact bound.alike alike failing token name shmem
  | cleared alike token name => exact bound.cleared alike token name
  | created _ => exact bound_createShmem bound fresh.2
  | set stage => exact bound_setToken bound stage (order _ _ stage)
  | consumed accepted => exact bound_consume placed bound accepted (order accepted)
  | succeeded mem => exact { bound_erase bound _ with }
  | restored mem => exact bound_restore placed bound mem

theorem placed_init : Placed (fun _ => .unmade) {} :=
  ⟨fun _ made => absurd rfl made, nofun, nofun, nofun, List.nodup_nil, nofun, fun _ _ => rfl⟩

theorem bound_init : Bound {} := ⟨nofun, nofun, nofun, nofun, nofun⟩

theorem restore_newer {h : Handshake} {current : IpcToken} (found : s.token = some current)
    (ne : current ≠ h.consumedToken) :
    (s.step (.restore h)).token = some current ∧ (s.step (.restore h)).shmem = s.shmem := by
  simp only [step]
  split
  · simp [restoreRuntimeIpcTokenAfterFailedHandshake, found, ne]
  · exact ⟨found, rfl⟩

theorem tokenSafe (placed : Placed place s) (bound : Bound s) : s.TokenSafe := by
  constructor
  · intro token spent
    by_contra accepted
    have current := (accepts_iff.mp (Bool.not_eq_false _ ▸ accepted)).1
    exact nomatch (placed.spent token spent).symm.trans (placed.token token current)
  · exact fun h current => restore_newer
  · intro h mem given
    obtain ⟨name, found, made⟩ := bound.handshake h mem
    simp only [step, if_pos mem] at given
    rcases restore_cases (s := { s with handshakes := s.handshakes.erase h }) h.consumedToken
      h.consumedTokenShmemName with same | forgotten | ⟨named, -, -, -⟩
    · rw [same] at given
      exact nomatch (placed.consumed h mem).symm.trans (placed.token _ given)
    · rw [forgotten] at given
      exact nomatch given
    · exact ⟨name, named.trans found, made⟩
  · intro idle token current
    rcases bound.token token current with ⟨_, -, -, slot⟩ | ⟨i, t, n, created, -⟩ |
      ⟨⟨i, failing⟩, -⟩
    · exact slot
    · exact nomatch (idle i).symm.trans created
    · exact nomatch (idle i).symm.trans failing

end Runtime

/-- **The token follows its shared memory.** In every run with fresh tokens and names in
which launches, handshakes and clearing stay in order, the token is one-time and that of
the current shared memory. -/
theorem ipc_token_follows_shmem (es : List Event)
    (fresh : Runs.Along Runtime.step Runtime.Fresh {} es)
    (order : Runs.Along Runtime.step Runtime.InOrder {} es) : (Runtime.after es).TokenSafe := by
  have both := Runs.along_and.mpr ⟨fresh, order⟩
  have invariant : (∃ place, Placed place (Runtime.after es)) ∧ Bound (Runtime.after es) := by
    refine Runs.invariant (I := fun s => (∃ place, Placed place s) ∧ Bound s) ?_
      ⟨⟨_, Runtime.placed_init⟩, Runtime.bound_init⟩ both
    rintro s e ⟨⟨place, placed⟩, bound⟩ ⟨fresh, order⟩
    exact ⟨Runtime.placed_step placed e fresh, Runtime.bound_step placed bound e fresh order⟩
  obtain ⟨⟨place, placed⟩, bound⟩ := invariant
  exact Runtime.tokenSafe placed bound

def sampleToken (digit : Char) : IpcToken := List.replicate 64 digit

/-- A launch, a handshake that fails and one that succeeds. -/
def launchOnce : List Event :=
  [.start false false, .clear 0, .createShmem 0 (some (sampleToken 'a', "shmem_1")),
    .setRuntimeIpcToken 0, .runProcess 0 .started, .consume (sampleToken 'a'),
    .restore ⟨sampleToken 'a', some "shmem_1"⟩, .consume (sampleToken 'a'),
    .handshakeDone ⟨sampleToken 'a', some "shmem_1"⟩]

/-- The token is not accepted any more. -/
theorem ipc_token_follows_shmem_once :
    sampleToken 'a' ∈ (Runtime.after launchOnce).succeeded ∧
      (Runtime.after launchOnce).accepts (sampleToken 'a') = false := by
  have spent : sampleToken 'a' ∈ (Runtime.after launchOnce).succeeded := by decide +kernel
  have fresh : Runs.Along Runtime.step Runtime.Fresh {} launchOnce :=
    ⟨trivial, trivial, ⟨nofun, nofun⟩, trivial, trivial, trivial, trivial, trivial, trivial,
      trivial⟩
  refine ⟨spent, (ipc_token_follows_shmem launchOnce fresh ?_).once _ spent⟩
  refine ⟨trivial, trivial, trivial, ?_, trivial, ?_, trivial, ?_, trivial, trivial⟩
  · intro token name created
    have stage : (Runtime.after (launchOnce.take 3)).launches 0 =
        .created (sampleToken 'a') "shmem_1" := by decide +kernel
    cases stage.symm.trans created
    have own : (Runtime.after (launchOnce.take 3)).name = some "shmem_1" := by decide +kernel
    exact own
  · intro _
    have slot : (Runtime.after (launchOnce.take 5)).shmem = some (some (sampleToken 'a')) := by
      decide +kernel
    exact slot
  · intro _
    have slot : (Runtime.after (launchOnce.take 7)).shmem = some (some (sampleToken 'a')) := by
      decide +kernel
    exact slot

/-- A second call finds `STARTING` without a process and takes it for stale, while the
first one has made its shared memory and not yet set its token. -/
def overlappingLaunches : List Event :=
  [.start false false, .clear 0, .createShmem 0 (some (sampleToken 'a', "shmem_1")),
    .start false false, .clear 1, .createShmem 1 (some (sampleToken 'b', "shmem_2")),
    .setRuntimeIpcToken 1, .runProcess 1 .started, .setRuntimeIpcToken 0, .runProcess 0 .started]

/-- The server accepts the token of the first call, the slot holds that of the second. -/
theorem overlapping_launches_mix_tokens :
    Runs.Along Runtime.step Runtime.Fresh {} overlappingLaunches ∧
      ¬ (Runtime.after overlappingLaunches).TokenSafe := by
  have fresh : Runs.Along Runtime.step Runtime.Fresh {} overlappingLaunches :=
    ⟨trivial, trivial, ⟨nofun, nofun⟩, trivial, trivial, ⟨by decide +kernel, by decide +kernel⟩,
      trivial, trivial, trivial, trivial, trivial⟩
  refine ⟨fresh, fun safe => ?_⟩
  obtain ⟨place, placed⟩ := Runs.invariant (I := fun s => ∃ place, Placed place s)
    (fun s e placed fresh => Runtime.placed_step placed.choose_spec e fresh)
    ⟨_, Runtime.placed_init⟩ fresh
  have idle : ∀ launch, (Runtime.after overlappingLaunches).launches launch = .idle := by
    intro launch
    by_cases first : launch < 2
    · have both : ∀ i < 2, (Runtime.after overlappingLaunches).launches i = .idle := by
        decide +kernel
      exact both launch first
    · have next : (Runtime.after overlappingLaunches).next = 2 := by decide +kernel
      exact placed.later launch (next ▸ Nat.le_of_not_lt first)
  have slot := safe.slot idle (sampleToken 'a') (by decide +kernel)
  exact absurd slot (by decide +kernel)

end CamelliaRemote.PortableService
