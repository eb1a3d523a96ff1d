import CamelliaRemote.Lib.LexicalPath
import CamelliaRemote.Lib.Runs

/-!
The removal summary, `FileRemoveLogControl` of `src/server/connection.rs`. A client that deletes a
tree reports its files and directories one by one. The control collects them, drops what a removed
directory makes redundant, and a timer sends what is left once nothing was removed for a second.
Times are in nanoseconds. A call of `on_remove_file` or `on_remove_dir` has a number.
-/

namespace CamelliaRemote.RemoveLog
open Runs

/-- A path of `std::path`: it compares by its components, and its parent drops the last one. -/
class StdPath (P : Type) (C : outParam Type) where
  components : P → List C
  parent : P → Option P
  components_parent : ∀ {path base : P}, parent path = some base →
    ∃ last, components path = components base ++ [last]

instance : StdPath (List Char) (UnixPath.Component Char) :=
  ⟨UnixPath.components, UnixPath.parent, UnixPath.components_parent⟩

open StdPath

variable {P C : Type} [StdPath P C] [DecidableEq C]

/-- A `FileRemoveFile` or a `FileRemoveDir`, and the number of the call that brought it. -/
structure Removal (P : Type) where
  id : Int
  path : P
  call : Nat

/-- `FileActionLog`, with the number of the call. -/
structure Log (P : Type) where
  id : Int
  connId : Int
  path : P
  dir : Bool
  call : Nat
  deriving DecidableEq

structure State (P : Type) where
  connId : Int
  instant : Nat
  removedFiles : List (Removal P) := []
  removedDirs : List (Removal P) := []
  calls : Nat := 0
  /-- What was removed since the last drain. -/
  removed : List P := []

inductive Event (P : Type) where
  | removeFile (id : Int) (path : P) (now : Nat)
  | removeDir (id : Int) (path : P) (now : Nat)
  | timer (now : Nat)

def directChild (parent child : P) : Bool :=
  (StdPath.parent child).map components = some (components parent)

namespace State
variable (s : State P)

def log (r : Removal P) (dir : Bool) : Log P := ⟨r.id, s.connId, r.path, dir, r.call⟩

def elapsedSecs (now : Nat) : Nat := (now - s.instant) / 1000000000

def onRemoveFile (id : Int) (path : P) (now : Nat) : Log P × State P :=
  let f : Removal P := ⟨id, path, s.calls⟩
  (s.log f false,
    { s with
      instant := now
      removedFiles := s.removedFiles ++ [f]
      calls := s.calls + 1
      removed := s.removed ++ [path] })

def onRemoveDir (id : Int) (path : P) (now : Nat) : Log P × State P :=
  let d : Removal P := ⟨id, path, s.calls⟩
  let files := s.removedFiles.filter fun f => !directChild f.path d.path
  let dirs := s.removedDirs.filter fun x => !directChild d.path x.path
  (s.log d true,
    { s with
      instant := now
      removedFiles := files
      removedDirs := if dirs.any fun x => directChild x.path d.path then dirs else dirs ++ [d]
      calls := s.calls + 1
      removed := s.removed ++ [path] })

def onTimer (now : Nat) : List (Log P) × State P :=
  if s.elapsedSecs now < 1 then ([], s)
  else
    (s.removedFiles.map (s.log · false) ++ s.removedDirs.map (s.log · true),
      { s with removedFiles := [], removedDirs := [], removed := [] })

def step : Event P → State P
  | .removeFile id path now => (s.onRemoveFile id path now).2
  | .removeDir id path now => (s.onRemoveDir id path now).2
  | .timer now => (s.onTimer now).2

def start (connId : Int) (instant : Nat) : State P := { connId, instant }

/-- What a draining timer returns for what was removed, and what it leaves. -/
structure Summary (removed : List P) (batch : List (Log P)) (left : State P) :
    Prop where
  complete : ∀ path ∈ removed, ∃ l ∈ batch,
    l.path = path ∨ l.dir = true ∧ components l.path <+: components path
  minimal : ∀ d ∈ batch, d.dir = true → ∀ l ∈ batch, l.call < d.call →
    directChild d.path l.path = false
  empty : left.removedFiles = [] ∧ left.removedDirs = []

/-- Whenever the next timer drains, its batch is the summary. -/
def Exact : Prop :=
  ∀ now, 1 ≤ s.elapsedSecs now → Summary s.removed (s.onTimer now).1 (s.onTimer now).2

/-- A directory is removed when the files of the batch that are its direct parent lie in other
directories of the batch, and no file of the batch lies directly in it, unless a directory of the
batch is its direct parent. -/
def InOrder : Event P → Prop
  | .removeDir _ d _ =>
    (∀ f ∈ s.removedFiles, directChild f.path d = true →
      ∃ x ∈ s.removedDirs, components x.path <+: components f.path) ∧
    ((∀ x ∈ s.removedDirs, directChild x.path d = false) →
      ∀ f ∈ s.removedFiles, directChild d f.path = false)
  | _ => True

/-- A path lies in a directory of the batch. -/
def InDirs (path : P) : Prop := ∃ x ∈ s.removedDirs, components x.path <+: components path

/-- What is so whatever was removed: the directories of the batch are no direct parents of each
other, and the batch is of calls so far. -/
structure Inv : Prop where
  apart : ∀ x ∈ s.removedDirs, ∀ y ∈ s.removedDirs, directChild x.path y.path = false
  filesBefore : ∀ f ∈ s.removedFiles, f.call < s.calls
  dirsBefore : ∀ x ∈ s.removedDirs, x.call < s.calls
  filesRemoved : ∀ f ∈ s.removedFiles, f.path ∈ s.removed

/-- The summary by the two lists. -/
structure Collected : Prop where
  complete : ∀ path ∈ s.removed, (∃ f ∈ s.removedFiles, f.path = path) ∨ s.InDirs path
  minimal : ∀ d ∈ s.removedDirs, ∀ f ∈ s.removedFiles, f.call < d.call →
    directChild d.path f.path = false

end State

theorem components_child {parent child : P} (h : directChild parent child = true) :
    ∃ last, components child = components parent ++ [last] := by
  simp only [directChild, decide_eq_true_eq, Option.map_eq_some_iff] at h
  obtain ⟨base, up, same⟩ := h
  rw [← same]
  exact components_parent up

theorem not_prefix_of_child {parent child : P} (h : directChild parent child = true) :
    ¬ components child <+: components parent := by
  obtain ⟨last, eq⟩ := components_child h
  intro inside
  have shorter := inside.length_le
  rw [eq, List.length_append] at shorter
  exact absurd shorter (by simp)

theorem prefix_of_child {parent child : P} (h : directChild parent child = true) :
    components parent <+: components child := by
  obtain ⟨last, eq⟩ := components_child h
  rw [eq]
  exact List.prefix_append _ _

theorem child_asymm {parent child : P} (h : directChild parent child = true) :
    directChild child parent = false := by
  cases other : directChild child parent with
  | false => rfl
  | true => exact absurd (prefix_of_child other) (not_prefix_of_child h)

namespace State
variable {s : State P}

theorem mem_filesAfter {id : Int} {d : P} {now : Nat} {f : Removal P} :
    f ∈ (s.onRemoveDir id d now).2.removedFiles ↔
      f ∈ s.removedFiles ∧ directChild f.path d = false := by
  simp [onRemoveDir]

/-- A directory stays unless the new one is its direct parent; the new one is added unless it has
its direct parent there. -/
theorem mem_dirsAfter {id : Int} {d : P} {now : Nat} {x : Removal P} :
    x ∈ (s.onRemoveDir id d now).2.removedDirs ↔
      x ∈ s.removedDirs ∧ directChild d x.path = false ∨
        x = ⟨id, d, s.calls⟩ ∧ ∀ y ∈ s.removedDirs, directChild y.path d = false := by
  have parents : (s.removedDirs.filter fun x => !directChild d x.path).any
      (fun x => directChild x.path d) = false ↔
        ∀ y ∈ s.removedDirs, directChild y.path d = false := by
    simp only [List.any_eq_false, List.mem_filter, Bool.not_eq_true', and_imp, Bool.not_eq_true]
    constructor
    · intro h y mem
      cases child : directChild y.path d with
      | false => rfl
      | true => rw [← child, h y mem (child_asymm child)]
    · intro h y mem _
      exact h y mem
  simp only [onRemoveDir]
  split
  · rename_i found
    have stays : ¬ ∀ y ∈ s.removedDirs, directChild y.path d = false := by
      rw [← parents, found]
      exact fun h => by cases h
    simp [stays]
  · rename_i missing
    rw [Bool.not_eq_true, parents] at missing
    simp [and_iff_left missing]

omit [DecidableEq C] in
theorem InDirs.below {path inner : P} (h : s.InDirs path)
    (inside : components path <+: components inner) : s.InDirs inner := by
  obtain ⟨x, mem, around⟩ := h
  exact ⟨x, mem, around.trans inside⟩

/-- The directory lies in the batch, as itself or in its parent. -/
theorem inDirs_onRemoveDir (id : Int) (d : P) (now : Nat) :
    (s.onRemoveDir id d now).2.InDirs d := by
  by_cases top : ∀ y ∈ s.removedDirs, directChild y.path d = false
  · exact ⟨_, mem_dirsAfter.mpr (.inr ⟨rfl, top⟩), List.prefix_refl _⟩
  · push Not at top
    obtain ⟨y, mem, parent⟩ := top
    rw [ne_eq, Bool.not_eq_false] at parent
    exact ⟨y, mem_dirsAfter.mpr (.inl ⟨mem, child_asymm parent⟩), prefix_of_child parent⟩

/-- What lay in a directory of the batch does so after the next directory. -/
theorem InDirs.onRemoveDir {path d : P} (h : s.InDirs path) (id : Int) (now : Nat) :
    (s.onRemoveDir id d now).2.InDirs path := by
  obtain ⟨x, mem, inside⟩ := h
  cases child : directChild d x.path with
  | false => exact ⟨x, mem_dirsAfter.mpr (.inl ⟨mem, child⟩), inside⟩
  | true => exact (inDirs_onRemoveDir id d now).below ((prefix_of_child child).trans inside)

theorem Inv.onRemoveFile (inv : Inv s) (id : Int) (path : P) (now : Nat) :
    Inv (s.onRemoveFile id path now).2 where
  apart := inv.apart
  filesBefore f mem := by
    rcases List.mem_append.mp mem with mem | mem
    · exact Nat.lt_succ_of_lt (inv.filesBefore f mem)
    · rw [List.mem_singleton.mp mem]
      exact Nat.lt_succ_self _
  dirsBefore x mem := Nat.lt_succ_of_lt (inv.dirsBefore x mem)
  filesRemoved f mem := by
    rcases List.mem_append.mp mem with mem | mem
    · exact List.mem_append_left _ (inv.filesRemoved f mem)
    · rw [List.mem_singleton.mp mem]
      exact List.mem_append_right _ (List.mem_singleton_self _)

theorem Inv.onRemoveDir (inv : Inv s) (id : Int) (d : P) (now : Nat) :
    Inv (s.onRemoveDir id d now).2 where
  apart x memX y memY := by
    rcases mem_dirsAfter.mp memX with ⟨inX, stayX⟩ | ⟨rfl, topX⟩
    · rcases mem_dirsAfter.mp memY with ⟨inY, -⟩ | ⟨rfl, topY⟩
      · exact inv.apart x inX y inY
      · exact topY x inX
    · rcases mem_dirsAfter.mp memY with ⟨-, stayY⟩ | ⟨rfl, -⟩
      · exact stayY
      · cases self : directChild d d with
        | false => rfl
        | true => rw [← self, child_asymm self]
  filesBefore f mem := Nat.lt_succ_of_lt (inv.filesBefore f (mem_filesAfter.mp mem).1)
  dirsBefore x mem := by
    rcases mem_dirsAfter.mp mem with ⟨mem, -⟩ | ⟨rfl, -⟩
    · exact Nat.lt_succ_of_lt (inv.dirsBefore x mem)
    · exact Nat.lt_succ_self _
  filesRemoved f mem := List.mem_append_left _ (inv.filesRemoved f (mem_filesAfter.mp mem).1)

theorem Inv.onTimer (inv : Inv s) (now : Nat) : Inv (s.onTimer now).2 := by
  unfold State.onTimer
  split
  · exact inv
  · exact {
      apart := fun _ mem => absurd mem List.not_mem_nil
      filesBefore := fun _ mem => absurd mem List.not_mem_nil
      dirsBefore := fun _ mem => absurd mem List.not_mem_nil
      filesRemoved := fun _ mem => absurd mem List.not_mem_nil }

theorem Inv.step (inv : Inv s) (e : Event P) : Inv (s.step e) := by
  cases e with
  | removeFile id path now => exact inv.onRemoveFile id path now
  | removeDir id path now => exact inv.onRemoveDir id path now
  | timer now => exact inv.onTimer now

omit [DecidableEq C] in
theorem onTimer_of_draining {now : Nat} (drains : 1 ≤ s.elapsedSecs now) :
    s.onTimer now =
      (s.removedFiles.map (s.log · false) ++ s.removedDirs.map (s.log · true),
        { s with removedFiles := [], removedDirs := [], removed := [] }) :=
  if_neg (Nat.not_lt.mpr drains)

omit [DecidableEq C] in
theorem draining (s : State P) : 1 ≤ s.elapsedSecs (s.instant + 1000000000) := by
  simp [elapsedSecs]

/-- The batch is the summary exactly when the two lists are. -/
theorem exact_iff (inv : Inv s) : s.Exact ↔ s.Collected := by
  constructor
  · intro exact'
    obtain ⟨complete, minimal, -⟩ := exact' _ s.draining
    rw [onTimer_of_draining s.draining] at complete minimal
    refine ⟨fun path mem => ?_, fun d memD f memF earlier => ?_⟩
    · obtain ⟨l, logged, covers⟩ := complete path mem
      rcases List.mem_append.mp logged with logged | logged
      · obtain ⟨f, memF, rfl⟩ := List.mem_map.mp logged
        rcases covers with same | ⟨dir, -⟩
        · exact .inl ⟨f, memF, same⟩
        · cases dir
      · obtain ⟨x, memX, rfl⟩ := List.mem_map.mp logged
        refine .inr ⟨x, memX, ?_⟩
        rcases covers with same | ⟨-, inside⟩
        · rw [← same]
          exact List.prefix_refl _
        · exact inside
    · exact minimal (s.log d true) (List.mem_append_right _ (List.mem_map_of_mem memD)) rfl
        (s.log f false) (List.mem_append_left _ (List.mem_map_of_mem memF)) earlier
  · rintro ⟨complete, minimal⟩ now drains
    rw [onTimer_of_draining drains]
    refine ⟨fun path mem => ?_, fun d memD dir l memL earlier => ?_, rfl, rfl⟩
    · rcases complete path mem with ⟨f, memF, same⟩ | ⟨x, memX, inside⟩
      · exact ⟨s.log f false, List.mem_append_left _ (List.mem_map_of_mem memF), .inl same⟩
      · exact ⟨s.log x true, List.mem_append_right _ (List.mem_map_of_mem memX),
          .inr ⟨rfl, inside⟩⟩
    · rcases List.mem_append.mp memD with memD | memD
      · obtain ⟨f, -, rfl⟩ := List.mem_map.mp memD
        cases dir
      · obtain ⟨x, memX, rfl⟩ := List.mem_map.mp memD
        rcases List.mem_append.mp memL with memL | memL
        · obtain ⟨f, memF, rfl⟩ := List.mem_map.mp memL
          exact minimal x memX f memF earlier
        · obtain ⟨y, memY, rfl⟩ := List.mem_map.mp memL
          exact inv.apart x memX y memY

theorem Collected.onRemoveFile (inv : Inv s) (h : s.Collected) (id : Int) (path : P) (now : Nat) :
    (s.onRemoveFile id path now).2.Collected where
  complete p mem := by
    rcases List.mem_append.mp mem with mem | mem
    · rcases h.complete p mem with ⟨f, memF, same⟩ | inside
      · exact .inl ⟨f, List.mem_append_left _ memF, same⟩
      · exact .inr inside
    · rw [List.mem_singleton.mp mem]
      exact .inl ⟨_, List.mem_append_right _ (List.mem_singleton_self _), rfl⟩
  minimal d memD f memF earlier := by
    rcases List.mem_append.mp memF with memF | memF
    · exact h.minimal d memD f memF earlier
    · rw [List.mem_singleton.mp memF] at earlier
      exact absurd earlier (Nat.lt_asymm (inv.dirsBefore d memD))

/-- **One directory.** The lists are the summary after a directory exactly when it was removed in
order. -/
theorem collected_onRemoveDir (inv : Inv s) (h : s.Collected) (id : Int) (d : P) (now : Nat) :
    (s.onRemoveDir id d now).2.Collected ↔ s.InOrder (.removeDir id d now) := by
  constructor
  · rintro ⟨complete, minimal⟩
    refine ⟨fun f mem child => ?_, fun top f mem => ?_⟩
    · have still := complete f.path (List.mem_append_left _ (inv.filesRemoved f mem))
      rcases still with ⟨g, memG, same⟩ | ⟨x, memX, inside⟩
      · have stays := (mem_filesAfter.mp memG).2
        rw [same, child] at stays
        cases stays
      · rcases mem_dirsAfter.mp memX with ⟨memX, -⟩ | ⟨rfl, -⟩
        · exact ⟨x, memX, inside⟩
        · exact absurd inside (not_prefix_of_child child)
    · cases child : directChild d f.path with
      | false => rfl
      | true =>
        rw [← child]
        exact minimal _ (mem_dirsAfter.mpr (.inr ⟨rfl, top⟩)) f
          (mem_filesAfter.mpr ⟨mem, child_asymm child⟩) (inv.filesBefore f mem)
  · rintro ⟨parents, children⟩
    refine ⟨fun path mem => ?_, fun x memX f memF earlier => ?_⟩
    · rcases List.mem_append.mp mem with mem | mem
      · rcases h.complete path mem with ⟨f, memF, rfl⟩ | inside
        · cases child : directChild f.path d with
          | false => exact .inl ⟨f, mem_filesAfter.mpr ⟨memF, child⟩, rfl⟩
          | true => exact .inr (InDirs.onRemoveDir (parents f memF child) id now)
        · exact .inr (inside.onRemoveDir id now)
      · rw [List.mem_singleton.mp mem]
        exact .inr (inDirs_onRemoveDir id d now)
    · have was := (mem_filesAfter.mp memF).1
      rcases mem_dirsAfter.mp memX with ⟨memX, -⟩ | ⟨rfl, top⟩
      · exact h.minimal x memX f was earlier
      · exact children top f was

theorem Collected.onTimer (h : s.Collected) (now : Nat) : (s.onTimer now).2.Collected := by
  unfold State.onTimer
  split
  · exact h
  · exact {
      complete := fun _ mem => absurd mem List.not_mem_nil
      minimal := fun _ mem => absurd mem List.not_mem_nil }

/-- What a step does to the summary. -/
theorem exact_step (inv : Inv s) (h : s.Exact) (e : Event P) :
    (s.step e).Exact ↔ s.InOrder e := by
  have collected := (exact_iff inv).mp h
  rw [exact_iff (inv.step e)]
  cases e with
  | removeFile id path now => exact iff_of_true (collected.onRemoveFile inv id path now) trivial
  | removeDir id path now => exact collected_onRemoveDir inv collected id path now
  | timer now => exact iff_of_true (collected.onTimer now) trivial

theorem inv_start (connId : Int) (instant : Nat) : Inv (start (P := P) connId instant) where
  apart _ mem := absurd mem List.not_mem_nil
  filesBefore _ mem := absurd mem List.not_mem_nil
  dirsBefore _ mem := absurd mem List.not_mem_nil
  filesRemoved _ mem := absurd mem List.not_mem_nil

theorem exact_start (connId : Int) (instant : Nat) : (start (P := P) connId instant).Exact :=
  (exact_iff (inv_start connId instant)).mpr
    { complete := fun _ mem => absurd mem List.not_mem_nil
      minimal := fun _ mem => absurd mem List.not_mem_nil }

theorem along_exact_iff (inv : Inv s) (h : s.Exact) (events : List (Event P)) :
    Along step (fun s e => (s.step e).Exact) s events ↔ Along step InOrder s events := by
  induction events generalizing s with
  | nil => rfl
  | cons e es ih =>
    have first := exact_step inv h e
    simp only [Along, first]
    exact and_congr_right fun ok => ih (inv.step e) (first.mpr ok)

/-- **The removal summary.** After every call and every tick the next draining timer returns the
complete and minimal summary of what was removed, exactly when the directories are removed in
order. -/
theorem summary_exact (connId : Int) (instant : Nat) (events : List (Event P)) :
    Along step (fun s e => (s.step e).Exact) (start connId instant) events ↔
      Along step InOrder (start connId instant) events :=
  along_exact_iff (inv_start connId instant) (exact_start connId instant) events

/-- A tree that is deleted from its leaves: the file stays in the batch beside its directory. -/
theorem file_beside_its_directory :
    ¬ ∀ events : List (Event (List Char)), (Runs.run step (start 1 0) events).Exact := by
  intro all
  have exact' := all [.removeFile 1 ['/', 'a', '/', 'f'] 0, .removeDir 1 ['/', 'a'] 0]
  have minimal := (exact' _ (draining _)).minimal ⟨1, 1, ['/', 'a'], true, 1⟩ (by decide) rfl
    ⟨1, 1, ['/', 'a', '/', 'f'], false, 0⟩ (by decide) (by decide)
  exact absurd minimal (by decide)

end State
end CamelliaRemote.RemoveLog
