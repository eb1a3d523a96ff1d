import CamelliaRemote.Clipboard.LocalFile
import CamelliaRemote.Lib.LexicalPath
import CamelliaRemote.Lib.LinkedFiles

namespace CamelliaRemote.Clipboard.Linked
open Codec UnixPath LinkedFiles

/-- What a directory is read to hold: the paths of its entries. -/
def Child (fs : Fs) (dir path : Bytes) : Prop :=
  ∃ mt entries name, fs.metadata dir = .ok mt ∧ mt.isDir = true ∧ fs.readDir dir = .ok entries ∧
    .ok name ∈ entries ∧ path = join dir name

/-- The paths that the walk can come by. -/
inductive Spelled (fs : Fs) (paths : List Bytes) : Bytes → Prop where
  | selected {path : Bytes} (h : path ∈ paths) : Spelled fs paths path
  | child {dir path : Bytes} (above : Spelled fs paths dir) (h : Child fs dir path) :
      Spelled fs paths path

/-- A path that is a file, or a directory all of whose entries can be read. -/
def Opens (fs : Fs) (path : Bytes) : Prop :=
  ∃ mt, fs.metadata path = .ok mt ∧
    (mt.isDir = true → ∃ entries, fs.readDir path = .ok entries ∧
      ∀ entry ∈ entries, ∃ name, entry = .ok name)

/-- The system looks at the components of a path, and reads names of entries. -/
structure Componentwise (fs : Fs) : Prop where
  metadata : ∀ p q, components p = components q → fs.metadata p = fs.metadata q
  readDir : ∀ p q, components p = components q → fs.readDir p = fs.readDir q
  names : ∀ dir entries name, fs.readDir dir = .ok entries → .ok name ∈ entries → Name name

/-- The path is in the list, in some spelling. -/
def Seen (walk : Walk) (path : Bytes) : Prop :=
  ∃ f ∈ walk.fileList, components f.path = components path

/-- What one part of the walk adds: every entry of a directory that it adds is seen. -/
structure Extends (fs : Fs) (walk walk' : Walk) : Prop where
  added : ∃ new, walk'.fileList = walk.fileList ++ new ∧
    ∀ f ∈ new, ∀ path, Child fs f.path path → Seen walk' path

/-- What the walk keeps: the visited paths are those of the list, no two of them the
same, and all of them were spelled and opened. -/
structure Kept (fs : Fs) (paths : List Bytes) (walk : Walk) : Prop where
  visited : ∀ path, path ∈ walk.visited ↔ ∃ f ∈ walk.fileList, f.path = path
  distinct : (walk.fileList.map fun f => components f.path).Nodup
  spelled : ∀ f ∈ walk.fileList, Spelled fs paths f.path
  opens : ∀ f ∈ walk.fileList, Opens fs f.path

variable {fs : Fs} {paths : List Bytes} {relativeRoot path dir : Bytes} {fuel : Nat}
  {walk walk' walk'' : Walk}

theorem Seen.mono (h : Seen walk path) (e : Extends fs walk walk') : Seen walk' path := by
  obtain ⟨f, mem, same⟩ := h
  obtain ⟨new, eq, -⟩ := e.added
  refine ⟨f, ?_, same⟩
  rw [eq]
  exact List.mem_append_left _ mem

theorem Extends.refl (walk : Walk) : Extends fs walk walk :=
  ⟨[], (List.append_nil _).symm, fun _ mem => absurd mem List.not_mem_nil⟩

theorem Extends.trans (e : Extends fs walk walk') (e' : Extends fs walk' walk'') :
    Extends fs walk walk'' := by
  obtain ⟨new, eq, closed⟩ := e.added
  obtain ⟨new', eq', closed'⟩ := e'.added
  refine ⟨new ++ new', ?_, ?_⟩
  · rw [eq', eq, List.append_assoc]
  · intro f mem path child
    rcases List.mem_append.mp mem with mem | mem
    · exact (closed f mem path child).mono e'
    · exact closed' f mem path child

theorem seen_iff (kept : Kept fs paths walk) :
    (walk.visited.any fun p => components p = components path) = true ↔ Seen walk path := by
  rw [List.any_eq_true]
  unfold Seen
  constructor
  · rintro ⟨p, mem, same⟩
    obtain ⟨f, memF, rfl⟩ := (kept.visited p).mp mem
    exact ⟨f, memF, of_decide_eq_true same⟩
  · rintro ⟨f, mem, same⟩
    exact ⟨f.path, (kept.visited _).mpr ⟨f, mem, rfl⟩, decide_eq_true same⟩

theorem tryOpen_path {f : LocalFile} (h : LocalFile.tryOpen fs relativeRoot path = .ok f) :
    f.path = path ∧ ∃ mt, fs.metadata path = .ok mt := by
  unfold LocalFile.tryOpen at h
  split at h
  · cases h
  · rename_i mt is
    cases h
    exact ⟨rfl, mt, is⟩

/-- What is promised of a part of the walk that gets so far. -/
def Result (fs : Fs) (paths : List Bytes) (walk : Walk) (goal : Walk → Prop) : Walked → Prop
  | none => True
  | some (.ok walk') => Kept fs paths walk' ∧ Extends fs walk walk' ∧ goal walk'
  | some (.error _) => ∃ path, Spelled fs paths path ∧ ¬ Opens fs path

/-- From further back, to another goal. -/
theorem Result.imp {walk₁ : Walk} {goal goal' : Walk → Prop} {walked : Walked}
    (result : Result fs paths walk₁ goal walked)
    (reaches : ∀ walk', Extends fs walk₁ walk' → goal walk' → Extends fs walk walk' ∧ goal' walk') :
    Result fs paths walk goal' walked := by
  cases walked with
  | none => trivial
  | some ended =>
    cases ended with
    | error e => exact result
    | ok walk' =>
      obtain ⟨kept, ext, there⟩ := result
      exact ⟨kept, reaches walk' ext there⟩

/-- One part after another. -/
theorem Result.andThen {goal goal' : Walk → Prop} {first : Walked} {rest : Walk → Walked} :
    Result fs paths walk goal first →
      (∀ walk₁, Kept fs paths walk₁ → Extends fs walk walk₁ → goal walk₁ →
        Result fs paths walk goal' (rest walk₁)) →
      Result fs paths walk goal' (match first with
        | some (.ok walk) => rest walk
        | stopped => stopped) := by
  intro result later
  cases first with
  | none => trivial
  | some ended =>
    cases ended with
    | error e => exact result
    | ok walk₁ =>
      obtain ⟨kept, ext, there⟩ := result
      exact later walk₁ kept ext there

theorem result_walkEntries {next : Bytes → Walk → Walked} {entries : List (Except String Bytes)}
    (each : ∀ name walk, .ok name ∈ entries → Kept fs paths walk →
      Result fs paths walk (Seen · (join dir name)) (next (join dir name) walk))
    (readable : ∀ entry ∈ entries, ∃ name, entry = .ok name) (kept : Kept fs paths walk) :
    Result fs paths walk (fun walk' => ∀ name, .ok name ∈ entries → Seen walk' (join dir name))
      (walkEntries dir next entries walk) := by
  induction entries generalizing walk with
  | nil => exact ⟨kept, .refl walk, fun name mem => absurd mem List.not_mem_nil⟩
  | cons entry entries ih =>
    cases entry with
    | error e =>
      obtain ⟨name, is⟩ := readable _ List.mem_cons_self
      cases is
    | ok name =>
      refine (each name walk List.mem_cons_self kept).andThen fun walk₁ kept₁ ext₁ seen => ?_
      have rest := ih (fun name walk mem => each name walk (List.mem_cons_of_mem _ mem))
        (fun entry mem => readable entry (List.mem_cons_of_mem _ mem)) kept₁
      refine rest.imp fun walk₂ ext₂ all => ⟨ext₁.trans ext₂, fun other mem => ?_⟩
      rcases List.mem_cons.mp mem with same | mem
      · cases same
        exact seen.mono ext₂
      · exact all other mem

/-- An entry that cannot be read ends the walk. -/
theorem walkEntries_unreadable {next : Bytes → Walk → Walked}
    {entries : List (Except String Bytes)} {e : String} (bad : .error e ∈ entries) :
    walkEntries dir next entries walk ≠ some (.ok walk') := by
  induction entries generalizing walk with
  | nil => cases bad
  | cons entry entries ih =>
    intro ended
    cases entry with
    | error e' => cases ended
    | ok name =>
      have later : .error e ∈ entries := by simpa using bad
      unfold walkEntries at ended
      cases step : next (join dir name) walk with
      | none =>
        rw [step] at ended
        cases ended
      | some result =>
        rw [step] at ended
        cases result with
        | error e' => cases ended
        | ok walk₁ => exact ih later ended

/-- A path that opens and was not seen yet, put in the list. -/
theorem kept_add {f : LocalFile} (kept : Kept fs paths walk) (spelled : Spelled fs paths f.path)
    (opens : Opens fs f.path) (unseen : ¬ Seen walk f.path) :
    Kept fs paths ⟨walk.fileList ++ [f], f.path :: walk.visited⟩ := by
  constructor
  · intro path
    simp only [List.mem_cons, List.mem_append, List.not_mem_nil, or_false]
    rw [kept.visited]
    constructor
    · rintro (rfl | ⟨g, mem, is⟩)
      · exact ⟨f, .inr rfl, rfl⟩
      · exact ⟨g, .inl mem, is⟩
    · rintro ⟨g, mem | rfl, is⟩
      · exact .inr ⟨g, mem, is⟩
      · exact .inl is.symm
  · rw [List.map_append, List.nodup_append]
    refine ⟨kept.distinct, List.pairwise_singleton _ _, ?_⟩
    rintro a mem b last rfl
    obtain ⟨g, memG, is⟩ := List.mem_map.mp mem
    rw [List.map_singleton, List.mem_singleton] at last
    exact unseen ⟨g, memG, is.trans last⟩
  · intro g mem
    rcases List.mem_append.mp mem with mem | mem
    · exact kept.spelled g mem
    · rw [List.mem_singleton.mp mem]
      exact spelled
  · intro g mem
    rcases List.mem_append.mp mem with mem | mem
    · exact kept.opens g mem
    · rw [List.mem_singleton.mp mem]
      exact opens

theorem Opens.readable {mt : Metadata} {entries : List (Except String Bytes)}
    (opens : Opens fs path) (is : fs.metadata path = .ok mt) (isDir : mt.isDir = true)
    (read : fs.readDir path = .ok entries) : ∀ entry ∈ entries, ∃ name, entry = .ok name := by
  obtain ⟨mt', is', readable⟩ := opens
  rw [is] at is'
  cases is'
  obtain ⟨entries', read', all⟩ := readable isDir
  rw [read] at read'
  cases read'
  exact all

theorem Child.among {mt : Metadata} {entries : List (Except String Bytes)}
    (child : Child fs dir path) (is : fs.metadata dir = .ok mt)
    (read : fs.readDir dir = .ok entries) :
    mt.isDir = true ∧ ∃ name, .ok name ∈ entries ∧ path = join dir name := by
  obtain ⟨mt', entries', name, is', isDir, read', mem, spelling⟩ := child
  rw [is] at is'
  cases is'
  rw [read] at read'
  cases read'
  exact ⟨isDir, name, mem, spelling⟩

/-- What is not a directory is put in the list. -/
theorem result_file {f : LocalFile} {mt : Metadata} (is : fs.metadata f.path = .ok mt)
    (isFile : mt.isDir ≠ true) (kept : Kept fs paths walk) (spelled : Spelled fs paths f.path)
    (unseen : ¬ Seen walk f.path) :
    Result fs paths walk (Seen · f.path)
      (some (.ok ⟨walk.fileList ++ [f], f.path :: walk.visited⟩)) := by
  have opens : Opens fs f.path := ⟨mt, is, fun isDir => absurd isDir isFile⟩
  refine ⟨kept_add kept spelled opens unseen, ⟨[f], rfl, ?_⟩, ⟨f, by simp, rfl⟩⟩
  intro g mem path child
  rw [List.mem_singleton.mp mem] at child
  obtain ⟨mt', entries, name, is', isDir, -⟩ := child
  rw [is] at is'
  cases is'
  exact absurd isDir isFile

/-- A directory is put in the list, and then what its entries lead to. -/
theorem result_directory {f : LocalFile} {mt : Metadata} {entries : List (Except String Bytes)}
    {next : Bytes → Walk → Walked} (is : fs.metadata f.path = .ok mt) (isDir : mt.isDir = true)
    (read : fs.readDir f.path = .ok entries) (kept : Kept fs paths walk)
    (spelled : Spelled fs paths f.path) (unseen : ¬ Seen walk f.path)
    (each : ∀ name walk, .ok name ∈ entries → Kept fs paths walk →
      Result fs paths walk (Seen · (join f.path name)) (next (join f.path name) walk)) :
    Result fs paths walk (Seen · f.path)
      (walkEntries f.path next entries ⟨walk.fileList ++ [f], f.path :: walk.visited⟩) := by
  have seen : Seen ⟨walk.fileList ++ [f], f.path :: walk.visited⟩ f.path := ⟨f, by simp, rfl⟩
  by_cases readable : ∀ entry ∈ entries, ∃ name, entry = .ok name
  · have opens : Opens fs f.path := ⟨mt, is, fun _ => ⟨entries, read, readable⟩⟩
    have within := result_walkEntries each readable (kept_add kept spelled opens unseen)
    refine within.imp fun walk₂ ext₂ all => ⟨?_, seen.mono ext₂⟩
    obtain ⟨new, eq, closed⟩ := ext₂.added
    refine ⟨f :: new, by rw [eq, List.append_assoc]; rfl, ?_⟩
    intro g mem path child
    rcases List.mem_cons.mp mem with rfl | mem
    · obtain ⟨-, name, among, rfl⟩ := child.among is read
      exact all name among
    · exact closed g mem path child
  · have fails : ¬ Opens fs f.path := fun opens => readable (opens.readable is isDir read)
    push Not at readable
    obtain ⟨entry, mem, notName⟩ := readable
    cases walked : walkEntries f.path next entries
        ⟨walk.fileList ++ [f], f.path :: walk.visited⟩ with
    | none => trivial
    | some result =>
      cases result with
      | error e => exact ⟨f.path, spelled, fails⟩
      | ok walk₂ =>
        cases entry with
        | ok name => exact absurd rfl (notName name)
        | error e => exact absurd walked (walkEntries_unreadable mem)

theorem result_constrFileLst (relativeRoot : Bytes) (fuel : Nat)
    (spelled : Spelled fs paths path) (kept : Kept fs paths walk) :
    Result fs paths walk (Seen · path) (constrFileLst fs relativeRoot fuel path walk) := by
  induction fuel generalizing path walk with
  | zero => trivial
  | succ fuel ih =>
    unfold constrFileLst
    by_cases visited : (walk.visited.any fun p => components p = components path) = true
    · rw [if_pos visited]
      exact ⟨kept, .refl walk, (seen_iff kept).mp visited⟩
    rw [if_neg visited]
    have unseen := mt (seen_iff kept).mpr visited
    cases opened : LocalFile.tryOpen fs relativeRoot path with
    | error e =>
      refine ⟨path, spelled, fun opens => ?_⟩
      obtain ⟨mt, is, -⟩ := opens
      unfold LocalFile.tryOpen at opened
      rw [is] at opened
      cases opened
    | ok f =>
      obtain ⟨rfl, mt, is⟩ := tryOpen_path opened
      simp only [is]
      by_cases isDir : mt.isDir = true
      · rw [if_pos isDir]
        cases read : fs.readDir f.path with
        | error e =>
          refine ⟨f.path, spelled, fun opens => ?_⟩
          obtain ⟨mt', is', readable⟩ := opens
          rw [is] at is'
          cases is'
          obtain ⟨entries, read', -⟩ := readable isDir
          rw [read] at read'
          cases read'
        | ok entries =>
          refine result_directory is isDir read kept spelled unseen fun name walk mem kept => ?_
          exact ih (.child spelled ⟨mt, entries, name, is, isDir, read, mem, rfl⟩) kept
      · rw [if_neg isDir]
        exact result_file is isDir kept spelled unseen

theorem result_walkPaths (relativeRoot : Bytes) (fuel : Nat) {rest : List Bytes}
    (among : ∀ path ∈ rest, path ∈ paths) (kept : Kept fs paths walk) :
    Result fs paths walk (fun walk' => ∀ path ∈ rest, Seen walk' path)
      (walkPaths fs relativeRoot fuel rest walk) := by
  induction rest generalizing walk with
  | nil => exact ⟨kept, .refl walk, fun path mem => absurd mem List.not_mem_nil⟩
  | cons path rest ih =>
    have first := result_constrFileLst relativeRoot fuel
      (.selected (among path List.mem_cons_self)) kept
    refine first.andThen fun walk₁ kept₁ ext₁ seen => ?_
    have later := ih (fun path mem => among path (List.mem_cons_of_mem _ mem)) kept₁
    refine later.imp fun walk₂ ext₂ all => ⟨ext₁.trans ext₂, fun other mem => ?_⟩
    rcases List.mem_cons.mp mem with rfl | mem
    · exact seen.mono ext₂
    · exact all other mem

theorem kept_start (fs : Fs) (paths : List Bytes) : Kept fs paths {} := by
  constructor
  · intro path
    constructor
    · intro mem
      cases mem
    · rintro ⟨f, mem, -⟩
      cases mem
  · exact List.nodup_nil
  · intro f mem
    cases mem
  · intro f mem
    cases mem

/-- A directory in another spelling has the same children, in another spelling. -/
theorem child_congr (look : Componentwise fs) {other : Bytes}
    (same : components other = components dir) (h : Child fs dir path) :
    ∃ path', Child fs other path' ∧ components path' = components path := by
  obtain ⟨mt, entries, name, is, isDir, read, mem, rfl⟩ := h
  have isName := look.names dir entries name read mem
  refine ⟨join other name, ⟨mt, entries, name, ?_, isDir, ?_, mem, rfl⟩, ?_⟩
  · rw [look.metadata other dir same, is]
  · rw [look.readDir other dir same, read]
  · rw [components_join _ isName, components_join _ isName, same]

/-- The list of a walk that ends well has every path that is spelled, once, and all of
them open. -/
theorem constructFileList_ok (look : Componentwise fs) {files : List LocalFile}
    (h : constructFileList fs fuel paths = some (.ok files)) :
    (files.map fun f => components f.path).Nodup ∧
      (∀ f ∈ files, Spelled fs paths f.path ∧ Opens fs f.path) ∧
      ∀ path, Spelled fs paths path → ∃ f ∈ files, components f.path = components path := by
  cases paths with
  | nil => cases h
  | cons first rest =>
    simp only [constructFileList] at h
    split at h
    · cases h
    rename_i relativeRoot _
    obtain ⟨walked, eq, isList⟩ := Option.map_eq_some_iff.mp h
    have result := result_walkPaths relativeRoot fuel (fun path mem => mem)
      (kept_start fs (first :: rest))
    cases walked with
    | error e => cases isList
    | ok walk =>
      cases isList
      rw [eq] at result
      obtain ⟨kept, ext, selected⟩ := result
      obtain ⟨new, whole, closed⟩ := ext.added
      refine ⟨kept.distinct, fun f mem => ⟨kept.spelled f mem, kept.opens f mem⟩, ?_⟩
      intro path spelled
      induction spelled with
      | selected mem => exact selected _ mem
      | child above below ih =>
        obtain ⟨f, mem, same⟩ := ih
        obtain ⟨path', child, same'⟩ := child_congr look same below
        rw [whole] at mem
        obtain ⟨g, memG, is⟩ := closed f mem path' child
        exact ⟨g, memG, is.trans same'⟩

/-- A walk that ends with an error came by a path that does not open. -/
theorem constructFileList_error {e : CliprdrError} {first base : Bytes} {rest : List Bytes}
    (isFirst : paths = first :: rest) (above : parent first = some base)
    (h : constructFileList fs fuel paths = some (.error e)) :
    ∃ path, Spelled fs paths path ∧ ¬ Opens fs path := by
  rw [isFirst] at h
  unfold constructFileList at h
  simp only [above] at h
  obtain ⟨walked, eq, isError⟩ := Option.map_eq_some_iff.mp h
  have result := result_walkPaths base fuel (fun path mem => mem) (kept_start fs (first :: rest))
  cases walked with
  | ok walk => cases isError
  | error e =>
    rw [eq] at result
    rw [isFirst]
    exact result

theorem andThen_mono {first first' : Walked} {rest rest' : Walk → Walked}
    {r : Except CliprdrError Walk} :
    (∀ r, first = some r → first' = some r) →
      (∀ walk, rest walk = some r → rest' walk = some r) →
      (match first with
        | some (.ok walk) => rest walk
        | stopped => stopped) = some r →
      (match first' with
        | some (.ok walk) => rest' walk
        | stopped => stopped) = some r := by
  intro more later h
  cases first with
  | none => cases h
  | some result =>
    rw [more _ rfl]
    cases result with
    | error e => exact h
    | ok walk => exact later walk h

theorem walkEntries_mono {next next' : Bytes → Walk → Walked}
    (more : ∀ path walk r, next path walk = some r → next' path walk = some r)
    {entries : List (Except String Bytes)} {r : Except CliprdrError Walk}
    (h : walkEntries dir next entries walk = some r) :
    walkEntries dir next' entries walk = some r := by
  induction entries generalizing walk with
  | nil => exact h
  | cons entry entries ih =>
    cases entry with
    | error e => exact h
    | ok name => exact andThen_mono (more _ _) (fun _ => ih) h

/-- More fuel does not change a result. -/
theorem constrFileLst_mono {r : Except CliprdrError Walk}
    (h : constrFileLst fs relativeRoot fuel path walk = some r) :
    constrFileLst fs relativeRoot (fuel + 1) path walk = some r := by
  induction fuel generalizing path walk r with
  | zero => cases h
  | succ fuel ih =>
    rw [constrFileLst] at h ⊢
    split at h
    · rename_i visited
      rw [if_pos visited]
      exact h
    rename_i unvisited
    rw [if_neg unvisited]
    split at h
    · exact h
    simp only at h ⊢
    split at h
    · exact h
    split at h
    · rename_i isDir
      rw [if_pos isDir]
      split at h
      · exact h
      · exact walkEntries_mono (fun _ _ _ => ih) h
    · rename_i notDir
      rw [if_neg notDir]
      exact h

theorem walkPaths_mono {rest : List Bytes} {r : Except CliprdrError Walk}
    (h : walkPaths fs relativeRoot fuel rest walk = some r) :
    walkPaths fs relativeRoot (fuel + 1) rest walk = some r := by
  induction rest generalizing walk with
  | nil => exact h
  | cons path rest ih => exact andThen_mono (fun _ => constrFileLst_mono) (fun _ => ih) h

theorem constructFileList_mono {r : Except CliprdrError (List LocalFile)}
    (h : constructFileList fs fuel paths = some r) (more : Nat) :
    constructFileList fs (fuel + more) paths = some r := by
  induction more with
  | zero => exact h
  | succ more ih =>
    cases paths with
    | nil => exact ih
    | cons first rest =>
      simp only [constructFileList] at ih ⊢
      split at ih
      · exact ih
      · obtain ⟨walked, eq, is⟩ := Option.map_eq_some_iff.mp ih
        rw [← Nat.add_assoc, walkPaths_mono eq]
        exact congrArg some is

theorem walkEntries_ends {next : Bytes → Walk → Walked} {entries : List (Except String Bytes)}
    (each : ∀ name walk, .ok name ∈ entries → ∃ r, next (join dir name) walk = some r) :
    ∃ r, walkEntries dir next entries walk = some r := by
  induction entries generalizing walk with
  | nil => exact ⟨_, rfl⟩
  | cons entry entries ih =>
    cases entry with
    | error e => exact ⟨_, rfl⟩
    | ok name =>
      obtain ⟨r, step⟩ := each name walk List.mem_cons_self
      unfold walkEntries
      rw [step]
      cases r with
      | error e => exact ⟨_, rfl⟩
      | ok walk₁ => exact ih fun name walk mem => each name walk (List.mem_cons_of_mem _ mem)

/-- Where a directory in a directory has the smaller measure, fuel above it is enough. -/
theorem constrFileLst_ends (relativeRoot : Bytes) (measure : Bytes → Nat)
    (down : ∀ dir path, Child fs dir path → fs.isDir path = true → measure path < measure dir)
    (some' : 0 < fuel) (enough : fs.isDir path = true → measure path + 1 < fuel) :
    ∃ r, constrFileLst fs relativeRoot fuel path walk = some r := by
  induction fuel generalizing path walk with
  | zero => omega
  | succ fuel ih =>
    rw [constrFileLst]
    split
    · exact ⟨_, rfl⟩
    split
    · exact ⟨_, rfl⟩
    simp only
    split
    · exact ⟨_, rfl⟩
    rename_i mt is
    by_cases dir : mt.isDir = true
    · rw [if_pos dir]
      split
      · exact ⟨_, rfl⟩
      · rename_i entries read
        have isDir : fs.isDir path = true := by
          rw [Fs.isDir, is]
          exact dir
        have room := enough isDir
        refine walkEntries_ends fun name walk mem => ih (by omega) fun below => ?_
        have lower := down path _ ⟨mt, entries, name, is, dir, read, mem, rfl⟩ below
        omega
    · rw [if_neg dir]
      exact ⟨_, rfl⟩

theorem walkPaths_ends (relativeRoot : Bytes) (measure : Bytes → Nat)
    (down : ∀ dir path, Child fs dir path → fs.isDir path = true → measure path < measure dir)
    {rest : List Bytes} (enough : (rest.map measure).sum + 1 < fuel) :
    ∃ r, walkPaths fs relativeRoot fuel rest walk = some r := by
  induction rest generalizing walk with
  | nil => exact ⟨_, rfl⟩
  | cons path rest ih =>
    rw [List.map_cons, List.sum_cons] at enough
    obtain ⟨r, step⟩ : ∃ r, constrFileLst fs relativeRoot fuel path walk = some r :=
      constrFileLst_ends relativeRoot measure down (by omega) (fun _ => by omega)
    unfold walkPaths
    rw [step]
    cases r with
    | error e => exact ⟨_, rfl⟩
    | ok walk₁ => exact ih (by omega)

theorem constructFileList_ends (fs : Fs) (measure : Bytes → Nat)
    (down : ∀ dir path, Child fs dir path → fs.isDir path = true → measure path < measure dir)
    (paths : List Bytes) : ∃ fuel r, constructFileList fs fuel paths = some r := by
  refine ⟨(paths.map measure).sum + 2, ?_⟩
  unfold constructFileList
  cases paths with
  | nil => exact ⟨_, rfl⟩
  | cons first rest =>
    simp only
    split
    · exact ⟨_, rfl⟩
    · rename_i relativeRoot _
      obtain ⟨r, walked⟩ : ∃ r, walkPaths fs relativeRoot _ (first :: rest) {} = some r :=
        walkPaths_ends relativeRoot measure down (Nat.lt_succ_self _)
      rw [walked]
      exact ⟨_, rfl⟩

end CamelliaRemote.Clipboard.Linked
