import CamelliaRemote.Clipboard.Descriptors

namespace CamelliaRemote.Clipboard
open Codec UnixPath

inductive Forest where
  | nil
  | file (name : Bytes) (mt : Metadata) (rest : Forest)
  | dir (name : Bytes) (mt : Metadata) (children rest : Forest)

/-- A valid UTF-8 name of a file system, without a backslash. -/
structure Admitted (name : Bytes) : Prop where
  isName : Name name
  text : ∃ s : String, name = utf8 s ∧ '\\' ∉ s.toList ∧ '\x00' ∉ s.toList

/-- An entry with its position in the list and that of its directory. -/
structure Placed where
  index : Nat
  above : List Bytes
  name : Bytes
  mt : Metadata
  parent : Option Nat

def Placed.path (e : Placed) : List Bytes := e.above ++ [e.name]

namespace Forest

/-- The names right under the directory. -/
def names : Forest → List Bytes
  | nil => []
  | file name _ rest => name :: rest.names
  | dir name _ _ rest => name :: rest.names

def count : Forest → Nat
  | nil => 0
  | file _ _ rest => rest.count + 1
  | dir _ _ children rest => children.count + rest.count + 1

/-- The entries below `above`, directories first, numbered from `start`. -/
def placed (above : List Bytes) (parent : Option Nat) (start : Nat) : Forest → List Placed
  | nil => []
  | file name mt rest => ⟨start, above, name, mt, parent⟩ :: rest.placed above parent (start + 1)
  | dir name mt children rest =>
    ⟨start, above, name, mt, parent⟩ ::
      (children.placed (above ++ [name]) (some start) (start + 1) ++
        rest.placed above parent (start + children.count + 1))

/-- The entries of a selection. -/
def entries (forest : Forest) : List Placed := forest.placed [] none 0

/-- Names are admitted and different from each other in every directory. -/
def Valid : Forest → Prop
  | nil => True
  | file name mt rest => Admitted name ∧ mt.isDir = false ∧ name ∉ rest.names ∧ rest.Valid
  | dir name mt children rest =>
    Admitted name ∧ mt.isDir = true ∧ name ∉ rest.names ∧ children.Valid ∧ rest.Valid

end Forest

/-- The file system has the forest under `dir`. -/
def Fs.Stores (fs : Fs) (dir : Bytes) : Forest → Prop
  | .nil => True
  | .file name mt rest => fs.metadata (join dir name) = .ok mt ∧ fs.Stores dir rest
  | .dir name mt children rest =>
    fs.metadata (join dir name) = .ok mt ∧
      fs.readDir (join dir name) = .ok (children.names.map .ok) ∧
      fs.Stores (join dir name) children ∧ fs.Stores dir rest

/-- What `LocalFile::try_open` makes of an entry. -/
def Placed.opened (relativeRoot dir : Bytes) (e : Placed) : LocalFile :=
  let path := below dir e.path
  let hidden := (fromUtf8Lossy path).toList.head? = some '.'
  { relativeRoot, path
    size := e.mt.len
    lastWriteTime := e.mt.modified.getD 0
    isDir := e.mt.isDir
    perm := e.mt.mode
    readOnly := e.mt.readonly
    hidden
    system := false
    archive := false
    normal := !(e.mt.isDir || e.mt.readonly || false || hidden || false) }

variable {fs : Fs} {relativeRoot dir : Bytes} {above : List Bytes} {parent : Option Nat}
  {start : Nat} {forest : Forest}

namespace Forest

theorem length_placed (forest : Forest) (above : List Bytes) (parent : Option Nat) (start : Nat) :
    (forest.placed above parent start).length = forest.count := by
  induction forest generalizing above parent start with
  | nil => rfl
  | file name mt rest ih => simp [placed, count, ih]
  | dir name mt children rest ih₁ ih₂ => simp [placed, count, ih₁, ih₂]

/-- The path of an entry starts with a name of the forest. -/
theorem path_of_mem_placed {e : Placed} (h : e ∈ forest.placed above parent start) :
    ∃ name rest, name ∈ forest.names ∧ e.path = above ++ name :: rest := by
  induction forest generalizing above parent start with
  | nil => cases h
  | file name mt rest ih =>
    rcases List.mem_cons.mp h with rfl | h
    · exact ⟨name, [], List.mem_cons_self, rfl⟩
    · obtain ⟨n, tail, mem, path⟩ := ih h
      exact ⟨n, tail, List.mem_cons_of_mem _ mem, path⟩
  | dir name mt children rest ih₁ ih₂ =>
    rcases List.mem_cons.mp h with rfl | h
    · exact ⟨name, [], List.mem_cons_self, rfl⟩
    rcases List.mem_append.mp h with h | h
    · obtain ⟨n, tail, -, path⟩ := ih₁ h
      exact ⟨name, n :: tail, List.mem_cons_self, by simp [path]⟩
    · obtain ⟨n, tail, mem, path⟩ := ih₂ h
      exact ⟨n, tail, List.mem_cons_of_mem _ mem, path⟩

theorem admitted_of_mem_placed (valid : forest.Valid) (named : ∀ n ∈ above, Admitted n)
    (parent : Option Nat) (start : Nat) :
    ∀ e ∈ forest.placed above parent start, ∀ n ∈ e.path, Admitted n := by
  intro e h
  induction forest generalizing above parent start with
  | nil => cases h
  | file name mt rest ih =>
    obtain ⟨admitted, -, -, valid⟩ := valid
    rcases List.mem_cons.mp h with rfl | h
    · intro n mem
      rcases List.mem_append.mp mem with mem | mem
      · exact named n mem
      · exact List.mem_singleton.mp mem ▸ admitted
    · exact ih valid named parent (start + 1) h
  | dir name mt children rest ih₁ ih₂ =>
    obtain ⟨admitted, -, -, validChildren, valid⟩ := valid
    have here : ∀ n ∈ above ++ [name], Admitted n := by
      intro n mem
      rcases List.mem_append.mp mem with mem | mem
      · exact named n mem
      · exact List.mem_singleton.mp mem ▸ admitted
    rcases List.mem_cons.mp h with rfl | h
    · exact here
    rcases List.mem_append.mp h with h | h
    · exact ih₁ validChildren here _ _ h
    · exact ih₂ valid named _ _ h

/-- No entry of a forest stands below a name it does not have. -/
theorem path_ne {name : Bytes} (fresh : name ∉ forest.names) {e : Placed}
    (h : e ∈ forest.placed above parent start) (tail : List Bytes) :
    e.path ≠ above ++ name :: tail := by
  intro same
  obtain ⟨n, rest, isName, path⟩ := path_of_mem_placed h
  rw [path, List.append_cancel_left_eq, List.cons.injEq] at same
  exact fresh (same.1 ▸ isName)

/-- No two entries have the same path. -/
theorem nodup_placed (valid : forest.Valid) (above : List Bytes) (parent : Option Nat)
    (start : Nat) :
    ((forest.placed above parent start).map Placed.path).Nodup := by
  induction forest generalizing above parent start with
  | nil => exact List.nodup_nil
  | file name mt rest ih =>
    obtain ⟨-, -, fresh, valid⟩ := valid
    refine List.nodup_cons.mpr ⟨?_, ih valid above parent (start + 1)⟩
    intro mem
    obtain ⟨e, mem, same⟩ := List.mem_map.mp mem
    exact path_ne fresh mem [] same
  | dir name mt children rest ih₁ ih₂ =>
    obtain ⟨-, -, fresh, validChildren, valid⟩ := valid
    rw [placed, List.map_cons, List.map_append, List.nodup_cons, List.nodup_append]
    refine ⟨?_, ih₁ validChildren _ _ _, ih₂ valid _ _ _, ?_⟩
    · intro mem
      rcases List.mem_append.mp mem with mem | mem
      · obtain ⟨e, mem, same⟩ := List.mem_map.mp mem
        obtain ⟨n, tail, -, path⟩ := path_of_mem_placed mem
        have length := congrArg List.length (path.symm.trans same)
        simp [Placed.path] at length
      · obtain ⟨e, mem, same⟩ := List.mem_map.mp mem
        exact path_ne fresh mem [] same
    · intro p inChildren q inRest same
      obtain ⟨e, mem, rfl⟩ := List.mem_map.mp inChildren
      obtain ⟨e', mem', rfl⟩ := List.mem_map.mp inRest
      obtain ⟨n, tail, -, path⟩ := path_of_mem_placed mem
      refine path_ne fresh mem' (n :: tail) ?_
      rw [← same, path, List.append_assoc, List.singleton_append]

end Forest

theorem components_below_inj {names names' : List Bytes} (h : ∀ n ∈ names, Admitted n)
    (h' : ∀ n ∈ names', Admitted n)
    (same : components (below dir names) = components (below dir names')) : names = names' := by
  rw [components_below dir fun n mem => (h n mem).isName,
    components_below dir fun n mem => (h' n mem).isName, List.append_cancel_left_eq] at same
  exact List.map_injective_iff.mpr (fun _ _ same => by simpa using same) same

/-- None of the paths below `dir` has been visited. -/
def Walk.Fresh (walk : Walk) (dir : Bytes) (paths : List (List Bytes)) : Prop :=
  ∀ names ∈ paths, ∀ p ∈ walk.visited, components p ≠ components (below dir names)

theorem Walk.Fresh.mono {walk : Walk} {paths more : List (List Bytes)} (fresh : walk.Fresh dir more)
    (sub : paths ⊆ more) : walk.Fresh dir paths :=
  fun names mem => fresh names (sub mem)

/-- The walk after the entries. -/
def Walk.after (walk : Walk) (relativeRoot dir : Bytes) (entries : List Placed) : Walk where
  fileList := walk.fileList ++ entries.map (Placed.opened relativeRoot dir)
  visited := (entries.map fun e => below dir e.path).reverse ++ walk.visited

theorem Walk.after_append (walk : Walk) (a b : List Placed) :
    (walk.after relativeRoot dir a).after relativeRoot dir b =
      walk.after relativeRoot dir (a ++ b) := by
  simp [after]

/-- Entries that were not visited, and have other paths than those walked over, are
not visited after them. -/
theorem Walk.Fresh.after {walk : Walk} {a b : List Placed} (relativeRoot : Bytes)
    (fresh : walk.Fresh dir ((a ++ b).map Placed.path))
    (distinct : ((a ++ b).map Placed.path).Nodup)
    (admitted : ∀ e ∈ a ++ b, ∀ n ∈ e.path, Admitted n) :
    (walk.after relativeRoot dir a).Fresh dir (b.map Placed.path) := by
  intro names isPath p visited same
  obtain ⟨e, mem, rfl⟩ := List.mem_map.mp isPath
  rcases List.mem_append.mp visited with visited | visited
  · obtain ⟨e', mem', rfl⟩ := List.mem_map.mp (List.mem_reverse.mp visited)
    have equal := components_below_inj (admitted e' (List.mem_append_left _ mem'))
      (admitted e (List.mem_append_right _ mem)) same
    rw [List.map_append, List.nodup_append] at distinct
    exact distinct.2.2 _ (List.mem_map_of_mem mem') _ (List.mem_map_of_mem mem) equal
  · refine fresh e.path ?_ p visited same
    rw [List.map_append]
    exact List.mem_append_right _ (List.mem_map_of_mem mem)

theorem below_concat (dir : Bytes) (above : List Bytes) (name : Bytes) :
    join (below dir above) name = below dir (above ++ [name]) := by
  simp [below]

/-- One entry of the walk: it is opened, and a directory is read. -/
theorem constrFileLst_fresh {walk : Walk} {e : Placed} (relativeRoot : Bytes) (fuel : Nat)
    (fresh : walk.Fresh dir [e.path]) (metadata : fs.metadata (below dir e.path) = .ok e.mt) :
    constrFileLst fs relativeRoot (fuel + 1) (below dir e.path) walk =
      if e.mt.isDir then
        match fs.readDir (below dir e.path) with
        | .error err => some (.error (.fileError (fromUtf8Lossy (below dir e.path)) err))
        | .ok names =>
          walkEntries (below dir e.path) (constrFileLst fs relativeRoot fuel) names
            (walk.after relativeRoot dir [e])
      else some (.ok (walk.after relativeRoot dir [e])) := by
  have unseen : ¬ (walk.visited.any fun p => components p = components (below dir e.path)) := by
    rw [List.any_eq_true]
    rintro ⟨p, visited, same⟩
    exact fresh _ (List.mem_singleton_self _) p visited (of_decide_eq_true same)
  have opened : LocalFile.tryOpen fs relativeRoot (below dir e.path) =
      .ok (e.opened relativeRoot dir) := by
    rw [LocalFile.tryOpen, metadata]
    rfl
  rw [constrFileLst, if_neg unseen, opened]
  simp only [metadata]
  rfl

theorem walkEntries_cons {next : Bytes → Walk → Walked} {name : Bytes} {walk walk' : Walk}
    (entries : List (Except String Bytes)) (h : next (join dir name) walk = some (.ok walk')) :
    walkEntries dir next (.ok name :: entries) walk = walkEntries dir next entries walk' := by
  rw [walkEntries, h]

/-- **The walk over a forest** adds its entries in order. -/
theorem walk_forest {fuel : Nat} {walk : Walk} (relativeRoot : Bytes) (parent : Option Nat)
    (start : Nat) (enough : forest.count < fuel) (stores : fs.Stores (below dir above) forest)
    (valid : forest.Valid) (named : ∀ n ∈ above, Admitted n)
    (fresh : walk.Fresh dir ((forest.placed above parent start).map Placed.path)) :
    walkEntries (below dir above) (constrFileLst fs relativeRoot fuel)
        (forest.names.map .ok) walk =
      some (.ok (walk.after relativeRoot dir (forest.placed above parent start))) := by
  induction forest generalizing above parent start fuel walk with
  | nil => simp [Forest.names, Forest.placed, walkEntries, Walk.after]
  | file name mt rest ih =>
    have distinct := Forest.nodup_placed valid above parent start
    have admitted := Forest.admitted_of_mem_placed valid named parent start
    obtain ⟨-, isFile, -, valid⟩ := valid
    obtain ⟨metadata, stores⟩ := stores
    obtain ⟨fuel, rfl⟩ : ∃ n, fuel = n + 1 := ⟨fuel - 1, by omega⟩
    let e : Placed := ⟨start, above, name, mt, parent⟩
    have place : join (below dir above) name = below dir e.path := below_concat dir above name
    have opened := constrFileLst_fresh relativeRoot fuel
      (fresh.mono (List.cons_subset_cons _ (List.nil_subset _))) (place ▸ metadata)
    rw [if_neg (by simp [isFile]), ← place] at opened
    have later := Walk.Fresh.after (a := [e]) relativeRoot fresh distinct admitted
    have left : rest.count < fuel + 1 := Nat.lt_of_succ_lt enough
    have all := ih parent (start + 1) left stores valid named later
    rw [Walk.after_append] at all
    exact (walkEntries_cons _ opened).trans all
  | dir name mt children rest ih₁ ih₂ =>
    have distinct := Forest.nodup_placed valid above parent start
    have admitted := Forest.admitted_of_mem_placed valid named parent start
    obtain ⟨isAdmitted, isDir, -, validChildren, valid⟩ := valid
    obtain ⟨metadata, readDir, storesChildren, stores⟩ := stores
    obtain ⟨fuel, rfl⟩ : ∃ n, fuel = n + 1 := ⟨fuel - 1, by omega⟩
    simp only [Forest.count] at enough
    let e : Placed := ⟨start, above, name, mt, parent⟩
    let inside := children.placed e.path (some start) (start + 1)
    have place : join (below dir above) name = below dir e.path := below_concat dir above name
    have opened := constrFileLst_fresh relativeRoot fuel
      (fresh.mono (List.cons_subset_cons _ (List.nil_subset _))) (place ▸ metadata)
    rw [if_pos isDir, ← place, readDir] at opened
    have under : ∀ n ∈ e.path, Admitted n := admitted e List.mem_cons_self
    have afterDir := Walk.Fresh.after (a := [e]) relativeRoot fresh distinct admitted
    have inChildren : children.count < fuel := by omega
    have within := ih₁ (some start) (start + 1) inChildren (place ▸ storesChildren) validChildren
      under (afterDir.mono (List.map_subset _ (List.subset_append_left _ _)))
    rw [Walk.after_append, ← place] at within
    have afterChildren := Walk.Fresh.after (a := e :: inside) relativeRoot fresh distinct admitted
    have left : rest.count < fuel + 1 := by omega
    have all := ih₂ parent (start + children.count + 1) left stores valid named afterChildren
    rw [Walk.after_append] at all
    exact (walkEntries_cons _ (opened.trans within)).trans all

end CamelliaRemote.Clipboard
