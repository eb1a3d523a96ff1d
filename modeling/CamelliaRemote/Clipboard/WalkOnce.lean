import CamelliaRemote.Clipboard.LinkedWalk

namespace CamelliaRemote.Clipboard.Linked
open Codec UnixPath LinkedFiles

/-- What a file system knows of a node besides its place; `content` is that of a file,
and `readable` says whether a directory may be listed. -/
structure Attributes where
  content : Bytes := []
  len : UInt64 := 0
  readonly : Bool := false
  modified : Option Int := none
  mode : UInt32 := 0
  readable : Bool := true

abbrev LinkedFs := FileSystem UInt8 Attributes

def permissionDenied : String := "Permission denied (os error 13)"

namespace LinkedFs

/-- The node of a path. -/
def node (fs : LinkedFs) (path : Bytes) : Except String (Nat × Node UInt8) :=
  match fs.inode path with
  | .error e => .error e
  | .ok inode =>
    match fs.nodes[inode]? with
    | some node => .ok (inode, node)
    | none => .error notFound

def metadata (fs : LinkedFs) (path : Bytes) : Except String Metadata :=
  match fs.node path with
  | .error e => .error e
  | .ok (inode, node) =>
    let known := fs.attributes inode
    .ok {
      len := known.len
      isDir := node.isDirectory
      readonly := known.readonly
      modified := known.modified
      mode := known.mode }

def readDir (fs : LinkedFs) (path : Bytes) : Except String (List (Except String Bytes)) :=
  match fs.node path with
  | .error e => .error e
  | .ok (inode, .directory _ entries) =>
    if (fs.attributes inode).readable then .ok (entries.map fun entry => .ok entry.1)
    else .error permissionDenied
  | .ok _ => .error notDirectory

def content (fs : LinkedFs) (path : Bytes) : Except String Bytes :=
  match fs.node path with
  | .error e => .error e
  | .ok (inode, _) => .ok (fs.attributes inode).content

def toFs (fs : LinkedFs) : Fs where
  metadata := fs.metadata
  readDir := fs.readDir
  openFile path := (fs.content path).map fun _ => ()
  content := fs.content

end LinkedFs

variable {fs : LinkedFs} {paths : List Bytes} {path dir : Bytes}

theorem node_congr {p q : Bytes} (same : components p = components q) :
    fs.node p = fs.node q := by
  unfold LinkedFs.node FileSystem.inode
  rw [FileSystem.place_congr same]

theorem node_eq_ok {inode : Nat} {node : Node UInt8} (h : fs.node path = .ok (inode, node)) :
    ∃ links, fs.place path = .ok (inode, links) ∧ fs.nodes[inode]? = some node := by
  unfold LinkedFs.node FileSystem.inode at h
  cases place : fs.place path with
  | error e =>
    rw [place] at h
    cases h
  | ok at' =>
    rw [place] at h
    simp only [Except.map] at h
    split at h
    · rename_i found
      cases h
      exact ⟨at'.2, rfl, found⟩
    · cases h

/-- A directory that is read, and one of its entries. -/
theorem readDir_eq_ok {entries : List (Except String Bytes)} (h : fs.readDir dir = .ok entries) :
    ∃ inode parent named, fs.node dir = .ok (inode, .directory parent named) ∧
      entries = named.map fun entry => .ok entry.1 := by
  unfold LinkedFs.readDir at h
  split at h
  · cases h
  · rename_i inode parent named is
    split at h
    · cases h
      exact ⟨inode, parent, named, is, rfl⟩
    · cases h
  · cases h

theorem componentwise (fs : LinkedFs) : Componentwise fs.toFs := by
  constructor
  · intro p q same
    change fs.metadata p = fs.metadata q
    unfold LinkedFs.metadata
    rw [node_congr same]
  · intro p q same
    change fs.readDir p = fs.readDir q
    unfold LinkedFs.readDir
    rw [node_congr same]
  · intro dir entries name read mem
    obtain ⟨inode, parent, named, is, rfl⟩ := readDir_eq_ok read
    obtain ⟨links, -, found⟩ := node_eq_ok is
    obtain ⟨⟨name', child⟩, among, same⟩ := List.mem_map.mp mem
    cases same
    exact fs.names inode parent child named name' found among

/-- How much of a walk is left below a path. -/
def measure (fs : LinkedFs) (path : Bytes) : Nat :=
  match fs.place path with
  | .ok at' => fs.rank at'
  | .error _ => 0

theorem place_join {inode links : Nat} {name : Bytes} (isName : Name name)
    (above : fs.place dir = .ok (inode, links)) {next : Nat × Nat}
    (below : fs.place (join dir name) = .ok next) :
    fs.resolve links inode [.normal name] = .ok next := by
  unfold FileSystem.place at above below
  rw [components_join _ isName] at below
  split at above
  · cases above
  split at above
  · cases above
  split at below
  · cases below
  split at below
  · cases below
  rw [FileSystem.resolve_append, above] at below
  exact below

theorem measure_lt (child : Child fs.toFs dir path) (isDir : fs.toFs.isDir path = true) :
    measure fs path < measure fs dir := by
  obtain ⟨mt, entries, name, -, -, read, mem, rfl⟩ := child
  have isName := (componentwise fs).names dir entries name read mem
  obtain ⟨inode, parent, named, is, -⟩ := readDir_eq_ok read
  obtain ⟨links, above, -⟩ := node_eq_ok is
  have same : fs.toFs.metadata (join dir name) = fs.metadata (join dir name) := rfl
  rw [Fs.isDir, same, LinkedFs.metadata] at isDir
  cases is' : fs.node (join dir name) with
  | error e =>
    rw [is'] at isDir
    cases isDir
  | ok found =>
    rw [is'] at isDir
    obtain ⟨inode', node⟩ := found
    obtain ⟨links', below, found⟩ := node_eq_ok is'
    unfold measure
    rw [above, below]
    exact FileSystem.rank_lt_of_below (place_join isName above below) found isDir

/-- **The walk ends**, whatever links there are. -/
theorem walk_ends (fs : LinkedFs) (paths : List Bytes) :
    ∃ fuel result, ∀ more, constructFileList fs.toFs (fuel + more) paths = some result := by
  obtain ⟨fuel, result, ended⟩ := constructFileList_ends fs.toFs (measure fs)
    (fun _ _ => measure_lt) paths
  exact ⟨fuel, result, constructFileList_mono ended⟩

/-- No file or directory is twice in the list. -/
def ListsOnce (fs : LinkedFs) (files : List LocalFile) : Prop :=
  files.Pairwise fun f g => ∀ inode, fs.inode f.path = .ok inode → fs.inode g.path ≠ .ok inode

/-- The walk ends, and a list that it gives has every file or directory at most once. -/
def WalksOnce (fs : LinkedFs) (paths : List Bytes) : Prop :=
  ∃ fuel result, (∀ more, constructFileList fs.toFs (fuel + more) paths = some result) ∧
    ∀ files, result = .ok files → ListsOnce fs files

/-- Only one path leads to a file or directory, up to how its separators are written. -/
def OneWay (fs : LinkedFs) (paths : List Bytes) : Prop :=
  ∀ p q inode, Spelled fs.toFs paths p → Spelled fs.toFs paths q → fs.inode p = .ok inode →
    fs.inode q = .ok inode → components p = components q

/-- Nothing of the selection keeps the walk from being done. -/
def Walkable (fs : LinkedFs) (paths : List Bytes) : Prop :=
  (∃ first rest base, paths = first :: rest ∧ parent first = some base) ∧
    ∀ path, Spelled fs.toFs paths path → Opens fs.toFs path

theorem opens_congr {p q : Bytes} (same : components p = components q)
    (opens : Opens fs.toFs p) : Opens fs.toFs q := by
  obtain ⟨mt, is, readable⟩ := opens
  have look := componentwise fs
  refine ⟨mt, ?_, ?_⟩
  · rw [← look.metadata p q same, is]
  · rw [← look.readDir p q same]
    exact readable

theorem inode_congr {p q : Bytes} (same : components p = components q) :
    fs.inode p = fs.inode q := by
  unfold FileSystem.inode
  rw [FileSystem.place_congr same]

/-- What is known of a walk that gave a list. -/
theorem walkable_of_ok {fuel : Nat} {files : List LocalFile}
    (h : constructFileList fs.toFs fuel paths = some (.ok files)) : Walkable fs paths := by
  obtain ⟨-, opens, all⟩ := constructFileList_ok (componentwise fs) h
  constructor
  · cases paths with
    | nil => cases h
    | cons first rest =>
      simp only [constructFileList] at h
      split at h
      · cases h
      · rename_i base above
        exact ⟨first, rest, base, rfl, above⟩
  · intro path spelled
    obtain ⟨f, mem, same⟩ := all path spelled
    exact opens_congr same (opens f mem).2

theorem ListsOnce.apart {files : List LocalFile} (once : ListsOnce fs files) {f g : LocalFile}
    (memF : f ∈ files) (memG : g ∈ files) {inode : Nat} (is : fs.inode f.path = .ok inode)
    (is' : fs.inode g.path = .ok inode) : f = g := by
  obtain ⟨i, inI, rfl⟩ := List.mem_iff_getElem.mp memF
  obtain ⟨j, inJ, rfl⟩ := List.mem_iff_getElem.mp memG
  have each := List.pairwise_iff_getElem.mp once
  rcases Nat.lt_trichotomy i j with lt | rfl | gt
  · exact absurd is' (each i j inI inJ lt inode is)
  · rfl
  · exact absurd is (each j i inJ inI gt inode is')

theorem ListsOnce.inodes {files : List LocalFile} (once : ListsOnce fs files) :
    (files.map fun f => (fs.inode f.path).toOption).Pairwise
      fun i j => ∀ inode, i = some inode → j ≠ some inode := by
  rw [List.pairwise_map]
  refine once.imp ?_
  intro f g apart inode is is'
  have ok : ∀ {x : Except String Nat}, x.toOption = some inode → x = .ok inode := by
    intro x is
    cases x with
    | error e => cases is
    | ok i => exact congrArg Except.ok (Option.some.inj is)
  exact apart inode (ok is) (ok is')

theorem oneWay_iff_listsOnce {fuel : Nat} {files : List LocalFile}
    (h : constructFileList fs.toFs fuel paths = some (.ok files)) :
    OneWay fs paths ↔ ListsOnce fs files := by
  obtain ⟨distinct, spelled, all⟩ := constructFileList_ok (componentwise fs) h
  rw [List.Nodup, List.pairwise_map] at distinct
  constructor
  · intro oneWay
    refine distinct.imp_of_mem ?_
    intro f g memF memG differ inode is is'
    exact differ (oneWay f.path g.path inode (spelled f memF).1 (spelled g memG).1 is is')
  · intro once p q inode spelledP spelledQ is is'
    obtain ⟨f, memF, sameF⟩ := all p spelledP
    obtain ⟨g, memG, sameG⟩ := all q spelledQ
    rw [← inode_congr sameF] at is
    rw [← inode_congr sameG] at is'
    obtain rfl := once.apart memF memG is is'
    exact sameF.symm.trans sameG

/-- **The walk ends, and it lists nothing twice exactly if nothing keeps it from being
done only where one path leads to each file.** -/
theorem walks_once_iff (fs : LinkedFs) (paths : List Bytes) :
    (∃ fuel result, ∀ more, constructFileList fs.toFs (fuel + more) paths = some result) ∧
      (WalksOnce fs paths ↔ (Walkable fs paths → OneWay fs paths)) := by
  refine ⟨walk_ends fs paths, ?_⟩
  constructor
  · rintro ⟨fuel, result, always, once⟩ ⟨⟨first, rest, base, isFirst, above⟩, opens⟩
    cases result with
    | error e =>
      obtain ⟨path, spelled, fails⟩ := constructFileList_error isFirst above (always 0)
      exact absurd (opens path spelled) fails
    | ok files => exact (oneWay_iff_listsOnce (always 0)).mpr (once files rfl)
  · intro oneWay
    obtain ⟨fuel, result, always⟩ := walk_ends fs paths
    refine ⟨fuel, result, always, ?_⟩
    rintro files rfl
    exact (oneWay_iff_listsOnce (always 0)).mp (oneWay (walkable_of_ok (always 0)))

/-- `/d` holds the directory `a` with a file `f`, and a link `b` to `a`. -/
def linkedNodes : List (Node UInt8) :=
  [.directory 0 [(utf8 "d", 1)], .directory 0 [(utf8 "a", 2), (utf8 "b", 3)],
    .directory 1 [(utf8 "f", 4)], .symlink (utf8 "a"), .file]

def linkedFs : LinkedFs where
  nodes := linkedNodes
  attributes _ := {}
  root := 0
  cwd := 0
  maxLinks := 40
  refuses _ := none
  depth inode := min inode 2
  height := 2
  depth_le _ := Nat.min_le_right _ _
  deeper := by
    intro dir parent child entries name node isDir mem found directory
    match dir with
    | 0 =>
      cases isDir
      simp only [List.mem_singleton, Prod.mk.injEq] at mem
      omega
    | 1 =>
      cases isDir
      simp only [List.mem_cons, Prod.mk.injEq, List.not_mem_nil, or_false] at mem
      rcases mem with ⟨-, rfl⟩ | ⟨-, rfl⟩
      · decide
      · cases found
        cases directory
    | 2 =>
      cases isDir
      simp only [List.mem_singleton, Prod.mk.injEq] at mem
      obtain ⟨-, rfl⟩ := mem
      cases found
      cases directory
    | 3 => cases isDir
    | 4 => cases isDir
    | dir + 5 => cases isDir
  names := by
    have isName : ∀ s ∈ [utf8 "d", utf8 "a", utf8 "b", utf8 "f"], Name s := by
      intro s mem
      simp only [List.mem_cons, List.not_mem_nil, or_false] at mem
      rcases mem with rfl | rfl | rfl | rfl <;>
        exact ⟨by decide +kernel, by decide +kernel, by decide +kernel⟩
    intro dir parent child entries name isDir mem
    apply isName
    match dir with
    | 0 =>
      cases isDir
      simp_all
    | 1 =>
      cases isDir
      simp only [List.mem_cons, Prod.mk.injEq, List.not_mem_nil, or_false] at mem
      rcases mem with ⟨rfl, -⟩ | ⟨rfl, -⟩ <;> simp
    | 2 =>
      cases isDir
      simp_all
    | 3 => cases isDir
    | 4 => cases isDir
    | dir + 5 => cases isDir

/-- The inodes of a list. -/
def inodesOf (fs : LinkedFs) (fuel : Nat) (paths : List Bytes) : Option (List (Option Nat)) :=
  (constructFileList fs.toFs fuel paths).bind fun result =>
    result.toOption.map fun files => files.map fun f => (fs.inode f.path).toOption

/-- The directory `a` and its file are listed twice. -/
theorem linkedFs_walks_twice : ¬ WalksOnce linkedFs [utf8 "/d"] := by
  have listed : inodesOf linkedFs 5 [utf8 "/d"] =
      some [some 1, some 2, some 4, some 2, some 4] := by decide +kernel
  unfold inodesOf at listed
  obtain ⟨result, run, isList⟩ := Option.bind_eq_some_iff.mp listed
  obtain ⟨files, isOk, inodes⟩ := Option.map_eq_some_iff.mp isList
  rintro ⟨fuel, result', always, once⟩
  have same := constructFileList_mono run fuel
  rw [Nat.add_comm] at same
  rw [always 5] at same
  cases same
  cases result with
  | error e => cases isOk
  | ok files' =>
    cases isOk
    have apart := (once files rfl).inodes
    rw [inodes] at apart
    simp at apart

end CamelliaRemote.Clipboard.Linked
