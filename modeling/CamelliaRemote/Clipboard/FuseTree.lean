import CamelliaRemote.Clipboard.FuseServer
import CamelliaRemote.Lib.LexicalPath
import Mathlib.Data.List.Nodup

namespace CamelliaRemote.Clipboard.Mount
open Codec UnixPath FuseServer

/-- The parent of the node at a position. -/
def parentAt (nodes : List FuseNode) (k : Nat) : Option Nat := nodes[k]?.bind (·.parent)

/-- The inodes of the nodes whose parent has the inode, in order. -/
def childrenOf (nodes : List FuseNode) (inode : Nat) : List Nat :=
  ((List.range nodes.length).filter fun k => parentAt nodes k = some inode).map (· + 1)

/-- The node at position `k` stands for the file before it in the list. -/
structure StandsFor (files : List FileDescription) (k : Nat) (n : FuseNode) : Prop where
  index : n.index = k - 1
  isName : Name n.name
  file : ∃ file, files[k - 1]? = some file ∧ fileName file.name = some n.name ∧
    n.connId = file.connId ∧ n.attributes.kind = file.kind ∧ n.attributes.size = file.size

/-- What the loop of `build_tree` keeps of its nodes. -/
structure Grown (files : List FileDescription) (nodes : List FuseNode) : Prop where
  length : nodes.length = files.length + 1
  numbered : ∀ k n, nodes[k]? = some n → n.attributes.inode = k + 1
  standsFor : ∀ k n, 1 ≤ k → nodes[k]? = some n → StandsFor files k n
  parent : ∀ k, 1 ≤ k → k < nodes.length → ∃ p q, parentAt nodes k = some (p + 1) ∧ p < k ∧
    nodes[p]? = some q ∧ q.attributes.kind = .directory
  root : parentAt nodes 0 = none
  children : ∀ p q, nodes[p]? = some q → q.children = childrenOf nodes (p + 1)

/-- The root and the directories of the loop are directories of the tree. -/
def Known (b : FuseNode.Build) : Prop :=
  ∀ inode ∈ fuseRootId :: b.subRootMap.map Prod.snd, ∃ p q, inode = p + 1 ∧
    b.treeList[p]? = some q ∧ q.attributes.kind = .directory

/-- The node of a file. -/
def nodeOf (now k : Nat) (file : FileDescription) (name : List Char) (parent : Nat) : FuseNode :=
  { FuseNode.fromDescription now (k + 1) { file with name } with parent := some parent }

/-- The nodes after one more file below the node at `p`. -/
def grow (nodes : List FuseNode) (p : Nat) (n : FuseNode) : List FuseNode :=
  nodes.modify p (.addChild (nodes.length + 1)) ++ [n]

variable {now : Nat} {files : List FileDescription} {file : FileDescription}
  {nodes : List FuseNode} {b b' : FuseNode.Build} {p k : Nat} {n q : FuseNode}

theorem length_grow : (grow nodes p n).length = nodes.length + 1 := by
  simp [grow]

theorem getElem?_grow_last : (grow nodes p n)[nodes.length]? = some n := by
  simp [grow]

theorem getElem?_grow_of_lt (lt : k < nodes.length) :
    (grow nodes p n)[k]? =
      (if p = k then FuseNode.addChild (nodes.length + 1) else id) <$> nodes[k]? := by
  have inside : k < (nodes.modify p (.addChild (nodes.length + 1))).length := by simpa using lt
  rw [grow, List.getElem?_append_left inside, List.getElem?_modify]
  by_cases its : p = k
  · simp only [its, if_true]
  · simp only [its, if_false]
    rfl

/-- An old node is as it was, but for the new child of the parent. -/
theorem old_of_grow {n' : FuseNode} (lt : k < nodes.length)
    (found : (grow nodes p n)[k]? = some n') :
    ∃ old, nodes[k]? = some old ∧
      n' = { old with children := n'.children } ∧
      n'.children = old.children ++ if p = k then [nodes.length + 1] else [] := by
  rw [getElem?_grow_of_lt lt, List.getElem?_eq_getElem lt] at found
  refine ⟨nodes[k], List.getElem?_eq_getElem lt, ?_⟩
  by_cases its : p = k
  · rw [if_pos its] at found ⊢
    cases found
    exact ⟨rfl, rfl⟩
  · rw [if_neg its] at found ⊢
    cases found
    exact ⟨rfl, (List.append_nil _).symm⟩

theorem parentAt_grow_of_lt (lt : k < nodes.length) :
    parentAt (grow nodes p n) k = parentAt nodes k := by
  rw [parentAt, parentAt, getElem?_grow_of_lt lt, List.getElem?_eq_getElem lt]
  split <;> rfl

theorem parentAt_grow_last : parentAt (grow nodes p n) nodes.length = n.parent := by
  rw [parentAt, getElem?_grow_last]
  rfl

/-- A new node at the end is the last child of its parent. -/
theorem childrenOf_grow {inode : Nat} (parent : Nat) (its : n.parent = some parent) :
    childrenOf (grow nodes p n) inode =
      childrenOf nodes inode ++ if parent = inode then [nodes.length + 1] else [] := by
  have same : (List.range nodes.length).filter
      (fun k => parentAt (grow nodes p n) k = some inode) =
      (List.range nodes.length).filter (fun k => parentAt nodes k = some inode) := by
    apply List.filter_congr
    intro k mem
    rw [parentAt_grow_of_lt (List.mem_range.mp mem)]
  unfold childrenOf
  rw [length_grow, List.range_succ, List.filter_append, List.map_append, same]
  by_cases here : parent = inode
  · simp [parentAt_grow_last, its, here]
  · simp [parentAt_grow_last, its, here]

/-- What a turn does that does not fail. -/
theorem add_cases (h : b.add now file = .ok b') :
    ∃ name, fileName file.name = some name ∧
      b'.treeList = grow b.treeList (b.parentInode file.name - 1)
        (nodeOf now b.treeList.length file name (b.parentInode file.name)) ∧
      b'.subRootMap =
        if file.kind = .directory then
          (components file.name, b.treeList.length + 1) :: b.subRootMap
        else b.subRootMap := by
  unfold FuseNode.Build.add at h
  cases found : fileName file.name with
  | none =>
    rw [found] at h
    cases h
  | some name =>
    rw [found] at h
    cases h
    exact ⟨name, rfl, rfl, rfl⟩

theorem parentInode_of_known (known : Known b) (name : List Char) :
    ∃ p q, b.parentInode name = p + 1 ∧ b.treeList[p]? = some q ∧
      q.attributes.kind = .directory := by
  apply known
  unfold FuseNode.Build.parentInode
  cases UnixPath.parent name with
  | none => exact List.mem_cons_self
  | some dir =>
    simp only
    cases found : b.subRootMap.find? fun entry => entry.1 = components dir with
    | none => exact List.mem_cons_self
    | some entry =>
      exact List.mem_cons_of_mem _ (List.mem_map_of_mem (List.mem_of_find?_eq_some found))

theorem lt_of_getElem? {α : Type} {xs : List α} {i : Nat} {x : α} (h : xs[i]? = some x) :
    i < xs.length := (List.getElem?_eq_some_iff.mp h).1

/-- A directory stays one. -/
theorem directory_grow (found : nodes[k]? = some q) (isDir : q.attributes.kind = .directory) :
    ∃ q', (grow nodes p n)[k]? = some q' ∧ q'.attributes.kind = .directory := by
  rw [getElem?_grow_of_lt (lt_of_getElem? found), found]
  refine ⟨_, rfl, ?_⟩
  split
  · exact isDir
  · exact isDir

theorem known_add (known : Known b) (h : b.add now file = .ok b') : Known b' := by
  obtain ⟨name, -, tree, map⟩ := add_cases h
  have old : ∀ inode ∈ fuseRootId :: b.subRootMap.map Prod.snd, ∃ p q, inode = p + 1 ∧
      b'.treeList[p]? = some q ∧ q.attributes.kind = .directory := by
    intro inode mem
    obtain ⟨p, q, is, found, isDir⟩ := known inode mem
    rw [tree]
    obtain ⟨q', found', isDir'⟩ := directory_grow found isDir
    exact ⟨p, q', is, found', isDir'⟩
  by_cases dir : file.kind = .directory
  · rw [if_pos dir] at map
    unfold Known
    rw [map]
    intro inode mem
    simp only [List.map_cons, List.mem_cons] at mem
    rcases mem with root | last | rest
    · exact old inode (by simp [root])
    · refine ⟨b.treeList.length, nodeOf now b.treeList.length file name
        (b.parentInode file.name), last, ?_, dir⟩
      rw [tree]
      exact getElem?_grow_last
    · exact old inode (List.mem_cons_of_mem _ rest)
  · rw [if_neg dir] at map
    unfold Known
    rw [map]
    exact old

/-- A node that is not there yet has no children. -/
theorem childrenOf_beyond (grown : Grown files nodes) :
    childrenOf nodes (nodes.length + 1) = [] := by
  unfold childrenOf
  rw [List.map_eq_nil_iff, List.filter_eq_nil_iff]
  intro k mem its
  have lt := List.mem_range.mp mem
  have is : parentAt nodes k = some (nodes.length + 1) := of_decide_eq_true its
  by_cases root : k = 0
  · rw [root, grown.root] at is
    cases is
  · obtain ⟨p, q, above, before, -⟩ := grown.parent k (by omega) lt
    rw [above] at is
    have same := Option.some.inj is
    omega

theorem grown_add (known : Known b) (grown : Grown files b.treeList)
    (h : b.add now file = .ok b') : Grown (files ++ [file]) b'.treeList := by
  obtain ⟨name, isName, tree, -⟩ := add_cases h
  obtain ⟨p, dir, parent, found, isDir⟩ := parentInode_of_known known file.name
  have inside := lt_of_getElem? found
  rw [tree, parent, Nat.add_sub_cancel]
  generalize nodes' : b.treeList = nodes at *
  have count := grown.length
  constructor
  · rw [length_grow, count, List.length_append]
    rfl
  · intro k n' at'
    have lt := lt_of_getElem? at'
    rw [length_grow] at lt
    by_cases last : k = nodes.length
    · rw [last, getElem?_grow_last] at at'
      cases at'
      rw [last]
      rfl
    · obtain ⟨old, was, same, -⟩ := old_of_grow (by omega) at'
      rw [same]
      exact grown.numbered k old was
  · intro k n' pos at'
    have lt := lt_of_getElem? at'
    rw [length_grow] at lt
    by_cases last : k = nodes.length
    · rw [last, getElem?_grow_last] at at'
      cases at'
      refine ⟨?_, name_of_fileName isName, file, ?_, isName, rfl, rfl, rfl⟩
      · rw [last]
        simp only [nodeOf, FuseNode.fromDescription]
        omega
      · rw [show k - 1 = files.length by omega]
        simp
    · obtain ⟨old, was, same, -⟩ := old_of_grow (by omega) at'
      obtain ⟨index, isName, file', at'', rest⟩ := grown.standsFor k old pos was
      rw [same]
      refine ⟨index, isName, file', ?_, rest⟩
      rw [List.getElem?_append_left (lt_of_getElem? at'')]
      exact at''
  · intro k pos lt
    rw [length_grow] at lt
    by_cases last : k = nodes.length
    · obtain ⟨dir', found', isDir'⟩ := directory_grow (p := p)
        (n := nodeOf now nodes.length file name (p + 1)) found isDir
      refine ⟨p, dir', ?_, by omega, found', isDir'⟩
      rw [last, parentAt_grow_last]
      rfl
    · obtain ⟨p', q, is, before, was, wasDir⟩ := grown.parent k pos (by omega)
      obtain ⟨q', found', isDir'⟩ := directory_grow (p := p)
        (n := nodeOf now nodes.length file name (p + 1)) was wasDir
      refine ⟨p', q', ?_, before, found', isDir'⟩
      rw [parentAt_grow_of_lt (by omega)]
      exact is
  · rw [parentAt_grow_of_lt (by omega)]
    exact grown.root
  · intro k n' at'
    have lt := lt_of_getElem? at'
    rw [length_grow] at lt
    rw [childrenOf_grow (p + 1) rfl]
    by_cases last : k = nodes.length
    · rw [last, getElem?_grow_last] at at'
      cases at'
      rw [last, if_neg (by omega), List.append_nil, childrenOf_beyond grown]
      rfl
    · obtain ⟨old, was, -, children⟩ := old_of_grow (by omega) at'
      rw [children, grown.children k old was]
      simp only [Nat.add_right_cancel_iff]

theorem grown_new (now : Nat) : Grown [] (FuseNode.Build.new now).treeList := by
  have only : ∀ {k n}, (FuseNode.Build.new now).treeList[k]? = some n →
      k = 0 ∧ n = FuseNode.newRoot now := by
    intro k n found
    cases k with
    | zero => exact ⟨rfl, (Option.some.inj found).symm⟩
    | succ k => cases found
  constructor
  · rfl
  · intro k n found
    obtain ⟨rfl, rfl⟩ := only found
    rfl
  · intro k n pos found
    obtain ⟨rfl, -⟩ := only found
    omega
  · intro k pos lt
    change k < 1 at lt
    omega
  · rfl
  · intro k n found
    obtain ⟨rfl, rfl⟩ := only found
    rfl

theorem known_new (now : Nat) : Known (FuseNode.Build.new now) := by
  intro inode mem
  have root : inode = 0 + 1 := by simpa [FuseNode.Build.new, fuseRootId] using mem
  exact ⟨0, FuseNode.newRoot now, root, rfl, rfl⟩

theorem grown_foldlM {done : List FileDescription} (known : Known b)
    (grown : Grown done b.treeList) (h : files.foldlM (FuseNode.Build.add now) b = .ok b') :
    Grown (done ++ files) b'.treeList := by
  induction files generalizing b done with
  | nil =>
    cases h
    rwa [List.append_nil]
  | cons file files ih =>
    rw [List.foldlM_cons] at h
    cases turn : b.add now file with
    | error e =>
      rw [turn] at h
      cases h
    | ok next =>
      rw [turn] at h
      have all := ih (known_add known turn) (grown_add known grown turn) h
      rwa [List.append_assoc] at all

theorem grown_buildTree {tree : List FuseNode} (h : FuseNode.buildTree now files = .ok tree) :
    Grown files tree := by
  unfold FuseNode.buildTree at h
  cases built : files.foldlM (FuseNode.Build.add now) (FuseNode.Build.new now) with
  | error e =>
    rw [built] at h
    cases h
  | ok b =>
    rw [built] at h
    cases h
    exact grown_foldlM (known_new now) (grown_new now) built

/-- The node at each position but the first stands for the file before it, below one
directory that came before it. -/
structure WellFormed (files : List FileDescription) (tree : List FuseNode) : Prop where
  length : tree.length = files.length + 1
  numbered : ∀ (k : Nat) (n : FuseNode), 1 ≤ k → tree[k]? = some n →
    n.attributes.inode = k + 1 ∧ n.index = k - 1 ∧
    ∃ file, files[k - 1]? = some file ∧ fileName file.name = some n.name ∧
      n.connId = file.connId ∧ n.attributes.kind = file.kind ∧ n.attributes.size = file.size
  parent : ∀ (k : Nat) (n : FuseNode), 1 ≤ k → tree[k]? = some n →
    ∃ (p : Nat) (q : FuseNode), n.parent = some (p + 1) ∧ p < k ∧
    tree[p]? = some q ∧ q.attributes.kind = .directory ∧ q.children.count (k + 1) = 1 ∧
    ∀ (p' : Nat) (q' : FuseNode), tree[p']? = some q' → p' ≠ p → k + 1 ∉ q'.children
  named : ∀ (k : Nat) (n : FuseNode), 1 ≤ k → tree[k]? = some n →
    n.name ≠ [] ∧ '/' ∉ n.name ∧ n.name ≠ ['.'] ∧ n.name ≠ ['.', '.']

theorem mem_childrenOf {inode : Nat} :
    k + 1 ∈ childrenOf nodes inode ↔ k < nodes.length ∧ parentAt nodes k = some inode := by
  simp [childrenOf]

/-- The children of a node come in the order of their inodes. -/
theorem sorted_childrenOf (inode : Nat) : (childrenOf nodes inode).Pairwise (· < ·) := by
  unfold childrenOf
  rw [List.pairwise_map]
  exact (List.pairwise_lt_range.filter _).imp Nat.succ_lt_succ

theorem nodup_childrenOf (inode : Nat) : (childrenOf nodes inode).Nodup :=
  (sorted_childrenOf inode).imp Nat.ne_of_lt

theorem parentAt_eq (found : nodes[k]? = some n) : parentAt nodes k = n.parent := by
  rw [parentAt, found]
  rfl

theorem Grown.wellFormed (grown : Grown files nodes) : WellFormed files nodes := by
  constructor
  · exact grown.length
  · intro k n pos found
    obtain ⟨index, -, file⟩ := grown.standsFor k n pos found
    exact ⟨grown.numbered k n found, index, file⟩
  · intro k n pos found
    have lt := lt_of_getElem? found
    obtain ⟨p, q, is, before, dir, isDir⟩ := grown.parent k pos lt
    refine ⟨p, q, (parentAt_eq found).symm.trans is, before, dir, isDir, ?_, ?_⟩
    · rw [grown.children p q dir, List.count_eq_one_of_mem (nodup_childrenOf _)]
      exact mem_childrenOf.mpr ⟨lt, is⟩
    · intro p' q' other differs mem
      rw [grown.children p' q' other, mem_childrenOf, is] at mem
      have same := Option.some.inj mem.2
      omega
  · intro k n pos found
    have isName := (grown.standsFor k n pos found).isName
    have ends := isName.notRedundant
    simp only [redundant, Bool.or_eq_false_iff, decide_eq_false_iff_not] at ends
    exact ⟨ends.1, isName.noSep, ends.2, isName.notParent⟩

variable {s : FuseServer} {tree : List FuseNode}

theorem node_of_entry (served : s.files.map (·.node) = tree) {inode : Nat} {e : ServedNode}
    (found : s.entry inode = some e) :
    ∃ k, inode = k + 1 ∧ tree[k]? = some e.node := by
  unfold entry at found
  split at found
  · cases found
  · refine ⟨inode - 1, by omega, ?_⟩
    rw [← served, List.getElem?_map, found]
    rfl

theorem inode_of_entry (grown : Grown files tree) (served : s.files.map (·.node) = tree)
    {inode : Nat} {e : ServedNode} (found : s.entry inode = some e) :
    e.node.attributes.inode = inode := by
  obtain ⟨k, rfl, at'⟩ := node_of_entry served found
  exact grown.numbered k e.node at'

theorem children_of_entry (grown : Grown files tree) (served : s.files.map (·.node) = tree)
    {inode : Nat} {e : ServedNode} (found : s.entry inode = some e) :
    e.node.children.Pairwise (· < ·) := by
  obtain ⟨k, rfl, at'⟩ := node_of_entry served found
  rw [grown.children k e.node at']
  exact sorted_childrenOf _

/-- The child of a name is the first that has it. -/
theorem findChild_eq (grown : Grown files tree) (served : s.files.map (·.node) = tree)
    {children : List Nat} (sorted : children.Pairwise (· < ·)) {inode : Nat} {child : ServedNode}
    (mem : inode ∈ children) (found : s.entry inode = some child)
    (first : ∀ i e, i ∈ children → i < inode → s.entry i = some e → osName e ≠ osName child) :
    s.findChild children (osName child) = some child := by
  have hit : ∃ c, s.findChild children (osName child) = some c := by
    apply Option.isSome_iff_exists.mp
    unfold findChild
    rw [List.find?_isSome]
    exact ⟨child, List.mem_filterMap.mpr ⟨inode, mem, found⟩, decide_eq_true rfl⟩
  obtain ⟨c, hit⟩ := hit
  have order : (children.filterMap s.entry).Pairwise
      fun c d => c.node.attributes.inode < d.node.attributes.inode := by
    rw [List.pairwise_filterMap]
    refine sorted.imp ?_
    intro i j lt c at' d at''
    rwa [inode_of_entry grown served at', inode_of_entry grown served at'']
  unfold findChild at hit
  obtain ⟨named, before, after, whole, none⟩ := List.find?_eq_some_iff_append.mp hit
  have named := of_decide_eq_true named
  have amongC : c ∈ children.filterMap s.entry := by simp [whole]
  obtain ⟨i, memI, foundI⟩ := List.mem_filterMap.mp amongC
  have among : child ∈ before ++ c :: after := by
    rw [← whole]
    exact List.mem_filterMap.mpr ⟨inode, mem, found⟩
  have notBefore : child ∉ before := by
    intro early
    have unlike := none child early
    simp at unlike
  rcases (List.mem_append.mp among).resolve_left notBefore with here | ⟨_, later⟩
  · exact hit
  · rw [whole, List.pairwise_append, List.pairwise_cons] at order
    have lt := order.2.1.1 child later
    rw [inode_of_entry grown served foundI, inode_of_entry grown served found] at lt
    exact absurd named (first i c memI lt foundI)

/-- Every child is a node. -/
theorem entry_of_child (grown : Grown files tree) (served : s.files.map (·.node) = tree)
    {dir inode : Nat} {d : ServedNode} (found : s.entry dir = some d)
    (mem : inode ∈ d.node.children) : ∃ child, s.entry inode = some child := by
  obtain ⟨p, rfl, at'⟩ := node_of_entry served found
  rw [grown.children p d.node at', childrenOf] at mem
  obtain ⟨k, inside, rfl⟩ := List.mem_map.mp mem
  have lt := List.mem_range.mp (List.mem_filter.mp inside).1
  rw [← served, List.length_map] at lt
  refine ⟨s.files[k], ?_⟩
  rw [entry, if_neg (Nat.succ_ne_zero k)]
  exact List.getElem?_eq_getElem lt

theorem mem_readdir {dir fh room : Nat} {offset : Int} {entries : List DirEntry} {e : DirEntry}
    (h : s.readdir dir fh offset room = .directory entries) (mem : e ∈ entries) :
    ∃ d, s.entry dir = some d ∧ (e.ino, e.kind, e.name) ∈ s.dirEntries dir d := by
  unfold readdir at h
  split at h
  · cases h
  · rename_i d found
    split at h
    · cases h
    · split at h
      · cases h
      · cases h
        obtain ⟨⟨⟨ino, kind, name⟩, i⟩, inside, rfl⟩ := List.mem_map.mp mem
        refine ⟨d, found, ?_⟩
        have listed := List.mem_of_mem_drop (List.mem_of_mem_take inside)
        exact List.fst_mem_of_mem_zipIdx listed

theorem mem_dirEntries {dir ino : Nat} {d : ServedNode} {kind : FileType} {name : Bytes}
    (mem : (ino, kind, name) ∈ s.dirEntries dir d) :
    name = utf8 "." ∨ name = utf8 ".." ∨ ino ∈ d.node.children ∧
      ∃ child, s.entry ino = some child ∧ name = osName child := by
  unfold dirEntries at mem
  rw [List.cons_append, List.mem_cons, List.mem_append] at mem
  rcases mem with self | parent | child
  · cases self
    exact .inl rfl
  · obtain ⟨inode, -, is⟩ := List.mem_map.mp parent
    cases is
    exact .inr (.inl rfl)
  · obtain ⟨inode, among, is⟩ := List.mem_filterMap.mp child
    obtain ⟨n, found, is⟩ := Option.map_eq_some_iff.mp is
    cases is
    exact .inr (.inr ⟨among, n, found, rfl⟩)

/-- A directory lists its children, and a child is found by its name if the name is not
too long and no child before it has the same. -/
structure Navigable (s : FuseServer) : Prop where
  listed : ∀ dir fh offset room entries, s.readdir dir fh offset room = .directory entries →
    ∀ e ∈ entries, e.name = utf8 "." ∨ e.name = utf8 ".." ∨
      ∃ d child, s.entry dir = some d ∧ e.ino ∈ d.node.children ∧ s.entry e.ino = some child ∧
        e.name = osName child
  found : ∀ dir d, s.entry dir = some d → d.node.attributes.kind = .directory →
    ∀ inode ∈ d.node.children, ∃ child, s.entry inode = some child ∧
      ((osName child).length ≤ maxNameLen →
        (∀ i e, i ∈ d.node.children → i < inode → s.entry i = some e →
          osName e ≠ osName child) →
        ∃ attr, s.lookup dir (osName child) = .entry attr s.generation ∧ attr.ino = inode)

theorem navigable (grown : Grown files tree) (served : s.files.map (·.node) = tree) :
    Navigable s := by
  constructor
  · intro dir fh offset room entries listing e mem
    obtain ⟨d, found, listed⟩ := mem_readdir listing mem
    rcases mem_dirEntries listed with self | parent | ⟨among, child, is, named⟩
    · exact .inl self
    · exact .inr (.inl parent)
    · exact .inr (.inr ⟨d, child, found, among, is, named⟩)
  · intro dir d found isDir inode mem
    obtain ⟨child, is⟩ := entry_of_child grown served found mem
    refine ⟨child, is, fun short first => ⟨.from child.node.attributes, ?_, ?_⟩⟩
    · have sorted := children_of_entry grown served found
      unfold lookup
      rw [if_neg (Nat.not_lt.mpr short), found]
      simp only [isDir, ne_eq, not_true_eq_false, if_false]
      rw [findChild_eq grown served sorted mem is first]
    · exact inode_of_entry grown served is

/-- **The tree of the peer's files is well formed, and its names lead to its nodes.** -/
theorem tree_wellFormed (now : Nat) (files : List FileDescription) (tree : List FuseNode)
    (built : FuseNode.buildTree now files = .ok tree) :
    WellFormed files tree ∧ ∀ s : FuseServer, s.files.map (·.node) = tree → Navigable s :=
  ⟨(grown_buildTree built).wellFormed, fun _ served => navigable (grown_buildTree built) served⟩

/-- A file of the peer. -/
def sampleDescription (name : List Char) (kind : FileType) : FileDescription :=
  ⟨7, name, kind, 0, 0, 0, 0, 0, permRw⟩

/-- A folder and a file in it. -/
def folderAndFile : List FileDescription :=
  [sampleDescription "folder".toList .directory, sampleDescription "folder/file".toList .file]

theorem tree_wellFormed_folder :
    ∃ tree, FuseNode.buildTree 0 folderAndFile = .ok tree ∧ WellFormed folderAndFile tree ∧
      ∀ s : FuseServer, s.files.map (·.node) = tree → Navigable s := by
  have built : (FuseNode.buildTree 0 folderAndFile).isOk = true := by decide +kernel
  cases is : FuseNode.buildTree 0 folderAndFile with
  | error e =>
    rw [is] at built
    cases built
  | ok tree => exact ⟨tree, rfl, tree_wellFormed 0 folderAndFile tree is⟩

def childrenAt (s : FuseServer) (dir : Nat) : List Nat :=
  match s.entry dir with
  | some d => if d.node.attributes.kind = .directory then d.node.children else []
  | none => []

def Reply.ino? : Reply → Option Nat
  | .entry found _ => some found.ino
  | _ => none

/-- Every child of every directory is found by its name. -/
def LookupFinds (s : FuseServer) : Prop :=
  ∀ dir, ∀ inode ∈ childrenAt s dir, ∃ child, s.entry inode = some child ∧
    (s.lookup dir (osName child)).ino? = some inode

/-- What the name of a node leads to. -/
def byName (s : FuseServer) (dir inode : Nat) : Option (Option Nat) :=
  (s.entry inode).map fun child => (s.lookup dir (osName child)).ino?

theorem not_lookupFinds (dir inode : Nat) (other : Option Nat)
    (mem : inode ∈ childrenAt s dir) (leads : byName s dir inode = some other)
    (differs : other ≠ some inode) : ¬ LookupFinds s := by
  intro finds
  obtain ⟨child, found, is⟩ := finds dir inode mem
  rw [byName, found, Option.map_some, is] at leads
  exact differs (Option.some.inj leads).symm

/-- Two files of one name in directories that the list does not have. -/
def twins : List FileDescription :=
  [sampleDescription "a/x".toList .file, sampleDescription "b/x".toList .file]

/-- A name of 256 bytes. -/
def longName : List FileDescription := [sampleDescription (List.replicate 256 'n') .file]

/-- Of two children of one name the second is not found, nor is a name of 256 bytes. -/
theorem lookup_misses :
    (FuseNode.buildTree 0 twins).isOk = true ∧ ¬ LookupFinds (new.loadFileList 0 twins).1 ∧
      (FuseNode.buildTree 0 longName).isOk = true ∧
      ¬ LookupFinds (new.loadFileList 0 longName).1 := by
  refine ⟨by decide +kernel, ?_, by decide +kernel, ?_⟩
  · exact not_lookupFinds 1 3 (some 2) (by decide +kernel)
      (by decide +kernel) (by decide)
  · exact not_lookupFinds 1 2 none (by decide +kernel)
      (by decide +kernel) (by decide)

end CamelliaRemote.Clipboard.Mount
