import CamelliaRemote.Clipboard.Forest
import CamelliaRemote.Clipboard.Fuse

namespace CamelliaRemote.Clipboard
open Codec UnixPath FileDescription

variable {name : Bytes} {names above : List Bytes} {dir relativeRoot : Bytes} {fs : Fs}
  {forest : Forest} {e : Placed} {entries : List Placed} {parent : Option Nat} {start : Nat}

theorem utf8_chars (h : Admitted name) : utf8 (String.ofList (chars name)) = name := by
  obtain ⟨s, rfl, -⟩ := h.text
  simp

theorem mem_utf8 {s : String} {c : Char} (h : c ∈ s.toList) :
    utf8 (String.ofList [c]) ⊆ utf8 s := by
  obtain ⟨before, after, split⟩ := List.append_of_mem h
  have whole : s = String.ofList before ++ String.ofList [c] ++ String.ofList after := by
    rw [← String.toList_inj]
    simp [split]
  rw [whole, utf8_append, utf8_append]
  intro b mem
  exact List.mem_append_left _ (List.mem_append_right _ mem)

/-- The text of an admitted name is a name. -/
theorem name_chars (h : Admitted name) : Name (chars name) := by
  obtain ⟨s, rfl, -⟩ := h.text
  have back : ∀ t : String, s.toList = t.toList → utf8 s = utf8 t := fun t same => by
    rw [String.toList_inj.mp same]
  have ends := h.isName.notRedundant
  simp only [redundant, Bool.or_eq_false_iff, decide_eq_false_iff_not] at ends
  rw [chars_utf8]
  refine ⟨?_, ?_, ?_⟩
  · intro mem
    exact h.isName.noSep (mem_utf8 mem (by decide))
  · simp only [redundant, Bool.or_eq_false_iff, decide_eq_false_iff_not]
    exact ⟨fun same => ends.1 ((back "" same).trans (by decide)),
      fun same => ends.2 ((back "." same).trans (by decide))⟩
  · exact fun same => h.isName.notParent ((back ".." same).trans (by decide))

/-- Separators of a path and of its text stand in the same places. -/
theorem utf8_intercalate (h : ∀ n ∈ names, Admitted n) :
    [PathChar.sep].intercalate names =
      utf8 (String.ofList ([PathChar.sep].intercalate (names.map chars))) := by
  induction names with
  | nil => decide
  | cons n names ih =>
    simp only [List.mem_cons, forall_eq_or_imp] at h
    cases names with
    | nil => simp [utf8_chars h.1]
    | cons m names =>
      have sep : utf8 (String.ofList [PathChar.sep]) = [PathChar.sep] := by decide
      rw [List.intercalate_cons_cons, ih h.2]
      simp only [List.map_cons]
      rw [@List.intercalate_cons_cons _ _ (chars n), String.ofList_append, String.ofList_append,
        utf8_append, utf8_append, sep, utf8_chars h.1]

/-- The relative path of an entry, as a text. -/
def Placed.relativePath (e : Placed) : List Char := below [] (e.path.map chars)

theorem name_chars_of_mem {n : List Char} (h : ∀ n ∈ names, Admitted n)
    (isText : n ∈ names.map chars) : Name n := by
  obtain ⟨m, mem, rfl⟩ := List.mem_map.mp isText
  exact name_chars (h m mem)

/-- No character of a relative path is a backslash or a NUL. -/
theorem notMem_relativePath {c : Char} (isNot : c = '\\' ∨ c = '\x00')
    (h : ∀ n ∈ e.path, Admitted n) : c ∉ e.relativePath := by
  intro mem
  rcases mem_below mem with mem | isSep | ⟨n, isText, mem⟩
  · cases mem
  · rcases isNot with rfl | rfl <;> exact absurd isSep (by decide)
  · obtain ⟨m, isName, rfl⟩ := List.mem_map.mp isText
    obtain ⟨s, rfl, noBackslash, noNul⟩ := (h m isName).text
    rw [chars_utf8] at mem
    rcases isNot with rfl | rfl
    · exact noBackslash mem
    · exact noNul mem

section Sent

variable (same : components relativeRoot = components dir) (h : ∀ n ∈ e.path, Admitted n)

include same h in
theorem stripPrefix_entry :
    stripPrefix relativeRoot (below dir e.path) = some (utf8 (String.ofList e.relativePath)) := by
  rw [stripPrefix_below dir same (fun n mem => (h n mem).isName) (by simp [Placed.path]),
    utf8_intercalate h, Placed.relativePath, below_nil fun n mem => name_chars_of_mem h mem]

include same h in
theorem relativePath_opened :
    (e.opened relativeRoot dir).relativePath = String.ofList e.relativePath := by
  change fromUtf8Lossy ((stripPrefix relativeRoot (below dir e.path)).getD _) = _
  rw [stripPrefix_entry same h]
  simp

include same h in
theorem named_opened : (e.opened relativeRoot dir).Named := by
  refine ⟨String.ofList e.relativePath, ?_, ?_⟩
  · change (stripPrefix relativeRoot (below dir e.path)).getD _ = _
    rw [stripPrefix_entry same h]
    rfl
  · rw [String.toList_ofList]
    exact notMem_relativePath (.inr rfl) h

/-- What the receiver reads of an entry. -/
def Placed.read (e : Placed) (relativeRoot dir : Bytes) (connId : Int) : FileDescription :=
  (e.opened relativeRoot dir).received connId

include same h in
theorem name_read (connId : Int) : (e.read relativeRoot dir connId).name = e.relativePath := by
  change slashed (e.opened relativeRoot dir).relativePath.toList = _
  rw [relativePath_opened same h, String.toList_ofList, slashed]
  conv_rhs => rw [← List.map_id e.relativePath]
  refine List.map_congr_left fun c mem => if_neg ?_
  rintro rfl
  exact notMem_relativePath (.inl rfl) h mem

end Sent

/-- The inode of a directory by its number. -/
def inodeOf : Option Nat → Nat
  | none => fuseRootId
  | some i => i + 2

/-- The node of an entry, without what is in it. -/
def Placed.node (e : Placed) (relativeRoot dir : Bytes) (now : Nat) (connId : Int) : FuseNode :=
  { FuseNode.fromDescription now (e.index + 2)
      { e.read relativeRoot dir connId with name := chars e.name } with
    parent := some (inodeOf e.parent) }

/-- The inode that a path of the peer has. -/
def FuseNode.Build.lookup (b : FuseNode.Build) (names : List Bytes) : Nat :=
  ((b.subRootMap.find? fun entry => entry.1 = names.map (.normal ∘ chars)).map
    Prod.snd).getD fuseRootId

/-- The tree with one more node, known to its parent. -/
def addEntry (relativeRoot dir : Bytes) (now : Nat) (connId : Int) (nodes : List FuseNode)
    (e : Placed) : List FuseNode :=
  nodes.modify (inodeOf e.parent - 1) (.addChild (e.index + 2)) ++
    [e.node relativeRoot dir now connId]

/-- The nodes and the known directories after an entry. -/
def FuseNode.Build.after (b : FuseNode.Build) (relativeRoot dir : Bytes) (now : Nat) (connId : Int)
    (e : Placed) : FuseNode.Build where
  treeList := addEntry relativeRoot dir now connId b.treeList e
  subRootMap :=
    if e.mt.isDir then (e.path.map (.normal ∘ chars), e.index + 2) :: b.subRootMap
    else b.subRootMap

variable {now : Nat} {connId : Int} {b : FuseNode.Build}

theorem length_addEntries (entries : List Placed) (nodes : List FuseNode) :
    (entries.foldl (addEntry relativeRoot dir now connId) nodes).length =
      nodes.length + entries.length := by
  induction entries generalizing nodes with
  | nil => rfl
  | cons e entries ih =>
    rw [List.foldl_cons, ih, addEntry]
    simp
    omega

/-- One turn of the loop of `build_tree`. -/
theorem add_entry (now : Nat) (connId : Int) (same : components relativeRoot = components dir)
    (h : ∀ n ∈ e.path, Admitted n) (count : b.treeList.length = e.index + 1)
    (known : b.lookup e.above = inodeOf e.parent) :
    b.add now (e.read relativeRoot dir connId) = .ok (b.after relativeRoot dir now connId e) := by
  have texts : ∀ n ∈ e.above.map chars ++ [chars e.name], Name n := by
    intro n mem
    refine name_chars_of_mem h ?_
    simpa [Placed.path] using mem
  have path : e.relativePath = below [] (e.above.map chars ++ [chars e.name]) := by
    simp [Placed.relativePath, Placed.path]
  have whole : components e.relativePath = e.path.map (.normal ∘ chars) := by
    rw [path, components_below [] texts]
    simp [Placed.path]
    rfl
  have base : fileName e.relativePath = some (chars e.name) := by
    rw [path, fileName_below [] texts]
  have inode : b.parentInode e.relativePath = inodeOf e.parent := by
    have above : ∀ n ∈ e.above.map chars, Name n := fun n mem =>
      texts n (List.mem_append_left _ mem)
    obtain ⟨base, parent, components⟩ := parent_join (below [] (e.above.map chars))
      (texts (chars e.name) (List.mem_append_right _ (List.mem_singleton_self _)))
    have split : e.relativePath = join (below [] (e.above.map chars)) (chars e.name) := by
      simp [path, below]
    rw [components_below [] above, List.map_map] at components
    rw [FuseNode.Build.parentInode, split, parent, ← known]
    simp only [components]
    rfl
  have kind : ((e.read relativeRoot dir connId).kind = .directory) = (e.mt.isDir = true) := by
    change ((if e.mt.isDir then FileType.directory else .file) = .directory) = _
    cases e.mt.isDir <;> simp
  unfold FuseNode.Build.add
  simp only [name_read same h, base, inode, whole, kind, count]
  rfl

theorem lookup_after {names : List Bytes} (short : names.length < e.path.length) :
    (b.after relativeRoot dir now connId e).lookup names = b.lookup names := by
  have other : ¬ e.path.map (Component.normal ∘ chars) = names.map (.normal ∘ chars) := by
    intro same
    have length := congrArg List.length same
    simp only [List.length_map] at length
    omega
  unfold FuseNode.Build.after FuseNode.Build.lookup
  cases e.mt.isDir with
  | false => rfl
  | true => simp only [if_true, List.find?_cons, other, decide_false]

theorem lookup_after_self (isDir : e.mt.isDir = true) :
    (b.after relativeRoot dir now connId e).lookup e.path = e.index + 2 := by
  unfold FuseNode.Build.after FuseNode.Build.lookup
  simp [isDir]

/-- `build_tree` over the entries of a forest. -/
theorem add_forest (same : components relativeRoot = components dir) (parent : Option Nat)
    (start : Nat) (valid : forest.Valid) (named : ∀ n ∈ above, Admitted n)
    (count : b.treeList.length = start + 1) (known : b.lookup above = inodeOf parent) :
    ∃ b', ((forest.placed above parent start).map (·.read relativeRoot dir connId)).foldlM
        (FuseNode.Build.add now) b = .ok b' ∧
      b'.treeList =
        (forest.placed above parent start).foldl (addEntry relativeRoot dir now connId)
          b.treeList ∧
      ∀ names, names.length ≤ above.length → b'.lookup names = b.lookup names := by
  induction forest generalizing above parent start b with
  | nil => exact ⟨b, rfl, rfl, fun _ _ => rfl⟩
  | file name mt rest ih =>
    have admitted := Forest.admitted_of_mem_placed valid named parent start
    obtain ⟨-, isFile, -, valid⟩ := valid
    let e : Placed := ⟨start, above, name, mt, parent⟩
    have added := add_entry now connId same (admitted e List.mem_cons_self) count known
    have unchanged : ∀ names, names.length ≤ above.length →
        (b.after relativeRoot dir now connId e).lookup names = b.lookup names := by
      intro names short
      exact lookup_after (by simp [e, Placed.path]; omega)
    obtain ⟨b', folded, tree, lookup⟩ := ih parent (start + 1) valid named
      (b := b.after relativeRoot dir now connId e)
      (by simp [FuseNode.Build.after, addEntry, count])
      ((unchanged above le_rfl).trans known)
    refine ⟨b', ?_, tree, fun names short => (lookup names short).trans (unchanged names short)⟩
    rw [Forest.placed, List.map_cons, List.foldlM_cons, added]
    exact folded
  | dir name mt children rest ih₁ ih₂ =>
    have admitted := Forest.admitted_of_mem_placed valid named parent start
    obtain ⟨-, isDir, -, validChildren, valid⟩ := valid
    let e : Placed := ⟨start, above, name, mt, parent⟩
    have added := add_entry now connId same (admitted e List.mem_cons_self) count known
    have unchanged : ∀ names, names.length ≤ above.length →
        (b.after relativeRoot dir now connId e).lookup names = b.lookup names := by
      intro names short
      exact lookup_after (by simp [e, Placed.path]; omega)
    obtain ⟨b₁, folded₁, tree₁, lookup₁⟩ := ih₁ (some start) (start + 1) validChildren
      (admitted e List.mem_cons_self) (b := b.after relativeRoot dir now connId e)
      (by simp [FuseNode.Build.after, addEntry, count]) (lookup_after_self isDir)
    have kept : ∀ names, names.length ≤ above.length → b₁.lookup names = b.lookup names := by
      intro names short
      refine (lookup₁ names ?_).trans (unchanged names short)
      simp [e, Placed.path]
      omega
    have grown : b₁.treeList.length = start + children.count + 1 + 1 := by
      rw [tree₁, length_addEntries, Forest.length_placed]
      simp [FuseNode.Build.after, addEntry, count]
      omega
    obtain ⟨b₂, folded₂, tree₂, lookup₂⟩ := ih₂ parent (start + children.count + 1) valid named
      grown ((kept above le_rfl).trans known)
    refine ⟨b₂, ?_, ?_, fun names short => (lookup₂ names short).trans (kept names short)⟩
    · rw [Forest.placed, List.map_cons, List.foldlM_cons, added]
      change List.foldlM _ _ (List.map _ (_ ++ _)) = _
      rw [List.map_append, List.foldlM_append]
      change (List.foldlM _ _ (List.map _ (children.placed e.path _ _)) >>= _) = _
      rw [folded₁]
      exact folded₂
    · rw [tree₂, tree₁, Forest.placed, List.foldl_cons, List.foldl_append]
      rfl

/-- The inodes of what stands right in a directory. -/
def childrenOf (entries : List Placed) (dir : Option Nat) : List Nat :=
  (entries.filter (·.parent = dir)).map (·.index + 2)

/-- Entries are numbered from 0, and a directory comes before what is in it. -/
def Numbered (entries : List Placed) : Prop :=
  ∀ (i : Nat) (e : Placed), entries[i]? = some e → e.index = i ∧ ∀ p, e.parent = some p → p < i

theorem Forest.numbered_placed {i : Nat}
    (h : (forest.placed above parent start)[i]? = some e) :
    e.index = start + i ∧
      (e.parent = parent ∨ ∃ p, e.parent = some p ∧ p < e.index) := by
  induction forest generalizing above parent start i with
  | nil => simp [placed] at h
  | file name mt rest ih =>
    cases i with
    | zero =>
      obtain rfl : _ = e := by simpa [placed] using h
      exact ⟨rfl, .inl rfl⟩
    | succ i =>
      obtain ⟨index, parent⟩ := ih (i := i) (by simpa [placed] using h)
      exact ⟨by omega, parent⟩
  | dir name mt children rest ih₁ ih₂ =>
    cases i with
    | zero =>
      obtain rfl : _ = e := by simpa [placed] using h
      exact ⟨rfl, .inl rfl⟩
    | succ i =>
      rw [placed, List.getElem?_cons_succ, List.getElem?_append, length_placed] at h
      split at h
      · obtain ⟨index, isHere | inside⟩ := ih₁ h
        · exact ⟨by omega, .inr ⟨start, isHere, by omega⟩⟩
        · exact ⟨by omega, .inr inside⟩
      · obtain ⟨index, parent⟩ := ih₂ h
        exact ⟨by omega, parent⟩

theorem Forest.numbered_entries (forest : Forest) : Numbered forest.entries := by
  intro i e h
  obtain ⟨index, parent⟩ := numbered_placed h
  refine ⟨by omega, fun p isParent => ?_⟩
  rcases parent with none | ⟨q, isQ, lt⟩
  · rw [isParent] at none
    cases none
  · rw [isParent, Option.some.injEq] at isQ
    omega

theorem childrenOf_concat (entries : List Placed) (e : Placed) (dir : Option Nat) :
    childrenOf (entries ++ [e]) dir =
      childrenOf entries dir ++ if e.parent = dir then [e.index + 2] else [] := by
  unfold childrenOf
  by_cases is : e.parent = dir <;> simp [is]

/-- The whole tree: the root, then the nodes in order, each with what is in it. -/
def tree (relativeRoot dir : Bytes) (now : Nat) (connId : Int) (entries : List Placed) :
    List FuseNode :=
  { FuseNode.newRoot now with children := childrenOf entries none } ::
    entries.map fun e =>
      { e.node relativeRoot dir now connId with children := childrenOf entries (some e.index) }

/-- Nothing is in the last entry yet. -/
theorem childrenOf_last (numbered : Numbered (entries ++ [e])) :
    childrenOf (entries ++ [e]) (some e.index) = [] := by
  obtain ⟨last, -⟩ := numbered entries.length e (by simp)
  rw [childrenOf, List.map_eq_nil_iff, List.filter_eq_nil_iff]
  intro e' mem isParent
  obtain ⟨i, at_i⟩ := List.mem_iff_getElem?.mp mem
  have lt := (numbered i e' at_i).2 e.index (of_decide_eq_true isParent)
  have bound := (List.getElem?_eq_some_iff.mp at_i).1
  simp only [List.length_append, List.length_singleton] at bound
  omega

theorem tree_concat (numbered : Numbered (entries ++ [e])) :
    addEntry relativeRoot dir now connId (tree relativeRoot dir now connId entries) e =
      tree relativeRoot dir now connId (entries ++ [e]) := by
  have last := childrenOf_last numbered
  unfold tree addEntry
  rw [List.map_append, List.map_singleton, last]
  cases isParent : e.parent with
  | none =>
    simp [inodeOf, fuseRootId, FuseNode.addChild, childrenOf_concat, isParent]
    rfl
  | some p =>
    have indices : ∀ (i : Nat) (e' : Placed), entries[i]? = some e' → e'.index = i := by
      intro i e' h
      refine (numbered i e' ?_).1
      rw [List.getElem?_append_left (List.getElem?_eq_some_iff.mp h).1, h]
    simp only [inodeOf, childrenOf_concat, isParent, reduceCtorEq, if_false, List.append_nil]
    rw [show p + 2 - 1 = p + 1 from rfl, List.modify_succ_cons, List.cons_append]
    refine congrArg _ (congrArg₂ _ ?_ rfl)
    refine List.ext_getElem? fun i => ?_
    rw [List.getElem?_modify, List.getElem?_map, List.getElem?_map]
    cases at_i : entries[i]? with
    | none => rfl
    | some e' =>
      simp only [Option.map_some, Option.map_eq_map, indices i e' at_i, Option.some.injEq]
      by_cases is : p = i
      · simp [is, FuseNode.addChild]
      · simp [is]

theorem foldl_addEntry (numbered : Numbered entries) :
    entries.foldl (addEntry relativeRoot dir now connId) [FuseNode.newRoot now] =
      tree relativeRoot dir now connId entries := by
  induction entries using List.reverseRecOn with
  | nil => rfl
  | append_singleton entries e ih =>
    have before : Numbered entries := by
      intro i e' h
      refine numbered i e' ?_
      rw [List.getElem?_append_left (List.getElem?_eq_some_iff.mp h).1, h]
    rw [List.foldl_append, ih before]
    exact tree_concat numbered

/-- `nodes` is the tree of the selection, `files` the sender's list of it. -/
structure Mirrors (dir : Bytes) (entries : List Placed) (files : List LocalFile)
    (nodes : List FuseNode) : Prop where
  sender : files.map LocalFile.path = entries.map fun e => below dir e.path
  count : nodes.length = entries.length + 1
  root : ∃ root, nodes[0]? = some root ∧ root.parent = none ∧
    root.attributes.inode = inodeOf none ∧ root.children = childrenOf entries none
  node : ∀ (i : Nat) (e : Placed), entries[i]? = some e → ∃ node, nodes[i + 1]? = some node ∧
    node.index = i ∧ node.attributes.inode = inodeOf (some i) ∧
    utf8 (String.ofList node.name) = e.name ∧
    node.attributes.kind = (if e.mt.isDir then .directory else .file) ∧
    node.attributes.size = e.mt.len.toNat ∧
    node.parent = some (inodeOf e.parent) ∧ node.children = childrenOf entries (some i)

/-- A selection arrives as the tree that it is. -/
def Arrives (fs : Fs) (dir : Bytes) (forest : Forest) (now : Nat) (connId : Int) (fuel : Nat) :
    Prop :=
  ∃ files pdu descs nodes, constructFileList fs fuel (forest.names.map (join dir)) =
      some (.ok files) ∧
    buildFileListPdu files = some pdu ∧ parseFileDescriptors pdu connId = .ok descs ∧
    FuseNode.buildTree now descs = .ok nodes ∧ Mirrors dir forest.entries files nodes

/-- Every relative path of the selection fits the name block of a descriptor. -/
def Forest.Short (forest : Forest) : Prop :=
  ∀ e ∈ forest.entries, (Utf16.encodeUnits e.relativePath).length ≤ 260

theorem walkPaths_map (fs : Fs) (relativeRoot dir : Bytes) (fuel : Nat) (names : List Bytes)
    (walk : Walk) :
    walkPaths fs relativeRoot fuel (names.map (join dir)) walk =
      walkEntries dir (constrFileLst fs relativeRoot fuel) (names.map .ok) walk := by
  induction names generalizing walk with
  | nil => rfl
  | cons name names ih =>
    rw [List.map_cons, List.map_cons, walkPaths, walkEntries]
    cases constrFileLst fs relativeRoot fuel (join dir name) walk with
    | none => rfl
    | some walked =>
      cases walked with
      | error err => rfl
      | ok walk => exact ih walk

/-- The sender's list. -/
theorem constructFileList_forest {fuel : Nat} (nonempty : forest ≠ .nil) (valid : forest.Valid)
    (stores : fs.Stores dir forest) (enough : forest.count < fuel) :
    ∃ relativeRoot, components relativeRoot = components dir ∧
      constructFileList fs fuel (forest.names.map (join dir)) =
        some (.ok (forest.entries.map (Placed.opened relativeRoot dir))) := by
  obtain ⟨first, names, isNames, isName⟩ :
      ∃ first names, forest.names = first :: names ∧ Name first := by
    cases forest with
    | nil => exact absurd rfl nonempty
    | file name mt rest => exact ⟨name, rest.names, rfl, valid.1.isName⟩
    | dir name mt children rest => exact ⟨name, rest.names, rfl, valid.1.isName⟩
  obtain ⟨relativeRoot, isParent, same⟩ := parent_join dir isName
  have fresh : ({} : Walk).Fresh dir (forest.entries.map Placed.path) := by simp [Walk.Fresh]
  have above : ∀ n ∈ ([] : List Bytes), Admitted n := by simp
  have walked := walk_forest relativeRoot none 0 enough stores valid above fresh
  change walkEntries dir _ _ _ = _ at walked
  rw [← walkPaths_map, isNames, List.map_cons] at walked
  refine ⟨relativeRoot, same, ?_⟩
  rw [isNames, List.map_cons, constructFileList]
  simp only [isParent, walked]
  simp [Walk.after, Except.map, Forest.entries]

/-- What the peer reads of a selection. -/
theorem parse_forest {relativeRoot : Bytes} (same : components relativeRoot = components dir)
    (valid : forest.Valid) (short : forest.Short) (connId : Int) :
    ∃ pdu, buildFileListPdu (forest.entries.map (Placed.opened relativeRoot dir)) = some pdu ∧
      parseFileDescriptors pdu connId =
        if forest.count < 2 ^ 32 then
          .ok (forest.entries.map (·.read relativeRoot dir connId))
        else .error (.invalidRequest "file descriptor request with invalid length") := by
  have admitted : ∀ e ∈ forest.entries, ∀ n ∈ e.path, Admitted n :=
    Forest.admitted_of_mem_placed valid (by simp) none 0
  obtain ⟨pdu, built, -, parsed⟩ :=
    @parse_buildFileListPdu (forest.entries.map (Placed.opened relativeRoot dir))
      (by
        intro f mem
        obtain ⟨e, isEntry, rfl⟩ := List.mem_map.mp mem
        exact named_opened same (admitted e isEntry))
      (by
        intro f mem
        obtain ⟨e, isEntry, rfl⟩ := List.mem_map.mp mem
        rw [LocalFile.nameUnits, relativePath_opened same (admitted e isEntry),
          String.toList_ofList]
        exact short e isEntry)
      connId
  refine ⟨pdu, built, ?_⟩
  rw [parsed, List.length_map, Forest.entries, Forest.length_placed, List.map_map]
  rfl

/-- What is pasted of a selection. -/
theorem buildTree_forest {relativeRoot : Bytes} (same : components relativeRoot = components dir)
    (valid : forest.Valid) (now : Nat) (connId : Int) :
    FuseNode.buildTree now (forest.entries.map (·.read relativeRoot dir connId)) =
      .ok (tree relativeRoot dir now connId forest.entries) := by
  obtain ⟨b, folded, isTree, -⟩ := @add_forest [] dir relativeRoot forest now connId
    (FuseNode.Build.new now) same none 0 valid (by simp) rfl rfl
  rw [FuseNode.buildTree, Forest.entries, folded]
  change Except.ok b.treeList = _
  rw [isTree]
  exact congrArg Except.ok (foldl_addEntry forest.numbered_entries)

theorem mirrors_tree {relativeRoot : Bytes} (valid : forest.Valid) (now : Nat) (connId : Int) :
    Mirrors dir forest.entries (forest.entries.map (Placed.opened relativeRoot dir))
      (tree relativeRoot dir now connId forest.entries) where
  sender := by
    rw [List.map_map]
    rfl
  count := by simp [tree]
  root := ⟨_, rfl, rfl, rfl, rfl⟩
  node := by
    intro i e at_i
    have index := (forest.numbered_entries i e at_i).1
    have admitted := Forest.admitted_of_mem_placed valid (by simp) none 0 e
      (List.mem_of_getElem? at_i) e.name (by simp [Placed.path])
    subst index
    refine ⟨{ e.node relativeRoot dir now connId with
      children := childrenOf forest.entries (some e.index) }, ?_, rfl, rfl, ?_, rfl, rfl, rfl, rfl⟩
    · rw [tree, List.getElem?_cons_succ, List.getElem?_map, at_i, Option.map_some]
    · exact utf8_chars admitted

/-- **The pasted tree is the copied tree.** -/
theorem pasted_tree_is_copied_tree (fs : Fs) (dir : Bytes) (forest : Forest) (now : Nat)
    (connId : Int) (fuel : Nat) (nonempty : forest ≠ .nil) (valid : forest.Valid)
    (stores : fs.Stores dir forest) (short : forest.Short) (count : forest.count < 2 ^ 32)
    (enough : forest.count < fuel) : Arrives fs dir forest now connId fuel := by
  obtain ⟨relativeRoot, same, listed⟩ := constructFileList_forest nonempty valid stores enough
  obtain ⟨pdu, built, parsed⟩ := parse_forest same valid short connId
  rw [if_pos count] at parsed
  exact ⟨_, pdu, _, _, listed, built, parsed, buildTree_forest same valid now connId,
    mirrors_tree valid now connId⟩

def sampleFs : Fs where
  metadata path := .ok { len := 3, isDir := path = utf8 "/home/d" }
  readDir _ := .ok [.ok (utf8 "a")]
  openFile _ := .ok ()
  content _ := .ok []

/-- A directory `d` with a file `a`, and a file `b`. -/
def sampleForest : Forest :=
  .dir (utf8 "d") { len := 3, isDir := true } (.file (utf8 "a") { len := 3, isDir := false } .nil)
    (.file (utf8 "b") { len := 3, isDir := false } .nil)

theorem pasted_sampleForest :
    sampleForest.count < 2 ^ 32 ∧ Arrives sampleFs (utf8 "/home") sampleForest 0 7 4 := by
  have admitted : ∀ s ∈ ["a", "b", "d"], Admitted (utf8 s) := by
    intro s mem
    have checked : ∀ s ∈ ["a", "b", "d"], PathChar.sep ∉ utf8 s ∧ redundant (utf8 s) = false ∧
        utf8 s ≠ [PathChar.dot, PathChar.dot] ∧ '\\' ∉ s.toList ∧ '\x00' ∉ s.toList := by
      decide +kernel
    obtain ⟨noSep, kept, notParent, noBackslash, noNul⟩ := checked s mem
    exact ⟨⟨noSep, kept, notParent⟩, s, rfl, noBackslash, noNul⟩
  refine ⟨by decide, pasted_tree_is_copied_tree sampleFs (utf8 "/home") sampleForest 0 7 4
    (by simp [sampleForest]) ?_ ?_ ?_ (by decide) (by decide)⟩
  · refine ⟨admitted "d" (by simp), rfl, by decide +kernel, ⟨admitted "a" (by simp), rfl, ?_⟩,
      admitted "b" (by simp), rfl, ?_⟩
    · simp [Forest.names, Forest.Valid]
    · simp [Forest.names, Forest.Valid]
  · refine ⟨by decide +kernel, rfl, ⟨by decide +kernel, trivial⟩, by decide +kernel, trivial⟩
  · unfold Forest.Short
    decide +kernel

/-- 32 letters, one for each bit of a number. -/
def label (n : Nat) : List Char :=
  (List.range 32).map fun k => if n.testBit k then 'b' else 'a'

def flat : Nat → Forest
  | 0 => .nil
  | n + 1 => .file (utf8 (String.ofList (label n))) { len := 3, isDir := false } (flat n)

theorem mem_label {n : Nat} {c : Char} (h : c ∈ label n) : c = 'a' ∨ c = 'b' := by
  obtain ⟨k, -, rfl⟩ := List.mem_map.mp h
  split
  · exact .inr rfl
  · exact .inl rfl

theorem label_inj {n m : Nat} (hn : n < 2 ^ 32) (hm : m < 2 ^ 32) (same : label n = label m) :
    n = m := by
  refine Nat.eq_of_testBit_eq fun k => ?_
  by_cases small : k < 32
  · have bit := List.map_inj_left.mp same k (List.mem_range.mpr small)
    cases hnk : n.testBit k <;> cases hmk : m.testBit k <;> simp [hnk, hmk] at bit ⊢
  · have most : 2 ^ 32 ≤ 2 ^ k := Nat.pow_le_pow_right (by decide) (by omega)
    rw [Nat.testBit_lt_two_pow (by omega), Nat.testBit_lt_two_pow (by omega)]

/-- A text of the two letters has a byte for each. -/
theorem utf8_letters {cs : List Char} (h : ∀ c ∈ cs, c = 'a' ∨ c = 'b') :
    utf8 (String.ofList cs) = cs.map fun c => if c = 'a' then 97 else 98 := by
  induction cs with
  | nil => decide
  | cons c cs ih =>
    simp only [List.mem_cons, forall_eq_or_imp] at h
    rw [← List.singleton_append, String.ofList_append, utf8_append, ih h.2]
    rcases h.1 with rfl | rfl <;> rfl

theorem admitted_label (n : Nat) : Admitted (utf8 (String.ofList (label n))) := by
  have bytes := utf8_letters fun c => @mem_label n c
  have length : (utf8 (String.ofList (label n))).length = 32 := by
    rw [bytes]
    simp [label]
  refine ⟨⟨?_, ?_, ?_⟩, _, rfl, ?_, ?_⟩
  · rw [bytes]
    intro mem
    obtain ⟨c, -, is⟩ := List.mem_map.mp mem
    split at is <;> exact absurd is (by decide)
  · simp only [redundant, Bool.or_eq_false_iff, decide_eq_false_iff_not]
    exact ⟨fun is => absurd (is ▸ length) (by decide), fun is => absurd (is ▸ length) (by decide)⟩
  · exact fun is => absurd (is ▸ length) (by decide)
  · intro mem
    rw [String.toList_ofList] at mem
    exact absurd (mem_label mem) (by decide)
  · intro mem
    rw [String.toList_ofList] at mem
    exact absurd (mem_label mem) (by decide)

theorem count_flat (n : Nat) : (flat n).count = n := by
  induction n with
  | zero => rfl
  | succ n ih => simp [flat, Forest.count, ih]

theorem mem_names_flat {n : Nat} {name : Bytes} (h : name ∈ (flat n).names) :
    ∃ k < n, name = utf8 (String.ofList (label k)) := by
  induction n with
  | zero => cases h
  | succ n ih =>
    rcases List.mem_cons.mp h with rfl | h
    · exact ⟨n, Nat.lt_succ_self n, rfl⟩
    · obtain ⟨k, lt, is⟩ := ih h
      exact ⟨k, by omega, is⟩

theorem valid_flat {n : Nat} (h : n ≤ 2 ^ 32) : (flat n).Valid := by
  induction n with
  | zero => trivial
  | succ n ih =>
    refine ⟨admitted_label n, rfl, ?_, ih (by omega)⟩
    intro mem
    obtain ⟨k, lt, same⟩ := mem_names_flat mem
    have texts := congrArg chars same
    rw [chars_utf8, chars_utf8, String.toList_ofList, String.toList_ofList] at texts
    have := label_inj (by omega) (by omega) texts
    omega

/-- A file system of nothing but files. -/
def flatFs : Fs where
  metadata _ := .ok { len := 3, isDir := false }
  readDir _ := .ok []
  openFile _ := .ok ()
  content _ := .ok []

theorem stores_flat (dir : Bytes) (n : Nat) : flatFs.Stores dir (flat n) := by
  induction n with
  | zero => trivial
  | succ n ih => exact ⟨rfl, ih⟩

theorem length_encodeUnits_letters {cs : List Char} (h : ∀ c ∈ cs, c = 'a' ∨ c = 'b') :
    (Utf16.encodeUnits cs).length = cs.length := by
  induction cs with
  | nil => rfl
  | cons c cs ih =>
    simp only [List.mem_cons, forall_eq_or_imp] at h
    rw [← List.singleton_append, Utf16.encodeUnits_append, List.length_append, ih h.2,
      List.length_append]
    rcases h.1 with rfl | rfl <;> rfl

theorem short_flat (n : Nat) : (flat n).Short := by
  have labels : ∀ start, ∀ e ∈ (flat n).placed [] none start,
      ∃ k, e.path = [utf8 (String.ofList (label k))] := by
    induction n with
    | zero => simp [flat, Forest.placed]
    | succ n ih =>
      intro start e mem
      rcases List.mem_cons.mp mem with rfl | mem
      · exact ⟨n, rfl⟩
      · exact ih (start + 1) e mem
  intro e mem
  obtain ⟨k, path⟩ := labels 0 e mem
  have text : e.relativePath = label k := by
    rw [Placed.relativePath, path]
    simp [below, join]
  rw [text, length_encodeUnits_letters fun c => mem_label]
  simp [label]

/-- Nothing arrives of an empty selection, nor of one of 2^32 files: the count of the
descriptors is 0 then. -/
theorem nothing_arrives :
    (∀ fuel, ¬ Arrives flatFs (utf8 "/home") .nil 0 7 fuel) ∧
      (flat (2 ^ 32)).Valid ∧ (flat (2 ^ 32)).Short ∧
      flatFs.Stores (utf8 "/home") (flat (2 ^ 32)) ∧
      ¬ Arrives flatFs (utf8 "/home") (flat (2 ^ 32)) 0 7 (2 ^ 32 + 1) := by
  have valid : (flat (2 ^ 32)).Valid := valid_flat le_rfl
  have stores := stores_flat (utf8 "/home") (2 ^ 32)
  have count := count_flat (2 ^ 32)
  refine ⟨?_, valid, short_flat _, stores, ?_⟩
  · rintro fuel ⟨files, pdu, descs, nodes, listed, -⟩
    cases listed
  · rintro ⟨files, pdu, descs, nodes, listed, built, parsed, -⟩
    have nonempty : flat (2 ^ 32) ≠ .nil := by
      intro is
      rw [is] at count
      exact absurd count (by decide)
    obtain ⟨relativeRoot, same, list⟩ :=
      constructFileList_forest nonempty valid stores (count.trans_lt (Nat.lt_succ_self _))
    obtain ⟨pdu', built', refused⟩ := parse_forest same valid (short_flat _) 7
    rw [list, Option.some.injEq, Except.ok.injEq] at listed
    subst listed
    rw [built, Option.some.injEq] at built'
    rw [← built', parsed, count, if_neg (lt_irrefl _)] at refused
    cases refused

end CamelliaRemote.Clipboard
