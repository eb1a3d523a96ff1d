import CamelliaRemote.Clipboard.PastedTree
import CamelliaRemote.Clipboard.RemoteReadExact

namespace CamelliaRemote.Clipboard.Mount
open Codec UnixPath Runs RemoteMount

variable {nodes : List FuseNode} {files : List LocalFile} {s : RemoteMount} {e : RemoteEvent}

/-- Neither side takes another list of files. -/
def KeepsFiles : RemoteEvent → Prop
  | .call (.loadFileList _ _) | .peer (.sync _ _ _) | .peer .clear => False
  | _ => True

instance (e : RemoteEvent) : Decidable (KeepsFiles e) := by
  unfold KeepsFiles
  split <;> infer_instance

theorem map_node_setEntry (s : FuseServer) (ino : Nat) (f : ServedNode → ServedNode)
    (same : ∀ n, (f n).node = n.node) :
    (s.setEntry ino f).files.map (·.node) = s.files.map (·.node) := by
  apply List.ext_getElem?
  intro i
  simp only [FuseServer.setEntry, List.getElem?_map, List.getElem?_modify]
  cases s.files[i]? with
  | none => rfl
  | some n => by_cases at_i : ino - 1 = i <;> simp [at_i, same]

theorem map_node_openAs (kind : FileType) (refusal : Errno) (s : FuseServer) (ino : Nat) :
    (FuseServer.openAs kind refusal s ino).1.files.map (·.node) = s.files.map (·.node) := by
  unfold FuseServer.openAs
  split
  · rfl
  · simp only
    split_ifs
    · rfl
    · rfl
    · exact map_node_setEntry _ ino _ fun _ => rfl

/-- Only a new list of files makes other nodes. -/
theorem map_node_step (s : FuseServer) (c : Call) (nonempty : s.files ≠ [])
    (keeps : ∀ now list, c ≠ .loadFileList now list) :
    (s.step c).files.map (·.node) = s.files.map (·.node) := by
  cases c with
  | loadFileList now list => exact absurd rfl (keeps now list)
  | init now => simp [FuseServer.step, FuseServer.handle, FuseServer.init, nonempty]
  | opendir ino => exact map_node_openAs .directory .notDir s ino
  | openFile ino => exact map_node_openAs .file .nFile s ino
  | releasedir ino fh =>
    simp only [FuseServer.step, FuseServer.handle, FuseServer.releasedir]
    split
    · rfl
    · split_ifs
      · rfl
      · rfl
      · split
        · exact map_node_setEntry s ino _ fun _ => rfl
        · rfl
  | release ino fh =>
    simp only [FuseServer.step, FuseServer.handle, FuseServer.release]
    split
    · rfl
    · split
      · exact map_node_setEntry s ino _ fun _ => rfl
      · rfl
  | lookup | getattr | readdir | read => rfl

/-- A readable node is a file of the tree. -/
theorem readable_node {s : FuseServer} (mounted : s.files.map (·.node) = nodes) {ino fh : Nat}
    {node : FuseNode} (readable : s.readable ino fh = some node) :
    node ∈ nodes ∧ node.attributes.kind = .file := by
  unfold FuseServer.readable at readable
  cases found : s.entry ino with
  | none => simp [found] at readable
  | some entry =>
    simp only [found, Option.ite_none_right_eq_some, Option.some.injEq, Bool.and_eq_true,
      decide_eq_true_eq] at readable
    obtain ⟨⟨⟨-, kind⟩, -⟩, rfl⟩ := readable
    refine ⟨?_, kind⟩
    unfold FuseServer.entry at found
    split at found
    · cases found
    · rw [← mounted]
      exact List.mem_map_of_mem (List.mem_of_getElem? found)

/-- The mount has the nodes, the peer has the files, and the waiting read is of one of the
nodes. -/
structure TreeKept (nodes : List FuseNode) (files : List LocalFile) (s : RemoteMount) : Prop where
  mounted : s.server.files.map (·.node) = nodes
  copied : s.peerFiles.fileList.map LocalFile.entry = files.map LocalFile.entry
  reading : ∀ r, s.reading = some r → r.node ∈ nodes ∧ r.node.attributes.kind = .file

theorem TreeKept.step (nonempty : nodes ≠ []) (stands : TreeKept nodes files s)
    (keeps : KeepsFiles e) : TreeKept nodes files (s.step e) := by
  cases e with
  | call c =>
    simp only [RemoteMount.step, handle]
    split_ifs
    · exact stands
    · refine ⟨?_, stands.copied, stands.reading⟩
      have some : s.server.files ≠ [] := by
        intro none
        exact nonempty (stands.mounted.symm.trans (by rw [none]; rfl))
      refine (map_node_step s.server c some ?_).trans stands.mounted
      intro now list is
      subst is
      exact keeps
  | read ino fh offset size streamId sent =>
    simp only [RemoteMount.step, handle, start]
    split_ifs
    · exact stands
    · split
      · exact stands
      · rename_i node readable
        refine ⟨stands.mounted, stands.copied, ?_⟩
        intro r waits
        cases waits
        exact readable_node stands.mounted readable
    · split <;> exact stands
  | serve fs =>
    simp only [RemoteMount.step, handle, serve]
    split
    · exact stands
    · split
      · exact ⟨stands.mounted, stands.copied, stands.reading⟩
      · rename_i served serves
        have same := (reread_serveClipMessages serves).sameFiles.entries
        exact ⟨stands.mounted, same.trans stands.copied, stands.reading⟩
  | arrive =>
    simp only [RemoteMount.step, handle]
    split
    · exact stands
    · exact ⟨stands.mounted, stands.copied, stands.reading⟩
  | foreign msgFlags streamId requestedData =>
    exact ⟨stands.mounted, stands.copied, stands.reading⟩
  | receive sent =>
    simp only [RemoteMount.step, handle]
    split
    · exact stands
    · rename_i r waits
      have its := stands.reading r waits
      rcases receive_cases s r sent with
        same | ⟨reply, rx, -, taken | ⟨answer, ended, -⟩ | ⟨retryTimes, again⟩⟩
      · rw [same]
        exact stands
      · rw [taken]
        exact ⟨stands.mounted, stands.copied, stands.reading⟩
      · rw [ended]
        exact ⟨stands.mounted, stands.copied, fun r none => absurd none (by simp)⟩
      · rw [again]
        refine ⟨stands.mounted, stands.copied, ?_⟩
        intro r' is
        cases is
        exact its
  | timeout =>
    simp only [RemoteMount.step, handle]
    split
    · exact stands
    · exact ⟨stands.mounted, stands.copied, fun r none => absurd none (by simp)⟩
  | peer e =>
    cases e with
    | sync | clear => exact keeps.elim
    | request c =>
      exact ⟨stands.mounted, (sameFiles_perform c s.peerFiles).entries.trans stands.copied,
        stands.reading⟩

/-- The read of an outcome is the one that waited. -/
theorem node_of_outcome {r : Reading} {data : Bytes} (stands : TreeKept nodes files s)
    (read : s.outcome e = some (r, some data)) :
    r.node ∈ nodes ∧ r.node.attributes.kind = .file := by
  cases e with
  | receive sent =>
    cases waits : s.reading with
    | none => simp [outcome, handle, waits] at read
    | some r' =>
      have ended : (s.receive r' sent).2 = some (r, some data) := by
        simpa [outcome, handle, waits] using read
      rcases receive_cases s r' sent with
        same | ⟨reply, rx, -, taken | ⟨answer, finished, -⟩ | ⟨retryTimes, again⟩⟩
      · simp [same] at ended
      · simp [taken] at ended
      · rw [finished] at ended
        cases ended
        exact stands.reading r waits
      · simp [again] at ended
  | read ino fh offset size streamId sent =>
    simp only [outcome, handle, start] at read
    split_ifs at read <;> split at read <;> cases read
  | timeout =>
    simp only [outcome, handle] at read
    split at read <;> cases read
  | arrive =>
    simp only [outcome, handle] at read
    split at read <;> cases read
  | call | serve | foreign | peer => cases read

/-- The peer serves the range that the read is for, of the file of the entry. -/
def GivesEntry (dir : Bytes) (entry : Placed) (r : Reading) (data : Bytes) (_ : RemoteMount)
    (e : RemoteEvent) : Prop :=
  ∃ fs bytes, e = .serve fs ∧ fs.content (below dir entry.path) = .ok bytes ∧
    let stop := min (r.offset.toNat + r.size) entry.mt.len.toNat
    data = (bytes.take stop).drop r.offset.toNat ∧ data.length = stop - r.offset.toNat

theorem givesEntry_of_gives {relativeRoot dir : Bytes} {entries : List Placed} {entry : Placed}
    {r : Reading} {data : Bytes}
    (copied : s.peerFiles.fileList.map LocalFile.entry =
      (entries.map (Placed.opened relativeRoot dir)).map LocalFile.entry)
    (its : entries[r.node.index]? = some entry) (gives : Gives r data s e) :
    GivesEntry dir entry r data s e := by
  obtain ⟨fs, file, bytes, rfl, listed, found, within, isData, size⟩ := gives
  have at_i := congrArg (·[r.node.index]?) copied
  simp only [List.getElem?_map, listed, its, Option.map_some, Option.some.injEq,
    LocalFile.entry, Prod.mk.injEq] at at_i
  have path : file.path = below dir entry.path := at_i.1
  have len : file.size = entry.mt.len := at_i.2
  rw [len] at isData size
  exact ⟨fs, bytes, rfl, path ▸ found, isData, size⟩

/-- A node that is a file is that of a file of the forest. -/
theorem entry_of_node {dir : Bytes} {entries : List Placed}
    (mirrors : Mirrors dir entries files nodes)
    (root : ∀ n, nodes[0]? = some n → n.attributes.kind = .directory) {node : FuseNode}
    (mem : node ∈ nodes) (isFile : node.attributes.kind = .file) :
    ∃ entry, entries[node.index]? = some entry ∧ nodes[node.index + 1]? = some node ∧
      entry.mt.isDir = false := by
  obtain ⟨k, found⟩ := List.getElem?_of_mem mem
  cases k with
  | zero =>
    rw [root node found] at isFile
    cases isFile
  | succ i =>
    have bound := (List.getElem?_eq_some_iff.mp found).1
    have inside : i < entries.length := by
      have := mirrors.count
      omega
    obtain ⟨node', at_i, index, -, -, kind, -⟩ :=
      mirrors.node i entries[i] (List.getElem?_eq_getElem inside)
    rw [found, Option.some.injEq] at at_i
    subst at_i
    rw [index]
    refine ⟨entries[i], List.getElem?_eq_getElem inside, found, ?_⟩
    rw [isFile] at kind
    cases isDir : entries[i].mt.isDir with
    | false => rfl
    | true => simp [isDir] at kind

/-- A run that keeps both lists reads of the file of the node. -/
theorem read_of_tree {relativeRoot dir : Bytes} {entries : List Placed} {s₀ : RemoteMount}
    {es : List RemoteEvent} {r : Reading} {data : Bytes}
    (mirrors : Mirrors dir entries (entries.map (Placed.opened relativeRoot dir)) nodes)
    (root : ∀ n, nodes[0]? = some n → n.attributes.kind = .directory) (idle : s₀.Idle)
    (mounted : s₀.server.files.map (·.node) = nodes)
    (copied : s₀.peerFiles.fileList = entries.map (Placed.opened relativeRoot dir))
    (fresh : Along step Fresh s₀ es) (keeps : ∀ e ∈ es, KeepsFiles e) (survives : r.Survives)
    (read : (Runs.run step s₀ es).outcome e = some (r, some data)) :
    ∃ entry, entries[r.node.index]? = some entry ∧ nodes[r.node.index + 1]? = some r.node ∧
      entry.mt.isDir = false ∧
      Since step (GivesEntry dir entry r data) RemoteMount.Begins s₀ es := by
  have nonempty : nodes ≠ [] := by
    intro none
    have := mirrors.count
    simp [none] at this
  have start : TreeKept nodes (entries.map (Placed.opened relativeRoot dir)) s₀ := by
    refine ⟨mounted, by rw [copied], fun r waits => ?_⟩
    cases idle.reading.symm.trans waits
  have along : Along step (fun _ e => KeepsFiles e) s₀ es := along_of_forall_mem keeps s₀
  have step' : ∀ s e, TreeKept nodes (entries.map (Placed.opened relativeRoot dir)) s →
      KeepsFiles e → TreeKept nodes (entries.map (Placed.opened relativeRoot dir)) (s.step e) :=
    fun s e stands keeps => stands.step nonempty keeps
  have stands := invariant step' start along
  obtain ⟨mem, isFile⟩ := node_of_outcome stands read
  obtain ⟨entry, its, at_i, notDir⟩ := entry_of_node mirrors root mem isFile
  refine ⟨entry, its, at_i, notDir, ?_⟩
  have always := along_of_invariant step' (fun s e stands _ => stands) start along
  exact since_mono (fun s e both => givesEntry_of_gives both.1.copied its both.2)
    (fun s e begins => begins) (since_along always (given_of_outcome idle fresh survives read))

/-- **A pasted file has the contents of the copied one.** A forest arrives as a mounted tree,
and whatever reads, lost answers and other connections come between, data that a read of one
of its nodes comes to is cut from the file with the node's path in the copied forest, as the
peer found it since the read began. -/
theorem pasted_reads_copied (fs : Fs) (dir : Bytes) (forest : Forest) (now : Nat) (connId : Int)
    (fuel : Nat) (nonempty : forest ≠ .nil) (valid : forest.Valid) (stores : fs.Stores dir forest)
    (short : forest.Short) (count : forest.count < 2 ^ 32) (enough : forest.count < fuel) :
    ∃ files pdu descs nodes, constructFileList fs fuel (forest.names.map (join dir)) =
        some (.ok files) ∧
      buildFileListPdu files = some pdu ∧
      FileDescription.parseFileDescriptors pdu connId = .ok descs ∧
      FuseNode.buildTree now descs = .ok nodes ∧
      ∀ (s₀ : RemoteMount) (es : List RemoteEvent) (e : RemoteEvent) (r : Reading) (data : Bytes),
        s₀.Idle → s₀.server.files.map (·.node) = nodes → s₀.peerFiles.fileList = files →
        Along step Fresh s₀ es → (∀ e ∈ es, KeepsFiles e) → r.Survives →
        (Runs.run step s₀ es).outcome e = some (r, some data) →
        ∃ entry, forest.entries[r.node.index]? = some entry ∧
          nodes[r.node.index + 1]? = some r.node ∧ entry.mt.isDir = false ∧
          Since step (GivesEntry dir entry r data) RemoteMount.Begins s₀ es := by
  obtain ⟨relativeRoot, same, listed⟩ := constructFileList_forest nonempty valid stores enough
  obtain ⟨pdu, built, parsed⟩ := parse_forest same valid short connId
  rw [if_pos count] at parsed
  refine ⟨_, pdu, _, _, listed, built, parsed, buildTree_forest same valid now connId, ?_⟩
  intro s₀ es e r data idle mounted copied fresh keeps survives read
  refine read_of_tree (mirrors_tree valid now connId) ?_ idle mounted copied fresh keeps survives
    read
  intro n is
  cases is
  rfl

def sampleBytes : Fs := { sampleFs with content := fun _ => .ok [1, 2, 3] }

def sampleList : List LocalFile :=
  match constructFileList sampleBytes 4 (sampleForest.names.map (join (utf8 "/home"))) with
  | some (.ok files) => files
  | _ => []

/-- The nodes that are made of a list of files. -/
def mountedNodes (files : List LocalFile) : List FuseNode :=
  match FileDescription.parseFileDescriptors ((buildFileListPdu files).getD []) 7 with
  | .ok descs => ((FuseNode.buildTree 0 descs).toOption).getD []
  | .error _ => []

def sampleNodes : List FuseNode := mountedNodes sampleList

/-- The forest is mounted, and the peer has its list. -/
def sampleMount : RemoteMount where
  server := ⟨1, sampleNodes.map .fresh, 0⟩
  peerFiles := { fileList := sampleList }

/-- The file of the directory is read from its second byte on. -/
def sampleRead : List RemoteEvent :=
  [.call (.openFile 3), .read 3 0 1 5 9 true, .serve sampleBytes, .arrive]

def sampleReading : Reading where
  node := (sampleNodes[2]?).getD (FuseNode.newRoot 0)
  offset := 1
  size := 5
  streamId := 9

theorem valid_sampleForest : sampleForest.Valid := by
  have admitted : ∀ s ∈ ["a", "b", "d"], Admitted (utf8 s) := by
    intro s mem
    have checked : ∀ s ∈ ["a", "b", "d"], PathChar.sep ∉ utf8 s ∧ redundant (utf8 s) = false ∧
        utf8 s ≠ [PathChar.dot, PathChar.dot] ∧ '\\' ∉ s.toList ∧ '\x00' ∉ s.toList := by
      decide +kernel
    obtain ⟨noSep, kept, notParent, noBackslash, noNul⟩ := checked s mem
    exact ⟨⟨noSep, kept, notParent⟩, s, rfl, noBackslash, noNul⟩
  refine ⟨admitted "d" (by simp), rfl, by decide +kernel, ⟨admitted "a" (by simp), rfl, ?_⟩,
    admitted "b" (by simp), rfl, ?_⟩
  · simp [Forest.names, Forest.Valid]
  · simp [Forest.names, Forest.Valid]

theorem pasted_reads_sampleForest :
    (Runs.run step sampleMount sampleRead).outcome (.receive true) =
        some (sampleReading, some [2, 3]) ∧
      ∃ entry, sampleForest.entries[sampleReading.node.index]? = some entry ∧
        Since step (GivesEntry (utf8 "/home") entry sampleReading [2, 3]) RemoteMount.Begins
          sampleMount sampleRead := by
  have stores : sampleBytes.Stores (utf8 "/home") sampleForest :=
    ⟨by decide +kernel, rfl, ⟨by decide +kernel, trivial⟩, by decide +kernel, trivial⟩
  have short : sampleForest.Short := by
    unfold Forest.Short
    decide +kernel
  have read : (Runs.run step sampleMount sampleRead).outcome (.receive true) =
      some (sampleReading, some [2, 3]) := by decide +kernel
  obtain ⟨files, pdu, descs, nodes, listed, built, parsed, tree, reads⟩ :=
    pasted_reads_copied sampleBytes (utf8 "/home") sampleForest 0 7 4 (by simp [sampleForest])
      valid_sampleForest stores short (by decide) (by decide)
  have isList : sampleList = files := by rw [sampleList, listed]
  have isNodes : sampleNodes = nodes := by
    unfold sampleNodes
    rw [isList]
    simp [mountedNodes, built, parsed, tree, Except.toOption]
  have inPlace : ∀ f ∈ sampleList, f.handle.getD 0 = f.offset := by decide +kernel
  have idle : sampleMount.Idle := ⟨rfl, rfl, rfl, rfl, inPlace⟩
  obtain ⟨entry, its, -, -, since⟩ := reads sampleMount sampleRead (.receive true) sampleReading
    [2, 3] idle (isNodes ▸ by decide +kernel) isList (by decide +kernel) (by decide +kernel)
    ⟨by decide +kernel, by decide +kernel, by decide +kernel, by decide +kernel,
      by decide +kernel⟩ read
  exact ⟨read, entry, its, since⟩

end CamelliaRemote.Clipboard.Mount
