import CamelliaRemote.Clipboard.FileDescription
import CamelliaRemote.Clipboard.ServFiles

/-!
Pasting on the other side, `libs/clipboard/src/platform/unix/fuse/cs.rs`. `build_tree` makes the
nodes of the FUSE file system from the descriptions of the peer's files, and `read_node` asks the
peer for the contents of one of them. What the open handles of a node do is left out; `now` is the
clock.
-/

namespace CamelliaRemote.Clipboard
open Codec UnixPath MachineInt

def fuseRootId : Nat := 1

structure InodeAttributes where
  inode : Nat
  size : Nat
  lastAccessed : Nat
  lastModified : Nat
  lastMetadataChanged : Nat
  creationTime : Nat
  kind : FileType
  perm : Nat
  deriving DecidableEq, Repr

namespace InodeAttributes

def new (now inode size perm : Nat) (kind : FileType) : InodeAttributes :=
  { inode, size, lastAccessed := now, lastModified := now, lastMetadataChanged := now
    creationTime := now, kind, perm }

def fromDescription (now inode : Nat) (desc : FileDescription) : InodeAttributes where
  inode := inode
  size := desc.size
  lastAccessed := now
  lastModified := desc.lastModified
  lastMetadataChanged := desc.lastMetadataChanged
  creationTime := desc.creationTime
  kind := desc.kind
  perm := desc.perm

def newRoot (now : Nat) : InodeAttributes := new now fuseRootId 0 permRwx .directory

end InodeAttributes

structure FuseNode where
  connId : Int
  /-- The index in the peer's list of files. -/
  index : Nat
  parent : Option Nat
  name : List Char
  attributes : InodeAttributes
  children : List Nat
  deriving DecidableEq, Repr

namespace FuseNode

def fromDescription (now inode : Nat) (desc : FileDescription) : FuseNode where
  connId := desc.connId
  index := inode - 2
  name := desc.name
  parent := none
  attributes := .fromDescription now inode desc
  children := []

def newRoot (now : Nat) : FuseNode where
  connId := 0
  index := 0
  name := ['/']
  parent := none
  attributes := .newRoot now
  children := []

def addChild (inode : Nat) (node : FuseNode) : FuseNode :=
  { node with children := node.children ++ [inode] }

/-- `tree_list` and `sub_root_map`. Paths of the map compare by components. -/
structure Build where
  treeList : List FuseNode
  subRootMap : List (List (Component Char) × Nat)

def Build.new (now : Nat) : Build :=
  ⟨[newRoot now], [(components [], fuseRootId), (components ['/'], fuseRootId)]⟩

/-- The inode of the directory of a path; the root if nothing is known of it. -/
def Build.parentInode (b : Build) (name : List Char) : Nat :=
  match UnixPath.parent name with
  | some dir =>
    ((b.subRootMap.find? fun entry => entry.1 = components dir).map Prod.snd).getD fuseRootId
  | none => fuseRootId

/-- One turn of the loop over the files. -/
def Build.add (now : Nat) (b : Build) (file : FileDescription) : Except CliprdrError Build :=
  let inode := b.treeList.length + fuseRootId
  let parentInode := b.parentInode file.name
  let treeList := b.treeList.modify (parentInode - 1) (addChild inode)
  match fileName file.name with
  | none =>
    .error (.fileError (String.ofList file.name)
      s!"invalid file name {String.ofList file.name}")
  | some baseName =>
    let subRootMap :=
      if file.kind = .directory then (components file.name, inode) :: b.subRootMap
      else b.subRootMap
    let fuseNode := fromDescription now inode { file with name := baseName }
    .ok ⟨treeList ++ [{ fuseNode with parent := some parentInode }], subRootMap⟩

def buildTree (now : Nat) (files : List FileDescription) : Except CliprdrError (List FuseNode) :=
  (files.foldlM (Build.add now) (Build.new now)).map Build.treeList

end FuseNode

/-- The request of `read_node` for `size` bytes of a node from an `i64` offset. -/
def readNodeRequest (streamId : Int) (index : Nat) (offset : Int) (size : Nat) : ClipboardFile :=
  let cbRequested := asI32 size
  let nPositionHigh := asI32 (offset / 2 ^ 32)
  let nPositionLow := asI32 (offset % 2 ^ 32)
  .fileContentsRequest streamId (asI32 index) 2 nPositionLow nPositionHigh cbRequested false 0

/-- What the peer's `read_file_contents` decodes from a message. -/
def decodeRequest : ClipboardFile → Option FileContentsRequest
  | .fileContentsRequest streamId listIndex dwFlags nPositionLow nPositionHigh cbRequested _ _ =>
    (FileContentsRequest.decode streamId listIndex dwFlags nPositionLow nPositionHigh
      cbRequested).toOption
  | _ => none

/-- The peer decodes the very offset and length that were asked for. -/
def PositionSurvives (streamId : Int) (index offset size : Nat) : Prop :=
  ∃ fileIdx, decodeRequest (readNodeRequest streamId index offset size) =
    some (.range streamId fileIdx offset size)

theorem decodeRequest_readNodeRequest (streamId : Int) (index offset size : Nat) :
    decodeRequest (readNodeRequest streamId index offset size) =
      some (.range streamId (asU64 (asI32 index))
        ((asU64 (asI32 (offset / 2 ^ 32 : Nat)) <<< 32) % 2 ^ 64 |||
          asU64 (asI32 (offset % 2 ^ 32 : Nat)))
        (asU64 (asI32 size))) := by
  have high : (offset : Int) / 2 ^ 32 = (offset / 2 ^ 32 : Nat) := by omega
  have low : (offset : Int) % 2 ^ 32 = (offset % 2 ^ 32 : Nat) := by omega
  simp only [readNodeRequest, decodeRequest, FileContentsRequest.decode, high, low]
  rfl

/-- The halves of an offset with the sign bit of the lower one clear. -/
theorem joined_halves {offset : Nat} (fits : offset < 2 ^ 63) (clear : offset % 2 ^ 32 < 2 ^ 31) :
    (asU64 (asI32 (offset / 2 ^ 32 : Nat)) <<< 32) % 2 ^ 64 |||
      asU64 (asI32 (offset % 2 ^ 32 : Nat)) = offset := by
  have high : offset / 2 ^ 32 < 2 ^ 31 := by omega
  have whole : (offset / 2 ^ 32) <<< 32 < 2 ^ 64 := by
    rw [Nat.shiftLeft_eq]
    omega
  rw [asU64_asI32_of_lt high, asU64_asI32_of_lt clear, Nat.mod_eq_of_lt whole,
    ← Nat.shiftLeft_add_eq_or_of_lt (by omega), Nat.shiftLeft_eq]
  omega

/-- **Clipboard file positions survive the wire** exactly when neither the low half
of the offset nor the length reaches 2 GiB. -/
theorem position_survives_iff (streamId : Int) (index offset size : Nat) (fits : offset < 2 ^ 63)
    (small : size < 2 ^ 32) :
    PositionSurvives streamId index offset size ↔
      offset % 2 ^ 32 < 2 ^ 31 ∧ size < 2 ^ 31 := by
  unfold PositionSurvives
  rw [decodeRequest_readNodeRequest]
  simp only [Option.some.injEq, FileContentsRequest.range.injEq, true_and, exists_eq_left']
  constructor
  · rintro ⟨position, length⟩
    constructor
    · by_contra high
      have widened := asU64_asI32_of_le (Nat.not_lt.mp high) (Nat.mod_lt _ (by decide))
      have above := Nat.right_le_or (n := (asU64 (asI32 (offset / 2 ^ 32 : Nat)) <<< 32) % 2 ^ 64)
        (m := asU64 (asI32 (offset % 2 ^ 32 : Nat)))
      omega
    · by_contra high
      have widened := asU64_asI32_of_le (Nat.not_lt.mp high) small
      omega
  · rintro ⟨clear, short⟩
    exact ⟨joined_halves fits clear, asU64_asI32_of_lt short⟩

theorem position_survives_megabyte :
    (2 ^ 33 < 2 ^ 63 ∧ 2 ^ 20 < 2 ^ 32) ∧
      (PositionSurvives 1 0 (2 ^ 33) (2 ^ 20) ↔
        2 ^ 33 % 2 ^ 32 < 2 ^ 31 ∧ 2 ^ 20 < 2 ^ 31) :=
  ⟨by decide, position_survives_iff 1 0 (2 ^ 33) (2 ^ 20) (by decide) (by decide)⟩

/-- A read at 2 GiB asks for an offset near the end of the 64 bits. -/
theorem position_lost_at_two_gib : ¬ PositionSurvives 1 0 (2 ^ 31) (2 ^ 17) := by
  rintro ⟨fileIdx, is⟩
  have decoded : decodeRequest (readNodeRequest 1 0 (2 ^ 31) (2 ^ 17)) =
      some (.range 1 0 (2 ^ 64 - 2 ^ 31) (2 ^ 17)) := by
    decide
  rw [show ((2 ^ 31 : Nat) : Int) = 2 ^ 31 from rfl, decoded] at is
  simp at is

end CamelliaRemote.Clipboard
