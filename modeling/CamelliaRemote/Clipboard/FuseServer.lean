import CamelliaRemote.Clipboard.Fuse
import CamelliaRemote.Lib.BinarySearch
import CamelliaRemote.Lib.Runs

/-!
The mounted file system, `FuseServer` of `libs/clipboard/src/platform/unix/fuse/cs.rs`. The kernel
calls the server with inodes, and gets handles for the nodes it opens. A node holds its handles in
a vector that is searched by halves. What `read_node` gets from the peer is part of the call, as
is how many entries fit into the reply of `readdir`. An inode 0, which the kernel never sends,
finds nothing; the ids of the user in a file's attributes are left out.
-/

namespace CamelliaRemote.Clipboard.Mount
open Codec MachineInt

def maxNameLen : Nat := 255

def blockSize : Nat := 4 * 1024 * 1024

inductive Errno where
  | noEnt
  | notDir
  | nFile
  | busy
  | badF
  | nameTooLong
  | io
  deriving DecidableEq, Repr

structure FileHandles where
  handlers : List Nat
  gc : Bool
  deriving DecidableEq, Repr

namespace FileHandles

def new : FileHandles := ⟨[], false⟩

def marked (h : FileHandles) : Bool := h.gc

/-- The callers have looked for the mark, on which this panics. -/
def addHandler (h : FileHandles) (fh : Nat) : FileHandles :=
  { h with handlers := h.handlers ++ [fh] }

def haveHandler (h : FileHandles) (handler : Nat) : Bool :=
  (BinarySearch.search h.handlers handler).isOk

def unregister (h : FileHandles) (handler : Nat) : Option FileHandles :=
  match BinarySearch.search h.handlers handler with
  | .ok idx => some { h with handlers := h.handlers.eraseIdx idx }
  | .error _ => none

end FileHandles

/-- A node of the tree with its handles. -/
structure ServedNode where
  node : FuseNode
  fileHandlers : FileHandles
  deriving DecidableEq, Repr

namespace ServedNode

def fresh (node : FuseNode) : ServedNode := ⟨node, .new⟩

def marked (n : ServedNode) : Bool := n.fileHandlers.marked

def haveHandler (n : ServedNode) (fh : Nat) : Bool := n.fileHandlers.haveHandler fh

def addHandler (fh : Nat) (n : ServedNode) : ServedNode :=
  { n with fileHandlers := n.fileHandlers.addHandler fh }

end ServedNode

structure FileAttr where
  ino : Nat
  size : Nat
  blocks : Nat
  atime : Nat
  mtime : Nat
  ctime : Nat
  crtime : Nat
  kind : FileType
  perm : Nat
  nlink : Nat
  rdev : Nat
  blksize : Nat
  flags : Nat
  deriving DecidableEq, Repr

def FileAttr.from (value : InodeAttributes) : FileAttr where
  ino := value.inode
  size := value.size
  blocks :=
    if value.size % blockSize = 0 then value.size / blockSize else value.size / blockSize + 1
  atime := value.lastAccessed
  mtime := value.lastModified
  ctime := value.lastMetadataChanged
  crtime := value.creationTime
  kind := value.kind
  perm := value.perm
  nlink := 1
  rdev := 0
  blksize := blockSize
  flags := 0

structure DirEntry where
  ino : Nat
  offset : Nat
  kind : FileType
  name : Bytes
  deriving DecidableEq, Repr

inductive Reply where
  | error (errno : Errno)
  | entry (attr : FileAttr) (generation : Nat)
  | attr (attr : FileAttr)
  | opened (fh : Nat)
  | directory (entries : List DirEntry)
  | data (bytes : Bytes)
  | ok
  | loaded
  | refused (e : CliprdrError)

inductive Call where
  | loadFileList (now : Nat) (files : List FileDescription)
  | init (now : Nat)
  | lookup (parent : Nat) (name : Bytes)
  | getattr (ino : Nat)
  | opendir (ino : Nat)
  | readdir (ino fh : Nat) (offset : Int) (room : Nat)
  | releasedir (ino fh : Nat)
  | openFile (ino : Nat)
  | read (ino fh : Nat) (offset : Int) (size : Nat) (answer : Option Bytes)
  | release (ino fh : Nat)

structure FuseServer where
  generation : Nat
  files : List ServedNode
  fileHandleCounter : Nat

namespace FuseServer

def new : FuseServer := ⟨0, [], 0⟩

/-- `files.get(ino as usize - 1)`. -/
def entry (s : FuseServer) (ino : Nat) : Option ServedNode :=
  if ino = 0 then none else s.files[ino - 1]?

def setEntry (s : FuseServer) (ino : Nat) (f : ServedNode → ServedNode) : FuseServer :=
  { s with files := s.files.modify (ino - 1) f }

def loadFileList (s : FuseServer) (now : Nat) (files : List FileDescription) :
    FuseServer × Reply :=
  match FuseNode.buildTree now files with
  | .ok tree =>
    ({ s with files := tree.map .fresh, generation := (s.generation + 1) % 2 ^ 64 }, .loaded)
  | .error e => (s, .refused e)

def init (s : FuseServer) (now : Nat) : FuseServer × Reply :=
  if s.files = [] then ({ s with files := [.fresh (FuseNode.newRoot now)] }, .ok) else (s, .ok)

/-- The name of a node as the kernel sees it. -/
def osName (n : ServedNode) : Bytes := utf8 (String.ofList n.node.name)

/-- The first of the children with that name. -/
def findChild (s : FuseServer) (children : List Nat) (name : Bytes) : Option ServedNode :=
  (children.filterMap s.entry).find? fun child => osName child = name

def lookup (s : FuseServer) (parent : Nat) (name : Bytes) : Reply :=
  if maxNameLen < name.length then .error .nameTooLong
  else
    match s.entry parent with
    | none => .error .noEnt
    | some parentEntry =>
      if parentEntry.node.attributes.kind ≠ .directory then .error .notDir
      else
        match s.findChild parentEntry.node.children name with
        | some child => .entry (.from child.node.attributes) s.generation
        | none => .error .noEnt

def getattr (s : FuseServer) (ino : Nat) : Reply :=
  match s.entry ino with
  | none => .error .noEnt
  | some entry => .attr (.from entry.node.attributes)

def allocFd (s : FuseServer) : FuseServer × Nat :=
  ({ s with fileHandleCounter := (s.fileHandleCounter + 1) % 2 ^ 64 }, s.fileHandleCounter)

/-- `opendir` and `open` differ in the kind they want and in how they refuse another. -/
def openAs (kind : FileType) (refusal : Errno) (s : FuseServer) (ino : Nat) :
    FuseServer × Reply :=
  match s.entry ino with
  | none => (s, .error .noEnt)
  | some entry =>
    if entry.node.attributes.kind ≠ kind then (s, .error refusal)
    else if entry.marked then (s, .error .busy)
    else
      let (s, fh) := s.allocFd
      (s.setEntry ino (.addHandler fh), .opened fh)

def opendir : FuseServer → Nat → FuseServer × Reply := openAs .directory .notDir

def openFile : FuseServer → Nat → FuseServer × Reply := openAs .file .nFile

/-- All the entries of a directory: itself, its parent, its children. -/
def dirEntries (s : FuseServer) (ino : Nat) (entry : ServedNode) :
    List (Nat × FileType × Bytes) :=
  (ino, .directory, utf8 ".") ::
    (entry.node.parent.toList.map fun parent => (parent, FileType.directory, utf8 "..")) ++
    entry.node.children.filterMap fun inode =>
      (s.entry inode).map fun child => (inode, child.node.attributes.kind, osName child)

def readdir (s : FuseServer) (ino fh : Nat) (offset : Int) (room : Nat) : Reply :=
  match s.entry ino with
  | none => .error .noEnt
  | some entry =>
    if !entry.haveHandler fh then .error .badF
    else if entry.node.attributes.kind ≠ .directory then .error .notDir
    else
      .directory ((((s.dirEntries ino entry).zipIdx.drop (asU64 offset)).take room).map
        fun ((ino, kind, name), i) => ⟨ino, i + 1, kind, name⟩)

def releasedir (s : FuseServer) (ino fh : Nat) : FuseServer × Reply :=
  match s.entry ino with
  | none => (s, .error .noEnt)
  | some entry =>
    if entry.node.attributes.kind ≠ .directory then (s, .error .notDir)
    else if !entry.haveHandler fh then (s, .error .badF)
    else
      match entry.fileHandlers.unregister fh with
      | some handlers => (s.setEntry ino ({ · with fileHandlers := handlers }), .ok)
      | none => (s, .ok)

def read (s : FuseServer) (ino fh : Nat) (answer : Option Bytes) : Reply :=
  match s.entry ino with
  | none => .error .noEnt
  | some entry =>
    if !entry.haveHandler fh then .error .badF
    else if entry.node.attributes.kind ≠ .file then .error .nFile
    else if entry.marked then .error .busy
    else
      match answer with
      | some bytes => .data bytes
      | none => .error .io

def release (s : FuseServer) (ino fh : Nat) : FuseServer × Reply :=
  match s.entry ino with
  | none => (s, .error .noEnt)
  | some entry =>
    match entry.fileHandlers.unregister fh with
    | some handlers => (s.setEntry ino ({ · with fileHandlers := handlers }), .ok)
    | none => (s, .error .badF)

def handle (s : FuseServer) : Call → FuseServer × Reply
  | .loadFileList now files => s.loadFileList now files
  | .init now => s.init now
  | .lookup parent name => (s, s.lookup parent name)
  | .getattr ino => (s, s.getattr ino)
  | .opendir ino => s.opendir ino
  | .readdir ino fh offset room => (s, s.readdir ino fh offset room)
  | .releasedir ino fh => s.releasedir ino fh
  | .openFile ino => s.openFile ino
  | .read ino fh _ _ answer => (s, s.read ino fh answer)
  | .release ino fh => s.release ino fh

def step (s : FuseServer) (call : Call) : FuseServer := (s.handle call).1

def reply (s : FuseServer) (call : Call) : Reply := (s.handle call).2

/-- The server after some calls. -/
def after (calls : List Call) : FuseServer := Runs.run step new calls

end FuseServer

end CamelliaRemote.Clipboard.Mount
