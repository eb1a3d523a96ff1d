import CamelliaRemote.Lib.UnixPath
import Mathlib.Tactic.Ring

namespace LinkedFiles
open UnixPath

variable {α δ : Type} [DecidableEq α] [PathChar α]

inductive Node (α : Type) where
  | file
  | directory (parent : Nat) (entries : List (List α × Nat))
  | symlink (target : List α)
  deriving DecidableEq

def Node.isDirectory : Node α → Bool
  | .directory _ _ => true
  | _ => false

/-- A node's number is its inode; `attributes` are whatever else is known of it. -/
structure FileSystem (α δ : Type) [DecidableEq α] [PathChar α] where
  nodes : List (Node α)
  attributes : Nat → δ
  root : Nat
  cwd : Nat
  maxLinks : Nat
  /-- The paths that the system refuses before it looks: no permission, too long. -/
  refuses : List (Component α) → Option String
  depth : Nat → Nat
  height : Nat
  depth_le : ∀ inode, depth inode ≤ height
  deeper : ∀ (dir parent child : Nat) entries name node,
    nodes[dir]? = some (.directory parent entries) → (name, child) ∈ entries →
    nodes[child]? = some node → node.isDirectory = true → depth dir < depth child
  names : ∀ (dir parent child : Nat) entries name,
    nodes[dir]? = some (.directory parent entries) → (name, child) ∈ entries → Name name

def notFound : String := "No such file or directory (os error 2)"

def notDirectory : String := "Not a directory (os error 20)"

def tooManyLinks : String := "Too many levels of symbolic links (os error 40)"

/-- Where a path leads, and how many links may still be followed. -/
abbrev Place := Except String (Nat × Nat)

namespace FileSystem

/-- Along the components from a directory; `follow` goes on behind a link. -/
def walkFrom (fs : FileSystem α δ) (follow : Nat → List (Component α) → Place) (links : Nat) :
    Nat → List (Component α) → Place
  | cur, [] => .ok (cur, links)
  | _, .rootDir :: rest => walkFrom fs follow links fs.root rest
  | cur, .curDir :: rest =>
    match fs.nodes[cur]? with
    | some (.directory _ _) => walkFrom fs follow links cur rest
    | _ => .error notDirectory
  | cur, .parentDir :: rest =>
    match fs.nodes[cur]? with
    | some (.directory parent _) => walkFrom fs follow links parent rest
    | _ => .error notDirectory
  | cur, .normal name :: rest =>
    match fs.nodes[cur]? with
    | some (.directory _ entries) =>
      match entries.lookup name with
      | none => .error notFound
      | some inode =>
        match fs.nodes[inode]? with
        | none => .error notFound
        | some (.symlink target) =>
          if target = [] then .error notFound else follow cur (components target ++ rest)
        | some _ => walkFrom fs follow links inode rest
    | _ => .error notDirectory

/-- Along a path from a directory, with so many links to follow. -/
def resolve (fs : FileSystem α δ) : Nat → Nat → List (Component α) → Place
  | 0 => walkFrom fs (fun _ _ => .error tooManyLinks) 0
  | links + 1 => walkFrom fs (resolve fs links) (links + 1)

/-- Where a path leads. -/
def place (fs : FileSystem α δ) (path : List α) : Place :=
  if components path = [] then .error notFound
  else
    match fs.refuses (components path) with
    | some e => .error e
    | none => fs.resolve fs.maxLinks fs.cwd (components path)

/-- The file or directory of a path. -/
def inode (fs : FileSystem α δ) (path : List α) : Except String Nat := (fs.place path).map Prod.fst

variable {fs : FileSystem α δ}

theorem place_congr {p q : List α} (same : components p = components q) :
    fs.place p = fs.place q := by
  unfold place
  rw [same]

/-- Behind a link the way goes on with one link less. -/
def behind (fs : FileSystem α δ) : Nat → Nat → List (Component α) → Place
  | 0 => fun _ _ => .error tooManyLinks
  | links + 1 => fs.resolve links

theorem resolve_eq (links : Nat) : fs.resolve links = fs.walkFrom (fs.behind links) links := by
  cases links <;> rfl

theorem walkFrom_append (links : Nat) {ds : List (Component α)}
    (further : ∀ cur cs, fs.behind links cur (cs ++ ds) =
      (fs.behind links cur cs).bind fun at' => fs.resolve at'.2 at'.1 ds)
    (cur : Nat) (cs : List (Component α)) :
    fs.walkFrom (fs.behind links) links cur (cs ++ ds) =
      (fs.walkFrom (fs.behind links) links cur cs).bind fun at' =>
        fs.resolve at'.2 at'.1 ds := by
  induction cs generalizing cur with
  | nil =>
    change _ = fs.resolve links cur ds
    rw [resolve_eq]
    rfl
  | cons c cs ih =>
    cases c with
    | rootDir => exact ih fs.root
    | curDir =>
      rw [List.cons_append, walkFrom, walkFrom]
      split
      · exact ih cur
      · rfl
    | parentDir =>
      rw [List.cons_append, walkFrom, walkFrom]
      split
      · exact ih _
      · rfl
    | normal name =>
      rw [List.cons_append, walkFrom, walkFrom]
      split
      · split
        · rfl
        · split
          · rfl
          · split
            · rfl
            · rw [← List.append_assoc, further]
          · exact ih _
      · rfl

/-- The way along a path and then along another. -/
theorem resolve_append (links cur : Nat) (cs ds : List (Component α)) :
    fs.resolve links cur (cs ++ ds) =
      (fs.resolve links cur cs).bind fun at' => fs.resolve at'.2 at'.1 ds := by
  induction links generalizing cur cs with
  | zero => exact walkFrom_append 0 (fun _ _ => rfl) cur cs
  | succ links ih => exact walkFrom_append (links + 1) ih cur cs

theorem walkFrom_links {links : Nat} {follow : Nat → List (Component α) → Place}
    (fewer : ∀ cur cs at', follow cur cs = .ok at' → at'.2 ≤ links) {cur : Nat}
    {cs : List (Component α)} {at' : Nat × Nat}
    (h : fs.walkFrom follow links cur cs = .ok at') : at'.2 ≤ links := by
  induction cs generalizing cur with
  | nil =>
    cases h
    exact Nat.le_refl _
  | cons c cs ih =>
    cases c with
    | rootDir => exact ih h
    | curDir =>
      rw [walkFrom] at h
      split at h
      · exact ih h
      · cases h
    | parentDir =>
      rw [walkFrom] at h
      split at h
      · exact ih h
      · cases h
    | normal name =>
      rw [walkFrom] at h
      split at h
      · split at h
        · cases h
        · split at h
          · cases h
          · split at h
            · cases h
            · exact fewer _ _ _ h
          · exact ih h
      · cases h

theorem resolve_links {links cur : Nat} {cs : List (Component α)} {at' : Nat × Nat}
    (h : fs.resolve links cur cs = .ok at') : at'.2 ≤ links := by
  induction links generalizing cur cs at' with
  | zero => exact walkFrom_links (fun _ _ _ h => by cases h) h
  | succ links ih =>
    refine walkFrom_links (fun cur cs at' h => ?_) h
    exact Nat.le_succ_of_le (ih h)

/-- What is left below a place: each link may be worth a whole way down. -/
def rank (fs : FileSystem α δ) (at' : Nat × Nat) : Nat :=
  at'.2 * (fs.height + 1) + (fs.height - fs.depth at'.1)

/-- A directory in a directory has the smaller rank, whether or not a link leads to it. -/
theorem rank_lt_of_below {at' next : Nat × Nat} {name : List α} {node : Node α}
    (h : fs.resolve at'.2 at'.1 [.normal name] = .ok next)
    (found : fs.nodes[next.1]? = some node)
    (isDir : node.isDirectory = true) : fs.rank next < fs.rank at' := by
  obtain ⟨cur, links⟩ := at'
  rw [resolve_eq, walkFrom] at h
  unfold rank
  split at h
  · rename_i parent entries dir
    split at h
    · cases h
    · rename_i child named
      split at h
      · cases h
      · split at h
        · cases h
        · cases links with
          | zero => cases h
          | succ links =>
            have fewer := resolve_links h
            have cost := Nat.mul_le_mul_right (fs.height + 1) fewer
            rw [Nat.succ_mul]
            omega
      · cases h
        obtain ⟨before, after, whole, -⟩ := List.lookup_eq_some_iff.mp named
        have lower := fs.deeper cur parent child entries name node dir (by simp [whole]) found
          isDir
        have bound := fs.depth_le child
        simp only
        omega
  · cases h

end FileSystem

end LinkedFiles
