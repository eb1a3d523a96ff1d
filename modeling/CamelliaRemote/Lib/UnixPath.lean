import CamelliaRemote.Lib.Codec
import Mathlib.Data.List.DropRight
import Mathlib.Tactic.Common

namespace UnixPath

class PathChar (α : Type) where
  sep : α
  dot : α

open PathChar

instance : PathChar UInt8 := ⟨47, 46⟩

instance : PathChar Char := ⟨'/', '.'⟩

inductive Component (α : Type) where
  | rootDir
  | curDir
  | parentDir
  | normal (name : List α)
  deriving DecidableEq, Repr

variable {α : Type} [DecidableEq α] [PathChar α]

/-- A piece that is no component unless it stands first. -/
def redundant (piece : List α) : Bool := piece = [] || piece = [dot]

def innerComponent (piece : List α) : Option (Component α) :=
  if redundant piece then none
  else if piece = [dot, dot] then some .parentDir
  else some (.normal piece)

/-- The component of the first piece; `more` pieces follow it. -/
def firstComponent (first : List α) (more : Bool) : List (Component α) :=
  if first = [] then if more then [.rootDir] else []
  else if first = [dot] then [.curDir]
  else (innerComponent first).toList

def ofPieces : List (List α) → List (Component α)
  | [] => []
  | first :: rest => firstComponent first (!rest.isEmpty) ++ rest.filterMap innerComponent

def components (path : List α) : List (Component α) := ofPieces (path.splitOn sep)

def fileName (path : List α) : Option (List α) :=
  match (components path).getLast? with
  | some (.normal name) => some name
  | _ => none

/-- The text of a first piece and the pieces after it. -/
def render (first : List α) (rest : List (List α)) : List α :=
  if first = [] && rest.isEmpty then [sep] else [sep].intercalate (first :: rest)

/-- `Path::parent`. -/
def parent (path : List α) : Option (List α) :=
  match path.splitOn sep with
  | [] => none
  | first :: rest =>
    let rest := rest.rdropWhile redundant
    if rest.isEmpty then if first = [] then none else some []
    else some (render first (rest.dropLast.rdropWhile redundant))

/-- `Path::join` with a relative path. -/
def join (dir name : List α) : List α :=
  if dir = [] ∨ dir.getLast? = some sep then dir ++ name else dir ++ sep :: name

/-- The pieces after the first `n` components. -/
def dropComponents : Nat → List (List α) → List (List α)
  | 0, pieces => pieces
  | _ + 1, [] => []
  | n + 1, piece :: pieces =>
    if redundant piece then dropComponents (n + 1) pieces else dropComponents n pieces

/-- `Path::strip_prefix`: the text that is left, without redundant pieces at its ends. -/
def stripPrefix (base path : List α) : Option (List α) :=
  if components base <+: components path then
    match (components base).length, path.splitOn sep with
    | _, [] => some []
    | 0, first :: rest =>
      some (if path = [] then [] else render first (rest.rdropWhile redundant))
    | n + 1, _ :: rest =>
      some ([sep].intercalate
        (((dropComponents n rest).dropWhile redundant).rdropWhile redundant))
  else none

/-- What a file system admits as the name of an entry, but for a NUL. -/
structure Name (name : List α) : Prop where
  noSep : sep ∉ name
  notRedundant : redundant name = false
  notParent : name ≠ [dot, dot]

theorem innerComponent_name {name : List α} (h : Name name) :
    innerComponent name = some (.normal name) := by
  simp [innerComponent, h.notRedundant, h.notParent]

theorem firstComponent_name {name : List α} (h : Name name) (more : Bool) :
    firstComponent name more = [.normal name] := by
  have ends := h.notRedundant
  simp only [redundant, Bool.or_eq_false_iff, decide_eq_false_iff_not] at ends
  simp [firstComponent, ends.1, ends.2, innerComponent_name h]

theorem filterMap_names {names : List (List α)} (h : ∀ n ∈ names, Name n) :
    names.filterMap innerComponent = names.map .normal := by
  rw [← List.filterMap_eq_map]
  exact List.filterMap_congr fun n mem => innerComponent_name (h n mem)

/-- The pieces of `dir` in front of a name that is joined to it. -/
def dirPieces (dir : List α) : List (List α) :=
  if dir = [] then [] else if dir.getLast? = some sep then (dir.splitOn sep).dropLast
  else dir.splitOn sep

/-- The path of an entry below `dir`, by the names on the way to it. -/
def below (dir : List α) (names : List (List α)) : List α := names.foldl join dir

theorem splitOn_join (dir : List α) {name : List α} (h : sep ∉ name) :
    (join dir name).splitOn sep = dirPieces dir ++ [name] := by
  unfold join dirPieces
  by_cases empty : dir = []
  · simp [empty, List.splitOn_eq_singleton h]
  · by_cases ends : dir.getLast? = some sep
    · obtain ⟨front, rfl⟩ : ∃ front, dir = front ++ [sep] :=
        ⟨dir.dropLast, (List.dropLast_append_getLast? _ ends).symm⟩
      simp [List.splitOn_append_cons_self, List.splitOn_eq_singleton h]
    · simp [empty, ends, List.splitOn_append_cons_self, List.splitOn_eq_singleton h]

theorem dirPieces_join (dir : List α) {name : List α} (h : Name name) :
    dirPieces (join dir name) = dirPieces dir ++ [name] := by
  have ends := h.notRedundant
  simp only [redundant, Bool.or_eq_false_iff, decide_eq_false_iff_not] at ends
  obtain ⟨front, last, rfl⟩ : ∃ front last, name = front ++ [last] :=
    ⟨name.dropLast, name.getLast ends.1, (List.dropLast_append_getLast ends.1).symm⟩
  have same : (join dir (front ++ [last])).getLast? = some last := by
    unfold join
    split
    · rw [← List.append_assoc, List.getLast?_concat]
    · rw [← List.cons_append, ← List.append_assoc, List.getLast?_concat]
  have nonempty : join dir (front ++ [last]) ≠ [] := by
    intro empty
    simp [empty] at same
  have notSep : ¬ some last = some (sep : α) := by
    intro isSep
    exact h.noSep (by simp [← Option.some.inj isSep])
  rw [dirPieces, if_neg nonempty, same, if_neg notSep, splitOn_join dir h.noSep]

theorem splitOn_below (dir : List α) {names : List (List α)} (h : ∀ n ∈ names, Name n)
    (nonempty : names ≠ []) : (below dir names).splitOn sep = dirPieces dir ++ names := by
  induction names generalizing dir with
  | nil => exact absurd rfl nonempty
  | cons n names ih =>
    have first := h n List.mem_cons_self
    have rest : ∀ m ∈ names, Name m := fun m mem => h m (List.mem_cons_of_mem _ mem)
    cases names with
    | nil => exact splitOn_join dir first.noSep
    | cons m names =>
      have later := ih (join dir n) rest (by simp)
      rw [dirPieces_join dir first, List.append_assoc] at later
      exact later

omit [DecidableEq α] in
theorem length_firstComponent [DecidableEq α] (first : List α) :
    (firstComponent first true).length = 1 := by
  unfold firstComponent
  split
  · rfl
  · rename_i nonempty
    split
    · rfl
    · rename_i notDot
      simp only [innerComponent, redundant, nonempty, notDot, decide_false, Bool.or_false,
        Bool.false_eq_true, if_false]
      split <;> rfl

theorem firstComponent_of {first : List α} {more : Bool} (h : first ≠ [] ∨ more = true) :
    firstComponent first more = firstComponent first true := by
  unfold firstComponent
  rcases h with nonempty | rfl
  · simp [nonempty]
  · rfl

/-- A directory with a text has a first piece, and its components are those of its pieces. -/
theorem dirPieces_eq {dir : List α} (nonempty : dir ≠ []) :
    ∃ first rest, dirPieces dir = first :: rest ∧
      components dir = firstComponent first true ++ rest.filterMap innerComponent := by
  unfold dirPieces components
  rw [if_neg nonempty]
  by_cases ends : dir.getLast? = some sep
  · obtain ⟨front, rfl⟩ : ∃ front, dir = front ++ [sep] :=
      ⟨dir.dropLast, (List.dropLast_append_getLast? _ ends).symm⟩
    obtain ⟨first, rest, pieces⟩ := List.exists_cons_of_ne_nil (List.splitOn_ne_nil sep front)
    have empty : innerComponent ([] : List α) = none := by simp [innerComponent, redundant]
    refine ⟨first, rest, ?_, ?_⟩
    · rw [if_pos ends, List.splitOn_append_cons_self, pieces, List.splitOn_nil,
        List.dropLast_concat]
    · rw [List.splitOn_append_cons_self, pieces, List.splitOn_nil, List.cons_append, ofPieces,
        firstComponent_of (.inr (by simp)), List.filterMap_append]
      simp [empty]
  · obtain ⟨first, rest, pieces⟩ := List.exists_cons_of_ne_nil (List.splitOn_ne_nil sep dir)
    refine ⟨first, rest, by simp [ends, pieces], ?_⟩
    rw [pieces, ofPieces, firstComponent_of]
    by_contra none
    simp only [ne_eq, not_or, Decidable.not_not, Bool.not_eq_true, Bool.not_eq_false',
      List.isEmpty_iff] at none
    have text : [sep].intercalate (dir.splitOn sep) = dir := List.intercalate_splitOn sep
    rw [pieces, none.1, none.2] at text
    exact nonempty (by simpa using text.symm)

theorem components_below (dir : List α) {names : List (List α)} (h : ∀ n ∈ names, Name n) :
    components (below dir names) = components dir ++ names.map .normal := by
  by_cases none : names = []
  · simp [none, below]
  · unfold components
    rw [splitOn_below dir h none]
    by_cases empty : dir = []
    · obtain ⟨n, names, rfl⟩ := List.exists_cons_of_ne_nil none
      have rest : ∀ m ∈ names, Name m := fun m mem => h m (List.mem_cons_of_mem _ mem)
      have nothing : ofPieces (([] : List α).splitOn sep) = [] := by
        simp [ofPieces, firstComponent]
      rw [empty, nothing, dirPieces, if_pos rfl, List.nil_append, ofPieces,
        firstComponent_name (h n List.mem_cons_self), filterMap_names rest]
      rfl
    · obtain ⟨first, rest, pieces, whole⟩ := dirPieces_eq empty
      unfold components at whole
      rw [pieces, whole, List.cons_append, ofPieces, List.filterMap_append, filterMap_names h,
        firstComponent_of (.inr (by simp [none])), List.append_assoc]

theorem dropWhile_names {names : List (List α)} (h : ∀ n ∈ names, Name n) :
    names.dropWhile redundant = names := by
  cases names with
  | nil => rfl
  | cons n names => simp [(h n List.mem_cons_self).notRedundant]

theorem rdropWhile_names {front names : List (List α)} (h : ∀ n ∈ names, Name n)
    (nonempty : names ≠ []) : (front ++ names).rdropWhile redundant = front ++ names := by
  obtain ⟨names, last, rfl⟩ : ∃ ns last, names = ns ++ [last] :=
    ⟨_, _, (List.dropLast_append_getLast nonempty).symm⟩
  have kept := (h last (by simp)).notRedundant
  rw [← List.append_assoc, List.rdropWhile_concat_neg _ _ _ (by simp [kept])]

/-- Dropping as many components as `front` has leaves what follows it. -/
theorem dropComponents_append (front rest : List (List α)) :
    (dropComponents (front.filterMap innerComponent).length (front ++ rest)).dropWhile redundant =
      rest.dropWhile redundant := by
  induction front with
  | nil => simp [dropComponents]
  | cons piece front ih =>
    by_cases skip : redundant piece = true
    · have none : innerComponent piece = none := by simp [innerComponent, skip]
      rw [List.filterMap_cons_none none, List.cons_append]
      generalize count : (front.filterMap innerComponent).length = n at ih ⊢
      cases n with
      | zero => simpa [dropComponents, skip] using ih
      | succ n => simpa [dropComponents, skip] using ih
    · obtain ⟨c, some⟩ : ∃ c, innerComponent piece = some c := by
        unfold innerComponent
        rw [if_neg skip]
        split <;> exact ⟨_, rfl⟩
      rw [List.filterMap_cons_some some, List.length_cons, List.cons_append, dropComponents,
        if_neg skip]
      exact ih

/-- **The path below a directory.** Stripping the directory, however it is
written, leaves the names on the way. -/
theorem stripPrefix_below {base : List α} (dir : List α) {names : List (List α)}
    (same : components base = components dir) (h : ∀ n ∈ names, Name n) (nonempty : names ≠ []) :
    stripPrefix base (below dir names) = some ([sep].intercalate names) := by
  have under : components base <+: components (below dir names) := by
    rw [same, components_below dir h]
    exact List.prefix_append _ _
  have pieces := splitOn_below dir h nonempty
  unfold stripPrefix
  rw [if_pos under, same, pieces]
  by_cases empty : dir = []
  · obtain ⟨n, names, rfl⟩ := List.exists_cons_of_ne_nil nonempty
    have first := (h n List.mem_cons_self).notRedundant
    simp only [redundant, Bool.or_eq_false_iff, decide_eq_false_iff_not] at first
    have kept : names.rdropWhile redundant = names := by
      cases names with
      | nil => rfl
      | cons m names =>
        rw [← List.nil_append (m :: names)]
        exact rdropWhile_names (fun m mem => h m (List.mem_cons_of_mem _ mem)) (by simp)
    have text : below dir (n :: names) ≠ [] := by
      intro none
      rw [none, empty] at pieces
      simp only [dirPieces, if_true, List.splitOn_nil, List.nil_append, List.cons.injEq] at pieces
      exact first.1 pieces.1.symm
    have none : components dir = [] := by simp [empty, components, ofPieces, firstComponent]
    have front : dirPieces dir = [] := by simp [dirPieces, empty]
    rw [none, front]
    simp [text, kept, render, first.1]
  · obtain ⟨first, rest, front, whole⟩ := dirPieces_eq empty
    have count : (components dir).length = (rest.filterMap innerComponent).length + 1 := by
      rw [whole, List.length_append, length_firstComponent]
      omega
    rw [front, count, List.cons_append]
    simp only
    rw [dropComponents_append, dropWhile_names h,
      ← List.nil_append names, rdropWhile_names h nonempty]

theorem sep_notMem_splitOn {path piece : List α} (h : piece ∈ path.splitOn sep) : sep ∉ piece :=
  Codec.notMem_of_mem_splitOn h

theorem filterMap_rdropWhile (pieces : List (List α)) :
    (pieces.rdropWhile redundant).filterMap innerComponent =
      pieces.filterMap innerComponent := by
  induction pieces using List.reverseRecOn with
  | nil => rfl
  | append_singleton pieces piece ih =>
    rw [List.rdropWhile_concat]
    split
    · rename_i skip
      simp [ih, innerComponent, skip]
    · rfl

theorem components_render {first : List α} {rest : List (List α)} (noSep : sep ∉ first)
    (inner : ∀ piece ∈ rest, sep ∉ piece) :
    components (render first rest) =
      firstComponent first true ++ rest.filterMap innerComponent := by
  unfold render components
  by_cases root : first = [] ∧ rest = []
  · obtain ⟨rfl, rfl⟩ := root
    have pieces : [(sep : α)].splitOn sep = [[], []] :=
      List.splitOn_append_cons_self (a := (sep : α)) [] []
    simp [pieces, ofPieces, innerComponent, redundant]
  · have text : ([sep].intercalate (first :: rest)).splitOn sep = first :: rest := by
      refine List.splitOn_intercalate sep ?_ (by simp)
      intro piece mem
      rcases List.mem_cons.mp mem with rfl | mem
      · exact noSep
      · exact inner piece mem
    rw [if_neg (by simpa using root), text, ofPieces, firstComponent_of]
    simp only [ne_eq, Bool.not_eq_true', List.isEmpty_eq_false_iff]
    tauto

theorem parent_join_eq (dir : List α) {name : List α} (h : Name name) :
    parent (join dir name) =
      match dirPieces dir with
      | [] => some []
      | first :: rest => some (render first (rest.rdropWhile redundant)) := by
  have ends := h.notRedundant
  simp only [redundant, Bool.or_eq_false_iff, decide_eq_false_iff_not] at ends
  unfold parent
  rw [splitOn_join dir h.noSep]
  cases dirPieces dir with
  | nil => simp [ends.1]
  | cons first rest =>
    have kept : (rest ++ [name]).rdropWhile redundant = rest ++ [name] :=
      List.rdropWhile_concat_neg _ _ _ (by simp [h.notRedundant])
    simp [kept]

/-- The parent of an entry has the components of its directory. -/
theorem parent_join (dir : List α) {name : List α} (h : Name name) :
    ∃ base, parent (join dir name) = some base ∧ components base = components dir := by
  rw [parent_join_eq dir h]
  by_cases empty : dir = []
  · exact ⟨[], by simp [empty, dirPieces], by rw [empty]⟩
  · obtain ⟨first, rest, front, whole⟩ := dirPieces_eq empty
    have noSep : ∀ piece ∈ first :: rest, sep ∉ piece := by
      intro piece mem
      refine @sep_notMem_splitOn _ _ _ (join dir name) _ ?_
      rw [splitOn_join dir h.noSep, front]
      exact List.mem_append_left _ mem
    rw [front]
    refine ⟨render first (rest.rdropWhile redundant), rfl, ?_⟩
    rw [components_render (noSep first List.mem_cons_self), filterMap_rdropWhile, whole]
    intro piece mem
    exact noSep piece (List.mem_cons_of_mem _ ((List.rdropWhile_prefix _ _).subset mem))

theorem mem_below {c : α} {dir : List α} {names : List (List α)} (h : c ∈ below dir names) :
    c ∈ dir ∨ c = sep ∨ ∃ n ∈ names, c ∈ n := by
  induction names generalizing dir with
  | nil => exact .inl h
  | cons n names ih =>
    rcases ih h with mem | isSep | ⟨m, isName, mem⟩
    · have split : c ∈ dir ∨ c = sep ∨ c ∈ n := by
        unfold join at mem
        split at mem
        · exact (List.mem_append.mp mem).imp_right .inr
        · simpa [List.mem_append, List.mem_cons] using mem
      rcases split with mem | isSep | mem
      · exact .inl mem
      · exact .inr (.inl isSep)
      · exact .inr (.inr ⟨n, List.mem_cons_self, mem⟩)
    · exact .inr (.inl isSep)
    · exact .inr (.inr ⟨m, List.mem_cons_of_mem _ isName, mem⟩)

theorem below_nil {names : List (List α)} (h : ∀ n ∈ names, Name n) :
    below [] names = [sep].intercalate names := by
  by_cases none : names = []
  · simp [none, below]
  · have pieces := splitOn_below [] h none
    rw [dirPieces, if_pos rfl, List.nil_append] at pieces
    have whole : [sep].intercalate ((below [] names).splitOn sep) = below [] names :=
      List.intercalate_splitOn sep
    rw [← whole, pieces]

theorem fileName_below (dir : List α) {names : List (List α)} {name : List α}
    (h : ∀ n ∈ names ++ [name], Name n) : fileName (below dir (names ++ [name])) = some name := by
  simp [fileName, components_below dir h]

end UnixPath
