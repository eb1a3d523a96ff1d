import CamelliaRemote.Lib.UnixPath

namespace UnixPath
open PathChar

variable {α : Type} [DecidableEq α] [PathChar α]

/-- `Path::join` and `PathBuf::push`: an absolute path replaces what it is joined to. -/
def push (dir path : List α) : List α :=
  if path.head? = some sep then path else join dir path

/-- The text up to the last separator, with it. -/
def dirOf (path : List α) : List α := path.rdropWhile (· ≠ sep)

/-- The text after the last separator. -/
def lastPiece (path : List α) : List α := path.rtakeWhile (· ≠ sep)

/-- `rsplit_file_at_dot`: what is before and after the last dot of a file name. A name whose
only dot is its first character has no extension. -/
def rsplitAtDot (name : List α) : List α × Option (List α) :=
  let after := name.rtakeWhile (· ≠ dot)
  let before := (name.rdropWhile (· ≠ dot)).dropLast
  if after.length = name.length ∨ before = [] then (name, none) else (before, some after)

def extension (path : List α) : Option (List α) :=
  (fileName path).bind fun name => (rsplitAtDot name).2

def fileStem (path : List α) : Option (List α) :=
  (fileName path).map fun name => (rsplitAtDot name).1

def withFileName (path name : List α) : List α :=
  push (if (fileName path).isSome then (parent path).getD path else path) name

def normalStep (cs : List (Component α)) : Component α → List (Component α)
  | .rootDir => [.rootDir]
  | .curDir => cs
  | .parentDir =>
    match cs.getLast? with
    | some (.normal _) => cs.dropLast
    | some .rootDir => cs
    | _ => cs ++ [Component.parentDir]
  | .normal name => cs ++ [Component.normal name]

def normalise (cs : List (Component α)) : List (Component α) := cs.foldl normalStep []

/-- The directory or a descendant of it. -/
def Within (base cs : List (Component α)) : Prop :=
  ∃ names : List (List α), normalise cs = normalise base ++ names.map .normal

/-- A descendant of the directory. -/
def Below (base cs : List (Component α)) : Prop :=
  ∃ (names : List (List α)) (name : List α),
    normalise cs = normalise base ++ (names ++ [name]).map .normal

omit [DecidableEq α] [PathChar α] in
theorem normalise_snoc (cs : List (Component α)) (name : List α) :
    normalise (cs ++ [Component.normal name]) = normalise cs ++ [Component.normal name] := by
  simp [normalise, normalStep]

omit [DecidableEq α] [PathChar α] in
theorem Within.below {base cs : List (Component α)} (h : Within base cs) (name : List α) :
    Below base (cs ++ [Component.normal name]) := by
  obtain ⟨names, eq⟩ := h
  exact ⟨names, name, by simp [normalise_snoc, eq]⟩

omit [DecidableEq α] [PathChar α] in
theorem Below.within {base cs : List (Component α)} {name : List α}
    (h : Below base (cs ++ [Component.normal name])) : Within base cs := by
  obtain ⟨names, last, eq⟩ := h
  rw [normalise_snoc, List.map_append, ← List.append_assoc] at eq
  exact ⟨names, (List.append_inj' eq rfl).1⟩

theorem dirOf_append_lastPiece (path : List α) : dirOf path ++ lastPiece path = path :=
  List.rdropWhile_append_rtakeWhile

theorem sep_notMem_lastPiece (path : List α) : sep ∉ lastPiece path := by
  intro mem
  simpa using List.mem_rtakeWhile_imp mem

theorem dirOf_getLast (path : List α) : dirOf path = [] ∨ (dirOf path).getLast? = some sep := by
  by_cases empty : dirOf path = []
  · exact .inl empty
  · have last := List.rdropWhile_last_not (fun c : α => decide (c ≠ sep)) path empty
    rw [List.getLast?_eq_some_getLast empty]
    refine .inr (congrArg some ?_)
    by_contra other
    exact last (decide_eq_true other)

theorem join_dirOf (path : List α) : join (dirOf path) (lastPiece path) = path := by
  rw [join, if_pos (dirOf_getLast path), dirOf_append_lastPiece]

omit [DecidableEq α] [PathChar α] in
theorem rdropWhile_append_of_forall {p : α → Bool} {s : List α} (h : ∀ c ∈ s, p c = true)
    (l : List α) : (l ++ s).rdropWhile p = l.rdropWhile p := by
  induction s using List.reverseRecOn with
  | nil => simp
  | append_singleton s c ih =>
    rw [← List.append_assoc, List.rdropWhile_concat_pos _ _ _ (h c (by simp))]
    exact ih fun d mem => h d (by simp [mem])

theorem dirOf_append {s : List α} (h : sep ∉ s) (path : List α) :
    dirOf (path ++ s) = dirOf path := by
  have all : ∀ c ∈ s, decide (c ≠ sep) = true := by
    intro c mem
    refine decide_eq_true fun eq => ?_
    exact h (eq ▸ mem)
  exact rdropWhile_append_of_forall all path

theorem lastPiece_append {s : List α} (h : sep ∉ s) (path : List α) :
    lastPiece (path ++ s) = lastPiece path ++ s := by
  have whole := dirOf_append_lastPiece (path ++ s)
  rw [dirOf_append h] at whole
  have split : dirOf path ++ (lastPiece path ++ s) = path ++ s := by
    rw [← List.append_assoc, dirOf_append_lastPiece]
  exact List.append_cancel_left (whole.trans split.symm)

/-- A text of three characters more is no `.` and no `..`. -/
theorem name_append {piece s : List α} (noSep : sep ∉ piece) (noSep' : sep ∉ s)
    (long : 3 ≤ s.length) : Name (piece ++ s) := by
  refine ⟨by simp [noSep, noSep'], ?_, ?_⟩
  · have notDot : piece ++ s ≠ [dot] := by
      intro eq
      have len := congrArg List.length eq
      simp only [List.length_append, List.length_singleton] at len
      omega
    have nonempty : piece ++ s ≠ [] := by
      intro eq
      have len := congrArg List.length eq
      simp only [List.length_append, List.length_nil] at len
      omega
    simp [redundant, notDot, nonempty]
  · intro eq
    have len := congrArg List.length eq
    simp only [List.length_append, List.length_cons, List.length_nil] at len
    omega

theorem components_join (dir : List α) {name : List α} (h : Name name) :
    components (join dir name) = components dir ++ [Component.normal name] := by
  have names : ∀ n ∈ [name], Name n := by simpa using h
  exact components_below dir names

/-- The components of a path that ends with a name. -/
theorem components_entry {path : List α} (h : Name (lastPiece path)) :
    components path = components (dirOf path) ++ [Component.normal (lastPiece path)] := by
  conv_lhs => rw [← join_dirOf path]
  exact components_join _ h

theorem exists_innerComponent {piece : List α} (h : redundant piece = false) :
    ∃ c, innerComponent piece = some c := by
  unfold innerComponent
  rw [h]
  simp only [Bool.false_eq_true, if_false]
  split <;> exact ⟨_, rfl⟩

theorem components_trimmed {path first : List α} {rest : List (List α)}
    (pieces : path.splitOn sep = first :: rest) :
    components path = firstComponent first (!rest.isEmpty) ++
      (rest.rdropWhile redundant).filterMap innerComponent := by
  rw [filterMap_rdropWhile, components, pieces, ofPieces]

/-- The parent has all components but the last. -/
theorem components_parent {path base : List α} (h : parent path = some base) :
    ∃ c, components path = components base ++ [c] := by
  unfold parent at h
  obtain ⟨first, rest, pieces⟩ := List.exists_cons_of_ne_nil (List.splitOn_ne_nil sep path)
  have noSep : ∀ piece ∈ first :: rest, sep ∉ piece := fun piece mem =>
    sep_notMem_splitOn (pieces ▸ mem)
  have whole := components_trimmed pieces
  rw [pieces] at h
  simp only at h
  by_cases none : rest.rdropWhile redundant = []
  · rw [none] at h whole
    by_cases empty : first = []
    · simp [empty] at h
    · simp only [List.isEmpty_nil, if_true, empty, if_false, Option.some.injEq] at h
      have same : firstComponent first (!rest.isEmpty) = firstComponent first true :=
        firstComponent_of (.inl empty)
      have one := length_firstComponent first
      rw [← same] at one
      obtain ⟨c, eq⟩ := List.length_eq_one_iff.mp one
      refine ⟨c, ?_⟩
      rw [whole, eq, ← h]
      simp [components, ofPieces, firstComponent]
  · obtain ⟨front, last, split⟩ : ∃ front last, rest.rdropWhile redundant = front ++ [last] :=
      ⟨_, _, (List.dropLast_append_getLast none).symm⟩
    have kept : redundant last = false := by
      have not := List.rdropWhile_last_not redundant rest none
      simpa [split] using not
    obtain ⟨c, some⟩ := exists_innerComponent kept
    have more : (!rest.isEmpty) = true := by
      cases rest with
      | nil => simp at none
      | cons => rfl
    rw [split] at h whole
    have nonempty : ¬ (front ++ [last]).isEmpty = true := by simp
    rw [if_neg nonempty, List.dropLast_concat] at h
    refine ⟨c, ?_⟩
    rw [whole, ← Option.some.inj h, components_render (noSep first List.mem_cons_self),
      filterMap_rdropWhile, firstComponent_of (.inr more), List.filterMap_append, List.append_assoc]
    · simp [some]
    · intro piece mem
      have kept : piece ∈ rest.rdropWhile redundant := by
        rw [split]
        exact List.mem_append_left _ ((List.rdropWhile_prefix _ _).subset mem)
      have inner := (List.rdropWhile_prefix redundant rest).subset kept
      exact noSep piece (List.mem_cons_of_mem _ inner)

/-- `Path::ancestors`: the path, its parent, and so on. -/
def ancestors (path : List α) : List (List α) :=
  match _up : parent path with
  | none => [path]
  | some base => path :: ancestors base
termination_by (components path).length
decreasing_by
  obtain ⟨c, eq⟩ := components_parent _up
  simp [eq]

theorem fileName_eq_some {path name : List α} :
    fileName path = some name ↔ ∃ front, components path = front ++ [Component.normal name] := by
  unfold fileName
  constructor
  · intro h
    split at h
    · rename_i last
      obtain rfl : _ = name := Option.some.inj h
      exact ⟨_, (List.dropLast_append_getLast? _ last).symm⟩
    · exact absurd h (by simp)
  · rintro ⟨front, eq⟩
    simp [eq]

theorem exists_parent {path name : List α} (h : fileName path = some name) :
    ∃ base, parent path = some base := by
  obtain ⟨front, eq⟩ := fileName_eq_some.mp h
  cases found : parent path with
  | some base => exact ⟨base, rfl⟩
  | none =>
    exfalso
    unfold parent at found
    obtain ⟨first, rest, pieces⟩ := List.exists_cons_of_ne_nil (List.splitOn_ne_nil sep path)
    rw [pieces] at found
    simp only at found
    have none : rest.rdropWhile redundant = [] := by
      by_contra some
      rw [if_neg (by simpa using some)] at found
      exact absurd found (by simp)
    rw [none] at found
    have empty : first = [] := by
      by_contra some
      simp [some] at found
    have whole := components_trimmed pieces
    rw [none, empty, eq] at whole
    cases rest <;> simp [firstComponent, List.append_eq_singleton_iff] at whole

theorem innerComponent_normal {piece name : List α}
    (h : innerComponent piece = some (.normal name)) :
    piece = name ∧ redundant name = false ∧ name ≠ [dot, dot] := by
  unfold innerComponent at h
  split at h
  · cases h
  · rename_i notRedundant
    split at h
    · cases h
    · rename_i notParent
      cases h
      exact ⟨rfl, Bool.eq_false_iff.mpr notRedundant, notParent⟩

/-- A file name is a piece of the path. -/
theorem exists_piece_of_fileName {path name : List α} (h : fileName path = some name) :
    ∃ piece ∈ path.splitOn sep, innerComponent piece = some (.normal name) := by
  obtain ⟨front, eq⟩ := fileName_eq_some.mp h
  have mem : Component.normal name ∈ components path := by simp [eq]
  rw [components] at mem
  obtain ⟨first, rest, pieces⟩ := List.exists_cons_of_ne_nil (List.splitOn_ne_nil sep path)
  rw [pieces, ofPieces, List.mem_append] at mem
  rw [pieces]
  rcases mem with mem | mem
  · unfold firstComponent at mem
    split at mem
    · split at mem <;> simp at mem
    · split at mem
      · simp at mem
      · exact ⟨first, List.mem_cons_self, Option.mem_toList.mp mem⟩
  · obtain ⟨piece, isPiece, found⟩ := List.mem_filterMap.mp mem
    exact ⟨piece, List.mem_cons_of_mem _ isPiece, found⟩

/-- A file name is what a file system admits as a name. -/
theorem name_of_fileName {path name : List α} (h : fileName path = some name) : Name name := by
  obtain ⟨piece, isPiece, inner⟩ := exists_piece_of_fileName h
  obtain ⟨rfl, notRedundant, notParent⟩ := innerComponent_normal inner
  exact ⟨sep_notMem_splitOn isPiece, notRedundant, notParent⟩

theorem sep_notMem_fileName {path name : List α} (h : fileName path = some name) :
    sep ∉ name := (name_of_fileName h).noSep

/-- Another name stands in the directory of the one it replaces. -/
theorem components_withFileName {path name new : List α} (h : fileName path = some name)
    (isName : Name new) :
    ∃ front, components path = front ++ [Component.normal name] ∧
      components (withFileName path new) = front ++ [Component.normal new] := by
  obtain ⟨base, up⟩ := exists_parent h
  obtain ⟨c, eq⟩ := components_parent up
  obtain ⟨front, eq'⟩ := fileName_eq_some.mp h
  obtain ⟨rfl, -⟩ := List.append_inj' (eq.symm.trans eq') rfl
  have relative : ¬ new.head? = some (sep : α) := by
    intro first
    exact isName.noSep (List.mem_of_mem_head? first)
  refine ⟨components base, eq', ?_⟩
  rw [withFileName, h, up, push, if_neg relative]
  exact components_join base isName

/-- The text of a parent is split into the pieces it was made of. -/
theorem dirPieces_render {first : List α} {rest : List (List α)}
    (noSep : ∀ piece ∈ first :: rest, sep ∉ piece) :
    dirPieces (render first (rest.rdropWhile redundant)) =
      first :: rest.rdropWhile redundant := by
  have inner : ∀ piece ∈ first :: rest.rdropWhile redundant, sep ∉ piece := by
    intro piece mem
    rcases List.mem_cons.mp mem with rfl | mem
    · exact noSep _ List.mem_cons_self
    · exact noSep piece (List.mem_cons_of_mem _ ((List.rdropWhile_prefix _ _).subset mem))
  by_cases root : first = [] ∧ rest.rdropWhile redundant = []
  · have pieces : [(sep : α)].splitOn sep = [[], []] :=
      List.splitOn_append_cons_self [] []
    simp [root.1, root.2, render, dirPieces, pieces]
  · have text : render first (rest.rdropWhile redundant) =
        [sep].intercalate (first :: rest.rdropWhile redundant) := by
      rw [render, if_neg (by simpa using root)]
    have pieces : ([sep].intercalate (first :: rest.rdropWhile redundant)).splitOn sep =
        first :: rest.rdropWhile redundant :=
      List.splitOn_intercalate sep inner (by simp)
    rw [text]
    generalize whole : [sep].intercalate (first :: rest.rdropWhile redundant) = path at pieces ⊢
    have nonempty : path ≠ [] := by
      intro empty
      rw [empty, List.splitOn_nil, List.cons.injEq] at pieces
      exact root ⟨pieces.1.symm, pieces.2.symm⟩
    have notSep : path.getLast? ≠ some sep := by
      intro ends
      obtain ⟨front, rfl⟩ : ∃ front, path = front ++ [sep] :=
        ⟨path.dropLast, (List.dropLast_append_getLast? _ ends).symm⟩
      rw [List.splitOn_append_cons_self, List.splitOn_nil] at pieces
      by_cases none : rest.rdropWhile redundant = []
      · rw [none] at pieces
        have len := congrArg List.length pieces
        simp [List.splitOn_ne_nil] at len
      · have last := congrArg List.getLast? pieces
        rw [List.getLast?_concat, List.getLast?_cons, List.getLast?_eq_some_getLast none] at last
        have kept := List.rdropWhile_last_not redundant rest none
        simp only [Option.getD_some, Option.some.injEq] at last
        rw [← last] at kept
        simp [redundant] at kept
    rw [dirPieces, if_neg nonempty, if_neg notSep, pieces]

/-- Another name in the directory of an entry has the same parent, to the letter. -/
theorem parent_withFileName {path new : List α} (h : Name (lastPiece path)) (isName : Name new) :
    parent (withFileName path new) = parent path := by
  have named : fileName path = some (lastPiece path) :=
    fileName_eq_some.mpr ⟨_, components_entry h⟩
  obtain ⟨base, up⟩ := exists_parent named
  have relative : ¬ new.head? = some (sep : α) := by
    intro first
    exact isName.noSep (List.mem_of_mem_head? first)
  rw [withFileName, named, push, if_neg relative, up]
  simp only [Option.isSome_some, if_true, Option.getD_some]
  have text := parent_join_eq (dirOf path) h
  rw [join_dirOf, up] at text
  rw [parent_join_eq base isName]
  cases pieces : dirPieces (dirOf path) with
  | nil =>
    rw [pieces, Option.some.injEq] at text
    simp [text, dirPieces]
  | cons first rest =>
    rw [pieces, Option.some.injEq] at text
    have noSep : ∀ piece ∈ first :: rest, sep ∉ piece := by
      intro piece mem
      refine @sep_notMem_splitOn _ _ _ (join (dirOf path) (lastPiece path)) _ ?_
      rw [splitOn_join _ h.noSep, pieces]
      exact List.mem_append_left _ mem
    rw [text, dirPieces_render noSep]
    simp only [List.rdropWhile_idempotent]

theorem parent_append {path s : List α} (h : Name (lastPiece path))
    (longer : Name (lastPiece path ++ s)) : parent (path ++ s) = parent path := by
  have noSep : sep ∉ s := fun mem => longer.noSep (List.mem_append_right _ mem)
  have text := parent_join_eq (dirOf path) h
  have text' := parent_join_eq (dirOf path) longer
  rw [join_dirOf] at text
  rw [← lastPiece_append noSep, ← dirOf_append noSep, join_dirOf, dirOf_append noSep] at text'
  rw [text, text']

end UnixPath
