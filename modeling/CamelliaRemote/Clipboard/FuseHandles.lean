import CamelliaRemote.Clipboard.FuseServer

namespace CamelliaRemote.Clipboard.Mount
open FuseServer

/-- What a call did to the handles. -/
inductive Deed where
  | opened (ino fh : Nat)
  | closed (ino fh : Nat)
  | reloaded
  | none
  deriving DecidableEq

def openDeed (ino : Nat) : Reply → Deed
  | .opened fh => .opened ino fh
  | _ => .none

def closeDeed (ino fh : Nat) : Reply → Deed
  | .ok => .closed ino fh
  | _ => .none

def loadDeed : Reply → Deed
  | .loaded => .reloaded
  | _ => .none

/-- The deed of a call, as its caller sees it. -/
def deed (s : FuseServer) (call : Call) : Deed :=
  match call with
  | .openFile ino => openDeed ino (s.reply call)
  | .opendir ino => openDeed ino (s.reply call)
  | .release ino fh => closeDeed ino fh (s.reply call)
  | .releasedir ino fh => closeDeed ino fh (s.reply call)
  | .loadFileList _ _ => loadDeed (s.reply call)
  | _ => .none

/-- The handles in the vector of a node. -/
def handlersAt (s : FuseServer) (ino : Nat) : List Nat :=
  ((s.entry ino).map (·.fileHandlers.handlers)).getD []

/-- An open of the node gave out the handle from the files that are loaded now, and it
was not released since. -/
def Held (ino fh : Nat) (calls : List Call) : Prop :=
  Runs.Since step (fun s call => deed s call = .opened ino fh)
    (fun s call => deed s call = .closed ino fh ∨ deed s call = .reloaded) new calls

/-- All handles that were given out, in order. -/
def handedOut (calls : List Call) : List Nat :=
  Runs.collect step
    (fun s call => match deed s call with
      | .opened _ fh => [fh]
      | _ => []) new calls

variable {s s' : FuseServer} {call : Call} {calls : List Call} {ino fh : Nat}

theorem entry_setEntry {n : ServedNode} (found : s.entry ino = some n)
    (f : ServedNode → ServedNode) (i : Nat) :
    (s.setEntry ino f).entry i = if i = ino then some (f n) else s.entry i := by
  unfold entry at found ⊢
  by_cases zero : ino = 0
  · rw [if_pos zero] at found
    cases found
  rw [if_neg zero] at found
  unfold setEntry
  by_cases same : i = ino
  · rw [if_pos same, same, if_neg zero, List.getElem?_modify_eq, found]
    rfl
  · rw [if_neg same]
    by_cases zero' : i = 0
    · rw [if_pos zero', if_pos zero']
    · rw [if_neg zero', if_neg zero']
      exact List.getElem?_modify_ne _ _ (show ino - 1 ≠ i - 1 by omega)

theorem handlersAt_of_entry {n : ServedNode} (found : s.entry ino = some n) :
    handlersAt s ino = n.fileHandlers.handlers := by
  rw [handlersAt, found]
  rfl

theorem handlersAt_setEntry {n : ServedNode} (found : s.entry ino = some n)
    (f : ServedNode → ServedNode) (i : Nat) :
    handlersAt (s.setEntry ino f) i =
      if i = ino then (f n).fileHandlers.handlers else handlersAt s i := by
  unfold handlersAt
  rw [entry_setEntry found]
  by_cases same : i = ino
  · rw [if_pos same, if_pos same]
    rfl
  · rw [if_neg same, if_neg same]

/-- Nodes that were just made have no handles. -/
theorem handlersAt_fresh (nodes : List FuseNode) (fresh : s.files = nodes.map .fresh) (i : Nat) :
    handlersAt s i = [] := by
  unfold handlersAt entry
  rw [fresh, List.getElem?_map]
  split
  · rfl
  · cases nodes[i - 1]? <;> rfl

/-- What a call does to the vectors, for each deed. -/
inductive Effect (s s' : FuseServer) : Deed → Prop where
  | opened (ino : Nat) (counter : s'.fileHandleCounter = (s.fileHandleCounter + 1) % 2 ^ 64)
      (vectors : ∀ i, handlersAt s' i =
        if i = ino then handlersAt s ino ++ [s.fileHandleCounter] else handlersAt s i) :
      Effect s s' (.opened ino s.fileHandleCounter)
  | closed (ino fh idx : Nat) (counter : s'.fileHandleCounter = s.fileHandleCounter)
      (found : BinarySearch.search (handlersAt s ino) fh = .ok idx)
      (vectors : ∀ i, handlersAt s' i =
        if i = ino then (handlersAt s ino).eraseIdx idx else handlersAt s i) :
      Effect s s' (.closed ino fh)
  | reloaded (counter : s'.fileHandleCounter = s.fileHandleCounter)
      (vectors : ∀ i, handlersAt s' i = []) : Effect s s' .reloaded
  | kept (counter : s'.fileHandleCounter = s.fileHandleCounter)
      (vectors : ∀ i, handlersAt s' i = handlersAt s i) : Effect s s' .none

theorem effect_openAs {kind : FileType} {refusal : Errno} :
    Effect s (openAs kind refusal s ino).1 (openDeed ino (openAs kind refusal s ino).2) := by
  unfold openAs
  cases found : s.entry ino with
  | none => exact .kept rfl fun _ => rfl
  | some n =>
    simp only
    by_cases wrong : n.node.attributes.kind ≠ kind
    · rw [if_pos wrong]
      exact .kept rfl fun _ => rfl
    rw [if_neg wrong]
    by_cases marked : n.marked = true
    · rw [if_pos marked]
      exact .kept rfl fun _ => rfl
    rw [if_neg marked]
    refine .opened ino rfl fun i => ?_
    have same : s.allocFd.1.entry ino = some n := found
    rw [handlersAt_of_entry found]
    exact handlersAt_setEntry same _ i

/-- A vector from which the handle that was found is removed. -/
theorem effect_unregister {n : ServedNode} {handlers : FileHandles} (found : s.entry ino = some n)
    (removed : n.fileHandlers.unregister fh = some handlers) :
    Effect s (s.setEntry ino ({ · with fileHandlers := handlers })) (.closed ino fh) := by
  unfold FileHandles.unregister at removed
  cases searched : BinarySearch.search n.fileHandlers.handlers fh with
  | error _ =>
    rw [searched] at removed
    cases removed
  | ok idx =>
    rw [searched] at removed
    cases removed
    refine .closed ino fh idx rfl ?_ fun i => ?_
    · rw [handlersAt_of_entry found]
      exact searched
    · rw [handlersAt_of_entry found]
      exact handlersAt_setEntry found _ i

theorem isOk_of_haveHandler {h : FileHandles} (have' : h.haveHandler fh = true) :
    ∃ handlers, h.unregister fh = some handlers := by
  unfold FileHandles.haveHandler at have'
  unfold FileHandles.unregister
  cases searched : BinarySearch.search h.handlers fh with
  | ok idx => exact ⟨_, rfl⟩
  | error _ =>
    rw [searched] at have'
    cases have'

theorem effect_release :
    Effect s (s.release ino fh).1 (closeDeed ino fh (s.release ino fh).2) := by
  unfold release
  cases found : s.entry ino with
  | none => exact .kept rfl fun _ => rfl
  | some n =>
    simp only
    cases removed : n.fileHandlers.unregister fh with
    | none => exact .kept rfl fun _ => rfl
    | some handlers => exact effect_unregister found removed

theorem effect_releasedir :
    Effect s (s.releasedir ino fh).1 (closeDeed ino fh (s.releasedir ino fh).2) := by
  unfold releasedir
  cases found : s.entry ino with
  | none => exact .kept rfl fun _ => rfl
  | some n =>
    simp only
    by_cases wrong : n.node.attributes.kind ≠ .directory
    · rw [if_pos wrong]
      exact .kept rfl fun _ => rfl
    rw [if_neg wrong]
    cases held : n.haveHandler fh with
    | false => exact .kept rfl fun _ => rfl
    | true =>
      obtain ⟨handlers, removed⟩ := isOk_of_haveHandler held
      rw [removed]
      exact effect_unregister found removed

theorem effect_loadFileList (now : Nat) (files : List FileDescription) :
    Effect s (s.loadFileList now files).1 (loadDeed (s.loadFileList now files).2) := by
  unfold loadFileList
  cases FuseNode.buildTree now files with
  | error e => exact .kept rfl fun _ => rfl
  | ok tree => exact .reloaded rfl fun i => handlersAt_fresh _ rfl i

theorem effect_init (now : Nat) : Effect s (s.init now).1 .none := by
  unfold init
  by_cases empty : s.files = []
  · rw [if_pos empty]
    refine .kept rfl fun i => ?_
    rw [handlersAt_fresh (s := s) [] empty]
    exact handlersAt_fresh [FuseNode.newRoot now] rfl i
  · rw [if_neg empty]
    exact .kept rfl fun _ => rfl

/-- **The step lemma**: every call does to the vectors what its deed says. -/
theorem effect (s : FuseServer) (call : Call) : Effect s (step s call) (deed s call) := by
  cases call with
  | loadFileList now files => exact effect_loadFileList now files
  | init now => exact effect_init now
  | lookup => exact .kept rfl fun _ => rfl
  | getattr => exact .kept rfl fun _ => rfl
  | opendir => exact effect_openAs
  | readdir => exact .kept rfl fun _ => rfl
  | releasedir => exact effect_releasedir
  | openFile => exact effect_openAs
  | read => exact .kept rfl fun _ => rfl
  | release => exact effect_release

/-- The vectors are sorted, hold only handles that were given out, and share none. -/
structure Sound (s : FuseServer) : Prop where
  sorted : ∀ i, (handlersAt s i).Pairwise (· < ·)
  below : ∀ i, ∀ fh ∈ handlersAt s i, fh < s.fileHandleCounter
  apart : ∀ i j fh, fh ∈ handlersAt s i → fh ∈ handlersAt s j → i = j

theorem sound_new : Sound new := by
  have empty : ∀ i, handlersAt new i = [] := handlersAt_fresh [] rfl
  refine ⟨fun i => ?_, fun i fh mem => ?_, fun i j fh mem => ?_⟩
  · rw [empty]
    exact .nil
  · rw [empty] at mem
    cases mem
  · rw [empty] at mem
    cases mem

/-- After an open, a handle is the new one of the node or was there before. -/
theorem mem_opened {i fh : Nat}
    (vectors : ∀ i, handlersAt s' i =
      if i = ino then handlersAt s ino ++ [s.fileHandleCounter] else handlersAt s i) :
    fh ∈ handlersAt s' i ↔ fh ∈ handlersAt s i ∨ i = ino ∧ fh = s.fileHandleCounter := by
  rw [vectors i]
  by_cases same : i = ino
  · rw [if_pos same, same]
    simp
  · rw [if_neg same]
    simp [same]

/-- After a release, the handle is gone from the node. -/
theorem mem_closed {idx i fh' : Nat} (sorted : (handlersAt s ino).Pairwise (· < ·))
    (found : BinarySearch.search (handlersAt s ino) fh = .ok idx)
    (vectors : ∀ i, handlersAt s' i =
      if i = ino then (handlersAt s ino).eraseIdx idx else handlersAt s i) :
    fh' ∈ handlersAt s' i ↔ fh' ∈ handlersAt s i ∧ ¬ (ino = i ∧ fh = fh') := by
  rw [vectors i]
  by_cases same : i = ino
  · rw [if_pos same, same,
      BinarySearch.mem_eraseIdx_iff sorted ((BinarySearch.search_eq_ok_iff sorted).mp found)]
    simp [eq_comm]
  · rw [if_neg same]
    simp [Ne.symm same]

theorem Sound.step {d : Deed} (h : Sound s) (e : Effect s s' d)
    (room : ∀ ino fh, d = .opened ino fh → s.fileHandleCounter + 1 < 2 ^ 64) : Sound s' := by
  cases e with
  | opened ino counter vectors =>
    have next : s'.fileHandleCounter = s.fileHandleCounter + 1 := by
      rw [counter, Nat.mod_eq_of_lt (room ino _ rfl)]
    refine ⟨fun i => ?_, fun i fh mem => ?_, fun i j fh memI memJ => ?_⟩
    · rw [vectors i]
      split
      · exact BinarySearch.sorted_append (h.sorted ino) (h.below ino)
      · exact h.sorted i
    · rw [next]
      rcases (mem_opened vectors).mp mem with old | ⟨-, rfl⟩
      · exact Nat.lt_succ_of_lt (h.below i fh old)
      · exact Nat.lt_succ_self _
    · rcases (mem_opened vectors).mp memI with oldI | ⟨rfl, rfl⟩
      · rcases (mem_opened vectors).mp memJ with oldJ | ⟨rfl, rfl⟩
        · exact h.apart i j fh oldI oldJ
        · exact absurd (h.below i _ oldI) (Nat.lt_irrefl _)
      · rcases (mem_opened vectors).mp memJ with oldJ | ⟨rfl, -⟩
        · exact absurd (h.below j _ oldJ) (Nat.lt_irrefl _)
        · rfl
  | closed ino fh idx counter found vectors =>
    have old : ∀ {i fh'}, fh' ∈ handlersAt s' i → fh' ∈ handlersAt s i := fun mem =>
      ((mem_closed (h.sorted ino) found vectors).mp mem).1
    refine ⟨fun i => ?_, fun i fh' mem => ?_, fun i j fh' memI memJ => ?_⟩
    · rw [vectors i]
      split
      · exact BinarySearch.sorted_eraseIdx (h.sorted ino) idx
      · exact h.sorted i
    · rw [counter]
      exact h.below i fh' (old mem)
    · exact h.apart i j fh' (old memI) (old memJ)
  | reloaded counter vectors =>
    refine ⟨fun i => ?_, fun i fh' mem => ?_, fun i j fh' mem => ?_⟩
    · rw [vectors i]
      exact .nil
    · rw [vectors i] at mem
      cases mem
    · rw [vectors i] at mem
      cases mem
  | kept counter vectors =>
    refine ⟨fun i => ?_, fun i fh' mem => ?_, fun i j fh' memI memJ => ?_⟩
    · rw [vectors i]
      exact h.sorted i
    · rw [counter]
      rw [vectors i] at mem
      exact h.below i fh' mem
    · rw [vectors i] at memI
      rw [vectors j] at memJ
      exact h.apart i j fh' memI memJ

theorem handedOut_snoc (calls : List Call) (call : Call) :
    handedOut (calls ++ [call]) = handedOut calls ++
      (match deed (after calls) call with
        | .opened _ fh => [fh]
        | _ => []) := by
  rw [handedOut, Runs.collect_append]
  simp only [Runs.collect, List.append_nil]
  rfl

theorem after_snoc (calls : List Call) (call : Call) :
    after (calls ++ [call]) = step (after calls) call := by
  simp [after]

/-- Below 2^64 the counter is the number of handles given out, and these are all the
smaller numbers. -/
theorem counter_eq (below : (handedOut calls).length < 2 ^ 64) :
    (after calls).fileHandleCounter = (handedOut calls).length ∧
      handedOut calls = List.range (handedOut calls).length := by
  induction calls using List.reverseRecOn with
  | nil => exact ⟨rfl, rfl⟩
  | append_singleton calls call ih =>
    rw [handedOut_snoc, List.length_append] at below
    obtain ⟨counter, all⟩ := ih (by omega)
    rw [after_snoc, handedOut_snoc]
    have does := effect (after calls) call
    generalize deed (after calls) call = d at does below
    cases does with
    | opened ino counter' =>
      simp only [List.length_singleton] at below
      rw [counter', counter, Nat.mod_eq_of_lt below]
      simp only [List.length_append, List.length_singleton, true_and]
      rw [List.range_succ, ← all]
    | closed ino fh idx counter' => simpa [counter'] using ⟨counter, all⟩
    | reloaded counter' => simpa [counter'] using ⟨counter, all⟩
    | kept counter' => simpa [counter'] using ⟨counter, all⟩

theorem sound_after (below : (handedOut calls).length < 2 ^ 64) : Sound (after calls) := by
  induction calls using List.reverseRecOn with
  | nil => exact sound_new
  | append_singleton calls call ih =>
    rw [handedOut_snoc, List.length_append] at below
    rw [after_snoc]
    refine (ih (by omega)).step (effect (after calls) call) fun ino fh opened => ?_
    rw [opened, List.length_singleton] at below
    rw [(counter_eq (by omega)).1]
    exact below

/-- A node has just the handles that are held. -/
theorem mem_handlersAt_iff (below : (handedOut calls).length < 2 ^ 64) :
    fh ∈ handlersAt (after calls) ino ↔ Held ino fh calls := by
  induction calls using List.reverseRecOn with
  | nil =>
    have empty : handlersAt new ino = [] := handlersAt_fresh [] rfl ino
    change fh ∈ handlersAt new ino ↔ False
    rw [empty]
    simp
  | append_singleton calls call ih =>
    rw [handedOut_snoc, List.length_append] at below
    have ih := ih (by omega)
    have sound : Sound (after calls) := sound_after (by omega)
    have does := effect (after calls) call
    unfold Held at ih ⊢
    rw [Runs.since_snoc, after_snoc, ← ih]
    change _ ↔ deed (after calls) call = _ ∨
      _ ∧ ¬ (deed (after calls) call = _ ∨ deed (after calls) call = _)
    generalize deed (after calls) call = d at does
    cases does with
    | opened ino' counter vectors =>
      rw [mem_opened vectors]
      simp [or_comm, eq_comm]
    | closed ino' fh' idx counter found vectors =>
      rw [mem_closed (sound.sorted ino') found vectors]
      simp
    | reloaded counter vectors =>
      rw [vectors ino]
      simp
    | kept counter vectors =>
      rw [vectors ino]
      simp

theorem haveHandler_iff (below : (handedOut calls).length < 2 ^ 64) {n : ServedNode}
    (found : (after calls).entry ino = some n) :
    n.haveHandler fh = true ↔ Held ino fh calls := by
  have sorted := (sound_after below).sorted ino
  rw [handlersAt_of_entry found] at sorted
  rw [← mem_handlersAt_iff below, handlersAt_of_entry found]
  exact BinarySearch.search_isOk_iff sorted

/-- A handle that is held after the files were loaded anew was given out after that. -/
theorem not_held_of_reloaded {before rest : List Call} {load : Call}
    (below : (handedOut (before ++ load :: rest)).length < 2 ^ 64)
    (reloaded : deed (after before) load = .reloaded) (early : fh ∈ handedOut before) :
    ¬ Held ino fh (before ++ load :: rest) := by
  intro held
  have distinct : (handedOut (before ++ load :: rest)).Nodup := by
    rw [(counter_eq below).2]
    exact List.nodup_range
  unfold handedOut at distinct early
  rw [Runs.collect_append, List.nodup_append] at distinct
  unfold Held at held
  rw [Runs.since_append] at held
  rcases held with ⟨-, noReload⟩ | held
  · exact noReload (.inl (.inr reloaded))
  · refine distinct.2.2 fh early fh ?_ rfl
    refine Runs.mem_collect_of_happened ?_ (Runs.happened_of_since held)
    intro s call opened
    rw [opened]
    exact List.mem_singleton_self fh

/-- What is promised of the handles after some calls. -/
structure HandlesExact (calls : List Call) : Prop where
  sorted : ∀ ino n, (after calls).entry ino = some n →
    n.fileHandlers.handlers.Pairwise (· < ·)
  apart : ∀ ino ino' n n' fh, (after calls).entry ino = some n →
    (after calls).entry ino' = some n' → fh ∈ n.fileHandlers.handlers →
    fh ∈ n'.fileHandlers.handlers → ino = ino'
  exact : ∀ ino n fh, (after calls).entry ino = some n →
    (n.haveHandler fh = true ↔ Held ino fh calls)
  /-- No handle of an earlier list of files is taken. -/
  stale : ∀ before now files rest, calls = before ++ .loadFileList now files :: rest →
    deed (after before) (.loadFileList now files) = .reloaded → ∀ fh ∈ handedOut before,
    ∀ ino n, (after calls).entry ino = some n → n.haveHandler fh = false

/-- **Handles are exact**: in every run that gives out fewer than 2^64 of them. -/
theorem handles_exact (calls : List Call) (below : (handedOut calls).length < 2 ^ 64) :
    HandlesExact calls := by
  have sound := sound_after below
  constructor
  · intro ino n found
    have sorted := sound.sorted ino
    rwa [handlersAt_of_entry found] at sorted
  · intro ino ino' n n' fh found found' mem mem'
    apply sound.apart ino ino' fh
    · rwa [handlersAt_of_entry found]
    · rwa [handlersAt_of_entry found']
  · intro ino n fh found
    exact haveHandler_iff below found
  · rintro before now files rest rfl reloaded fh early ino n found
    rw [Bool.eq_false_iff]
    intro held
    exact not_held_of_reloaded below reloaded early ((haveHandler_iff below found).mp held)

/-- A directory is opened, a file is pasted and opened. -/
def pasteCalls : List Call :=
  [.init 0, .opendir 1,
    .loadFileList 0 [⟨7, "note".toList, .file, 0, 0, 0, 0, 5, permRw⟩],
    .openFile 2, .read 2 1 0 5 (some []), .releasedir 1 0]

theorem handles_exact_pasteCalls :
    (handedOut pasteCalls).length < 2 ^ 64 ∧ HandlesExact pasteCalls :=
  ⟨by decide +kernel, handles_exact pasteCalls (by decide +kernel)⟩

example : handedOut pasteCalls = [0, 1] := by decide +kernel

end CamelliaRemote.Clipboard.Mount
