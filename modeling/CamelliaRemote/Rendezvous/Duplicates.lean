import CamelliaRemote.Lib.Runs
import Mathlib.Algebra.Ring.Nat

/-!
Duplicate requests, `src/rendezvous_mediator.rs`. `handle_punch_hole` and `handle_intranet`
compare with `LAST_MSG`, `handle_request_relay` with `LAST_RELAY_MSG`: each message has its own
task, which reads the static, writes it, and then checks what it has read. Reading and writing are
two steps. Times are in nanoseconds.
-/

namespace CamelliaRemote.Duplicates
open Runs

/-- The value of a static. -/
structure Last (A : Type) where
  addr : A
  time : Nat
  deriving DecidableEq

/-- Where the task of a message is, with what it has read and what it has written. -/
inductive Phase (A : Type) where
  | spawned
  | read (last : Last A)
  | written (last own : Last A)
  /-- Past the duplicate check, or stopped by it. -/
  | checked (last own : Last A) (proceeds : Bool)
  deriving DecidableEq

structure Task (A : Type) where
  addr : A
  arrived : Nat
  phase : Phase A := .spawned
  deriving DecidableEq

/-- One static with the tasks that use it, in the order of their messages. -/
structure Table (A : Type) where
  now : Nat
  last : Last A
  tasks : List (Task A) := []

inductive Event (A : Type) where
  | arrive (addr : A)
  | read (i : Nat)
  | write (i : Nat)
  | check (i : Nat)
  deriving DecidableEq

variable {A : Type}

namespace Task
variable (t : Task A)

/-- What the task has read. -/
def last : Option (Last A) :=
  match t.phase with
  | .spawned => none
  | .read last | .written last _ | .checked last _ _ => some last

/-- What the task has written. -/
def own : Option (Last A) :=
  match t.phase with
  | .spawned | .read _ => none
  | .written _ own | .checked _ own _ => some own

def reading : Bool :=
  match t.phase with
  | .read _ => true
  | _ => false

/-- The task goes on to open a connection. -/
def proceeds : Bool :=
  match t.phase with
  | .checked _ _ proceeds => proceeds
  | _ => false

def window : Nat := 100 * 10 ^ 6

/-- The messages came within 100 ms. -/
def Near (u : Task A) : Prop :=
  t.arrived < u.arrived + window ∧ u.arrived < t.arrived + window

instance (u : Task A) : Decidable (t.Near u) := inferInstanceAs (Decidable
  (t.arrived < u.arrived + window ∧ u.arrived < t.arrived + window))

/-- What the other task has read is of its own address, and not older than the write of this
one. -/
def Seen (u : Task A) : Prop :=
  ∃ o l, t.own = some o ∧ u.last = some l ∧ l.addr = u.addr ∧ o.time ≤ l.time

end Task

namespace Table
variable (s : Table A)

def goTo (i : Nat) (t : Task A) (phase : Phase A) : Table A :=
  { s with tasks := s.tasks.set i { t with phase } }

def write (i : Nat) (t : Task A) (last : Last A) : Table A :=
  { s.goTo i t (.written last ⟨t.addr, s.now⟩) with last := ⟨t.addr, s.now⟩ }

/-- The messages between two of them are of the address, too. -/
def Between (addr : A) (i j : Nat) : Prop :=
  ∀ (k : Nat) (v : Task A), i < k ∧ k < j ∨ j < k ∧ k < i → s.tasks[k]? = some v → v.addr = addr

/-- Of the messages of one address that came within 100 ms, with no other address between them,
one at most goes on. -/
def AnsweredOnce : Prop :=
  ∀ (i j : Nat) (t u : Task A), s.tasks[i]? = some t → s.tasks[j]? = some u → i ≠ j →
    t.addr = u.addr → t.Near u → s.Between t.addr i j →
    ¬ (t.proceeds = true ∧ u.proceeds = true)

variable [DecidableEq A]

/-- The address is the one that was read, less than 100 ms ago. -/
def isDuplicate (t : Task A) (last : Last A) : Bool :=
  decide (last.addr = t.addr) && decide ((s.now - last.time) / 10 ^ 6 < 100)

def step : Event A → Table A
  | .arrive addr => { s with tasks := s.tasks ++ [{ addr, arrived := s.now }] }
  | .read i =>
    match s.tasks[i]? with
    | some ⟨addr, arrived, .spawned⟩ => s.goTo i ⟨addr, arrived, .spawned⟩ (.read s.last)
    | _ => s
  | .write i =>
    match s.tasks[i]? with
    | some ⟨addr, arrived, .read last⟩ => s.write i ⟨addr, arrived, .read last⟩ last
    | _ => s
  | .check i =>
    match s.tasks[i]? with
    | some ⟨addr, arrived, .written last own⟩ =>
      let t : Task A := ⟨addr, arrived, .written last own⟩
      s.goTo i t (.checked last own (!s.isDuplicate t last))
    | _ => s

/-- A task reads while no other one is between its read and its write, and every message of
another address that came before it has written. A task checks less than 100 ms after each write,
not later than what it has read, by a message of its address that came within 100 ms of it. -/
def InOrder : Event A → Prop
  | .read i => ∀ t ∈ s.tasks[i]?, (∀ u ∈ s.tasks, u.reading = false) ∧
      ∀ u ∈ s.tasks.take i, u.addr ≠ t.addr → u.own.isSome = true
  | .check i => ∀ t ∈ s.tasks[i]?, ∀ last ∈ t.last, ∀ u ∈ s.tasks.eraseIdx i,
      u.addr = t.addr → t.Near u → ∀ own ∈ u.own, own.time ≤ last.time →
        s.now < own.time + Task.window
  | _ => True

instance : ∀ e, Decidable (s.InOrder e)
  | .read i => inferInstanceAs (Decidable (∀ t ∈ s.tasks[i]?, _ ∧ _))
  | .check i => inferInstanceAs (Decidable (∀ t ∈ s.tasks[i]?, ∀ last ∈ t.last,
      ∀ u ∈ s.tasks.eraseIdx i, u.addr = t.addr → t.Near u → ∀ own ∈ u.own,
        own.time ≤ last.time → s.now < own.time + Task.window))
  | .arrive _ | .write _ => .isTrue trivial

omit [DecidableEq A]

/-- After the write of a task, and until another address comes, the static is of its address and
not older than the write. -/
structure Inv : Prop where
  past : ∀ (i : Nat) (t : Task A) (o : Last A), s.tasks[i]? = some t → t.own = some o →
    o.time ≤ s.now
  before : ∀ (i k : Nat) (t u : Task A), s.tasks[i]? = some t → s.tasks[k]? = some u → k < i →
    u.addr ≠ t.addr → t.last.isSome = true → u.own.isSome = true
  current : ∀ (i j : Nat) (t : Task A) (o : Last A), s.tasks[i]? = some t → t.own = some o →
    j ≤ s.tasks.length →
    (∀ u : Task A, s.tasks[j]? = some u → u.addr = t.addr ∧ u.last = none) →
    s.Between t.addr i j → s.last.addr = t.addr ∧ o.time ≤ s.last.time
  seen : ∀ (i j : Nat) (t u : Task A), s.tasks[i]? = some t → s.tasks[j]? = some u → i ≠ j →
    t.addr = u.addr → s.Between t.addr i j → t.last.isSome = true → u.last.isSome = true →
    t.Seen u ∨ u.Seen t
  late : ∀ (i : Nat) (t : Task A) (l : Last A), s.tasks[i]? = some t → t.proceeds = true →
    t.last = some l → l.addr = t.addr → l.time + Task.window ≤ s.now
  once : ∀ (i j : Nat) (t u : Task A), s.tasks[i]? = some t → s.tasks[j]? = some u → i ≠ j →
    t.addr = u.addr → t.Near u → u.proceeds = true → ¬ t.Seen u

variable {s}

theorem getElem?_goTo {i j : Nat} {t u : Task A} {phase : Phase A}
    (at_j : (s.goTo i t phase).tasks[j]? = some u) :
    j = i ∧ u = { t with phase } ∨ j ≠ i ∧ s.tasks[j]? = some u := by
  rw [goTo, List.getElem?_set] at at_j
  split at at_j
  · rename_i eq
    split at at_j
    · exact .inl ⟨eq.symm, (Option.some.inj at_j).symm⟩
    · cases at_j
  · rename_i ne
    exact .inr ⟨Ne.symm ne, at_j⟩

/-- Another phase does not change the addresses. -/
theorem between_of_goTo {i j k : Nat} {t : Task A} {phase : Phase A} {addr : A}
    (at_i : s.tasks[i]? = some t) (between : (s.goTo i t phase).Between addr j k) :
    s.Between addr j k := by
  intro m v inside at_m
  by_cases eq : m = i
  · subst eq
    obtain rfl := Option.some.inj (at_i.symm.trans at_m)
    exact between m { t with phase } inside
      (List.getElem?_set_self (List.getElem?_eq_some_iff.mp at_i).1)
  · exact between m v inside ((List.getElem?_set_ne (Ne.symm eq)).trans at_m)

theorem Inv.answeredOnce (inv : Inv s) : AnsweredOnce s := by
  rintro i j t u at_i at_j ne same near between ⟨proceeds, proceeds'⟩
  have read {v : Task A} (h : v.proceeds = true) : v.last.isSome = true := by
    cases v with | mk addr arrived phase => cases phase <;> first | rfl | cases h
  have seen := inv.seen i j t u at_i at_j ne same between (read proceeds) (read proceeds')
  rcases seen with seen | seen
  · exact inv.once i j t u at_i at_j ne same near proceeds' seen
  · exact inv.once j i u t at_j at_i (Ne.symm ne) same.symm ⟨near.2, near.1⟩ proceeds seen

theorem last_of_own {t : Task A} {o : Last A} (own : t.own = some o) : t.last.isSome = true := by
  cases t with | mk addr arrived phase => cases phase <;> first | rfl | cases own

theorem getElem?_arrive {j : Nat} {t u : Task A} (at_j : (s.tasks ++ [t])[j]? = some u) :
    s.tasks[j]? = some u ∨ j = s.tasks.length ∧ u = t := by
  rcases Nat.lt_or_ge j s.tasks.length with old | new
  · rw [List.getElem?_append_left old] at at_j
    exact .inl at_j
  · rw [List.getElem?_append_right new] at at_j
    obtain ⟨inside, rfl⟩ := List.getElem?_eq_some_iff.mp at_j
    simp only [List.length_singleton] at inside
    exact .inr ⟨by omega, by simp⟩

theorem Inv.tick (inv : Inv s) (d : Nat) : Inv { s with now := s.now + d } :=
  { inv with
    past := fun i t o at_i own => Nat.le_trans (inv.past i t o at_i own) (Nat.le_add_right _ _)
    late := fun i t l at_i proceeds last same =>
      Nat.le_trans (inv.late i t l at_i proceeds last same) (Nat.le_add_right _ _) }

theorem Inv.arrive (inv : Inv s) (addr : A) :
    Inv { s with tasks := s.tasks ++ [{ addr, arrived := s.now }] } := by
  have between {i j : Nat} {a : A}
      (h : Table.Between { s with tasks := s.tasks ++ [{ addr, arrived := s.now }] } a i j) :
      s.Between a i j := fun k v inside at_k =>
    h k v inside (by rw [List.getElem?_append_left (List.getElem?_eq_some_iff.mp at_k).1, at_k])
  refine
    { past := fun i t o at_i own => ?_
      before := fun i k t u at_i at_k lt ne read => ?_
      current := fun i j t o at_i own le next between' => ?_
      seen := fun i j t u at_i at_j ne same between' read read' => ?_
      late := fun i t l at_i proceeds last same => ?_
      once := fun i j t u at_i at_j ne same near proceeds seen => ?_ }
  · rcases getElem?_arrive at_i with old | ⟨-, rfl⟩
    · exact inv.past i t o old own
    · cases own
  · rcases getElem?_arrive at_i with old | ⟨-, rfl⟩
    · rcases getElem?_arrive at_k with old' | ⟨rfl, -⟩
      · exact inv.before i k t u old old' lt ne read
      · have := (List.getElem?_eq_some_iff.mp old).1
        omega
    · cases read
  · rcases getElem?_arrive at_i with old | ⟨-, rfl⟩
    · have inside := (List.getElem?_eq_some_iff.mp old).1
      rcases Nat.lt_or_ge s.tasks.length j with beyond | within
      · refine inv.current i s.tasks.length t o old own (Nat.le_refl _)
          (fun u at_u => by simp at at_u) fun k v inside' at_k => ?_
        exact between between' k v (by omega) at_k
      · refine inv.current i j t o old own within (fun u at_u => next u ?_) (between between')
        rw [List.getElem?_append_left (List.getElem?_eq_some_iff.mp at_u).1, at_u]
    · cases own
  · rcases getElem?_arrive at_i with old | ⟨-, rfl⟩
    · rcases getElem?_arrive at_j with old' | ⟨-, rfl⟩
      · exact inv.seen i j t u old old' ne same (between between') read read'
      · cases read'
    · cases read
  · rcases getElem?_arrive at_i with old | ⟨-, rfl⟩
    · exact inv.late i t l old proceeds last same
    · cases proceeds
  · rcases getElem?_arrive at_j with old' | ⟨-, rfl⟩
    · rcases getElem?_arrive at_i with old | ⟨-, rfl⟩
      · exact inv.once i j t u old old' ne same near proceeds seen
      · obtain ⟨o, l, own, -⟩ := seen
        cases own
    · cases proceeds

/-- A task reads what the tasks of its address before it have written. -/
theorem Inv.read (inv : Inv s) {i : Nat} {addr : A} {arrived : Nat}
    (at_i : s.tasks[i]? = some ⟨addr, arrived, .spawned⟩)
    (free : ∀ u ∈ s.tasks, u.reading = false)
    (written : ∀ u ∈ s.tasks.take i, u.addr ≠ addr → u.own.isSome = true) :
    Inv (s.goTo i ⟨addr, arrived, .spawned⟩ (.read s.last)) := by
  have sees {j : Nat} {u : Task A} (at_j : s.tasks[j]? = some u) (same : u.addr = addr)
      (between : s.Between addr j i) (read : u.last.isSome = true) :
      u.Seen ⟨addr, arrived, .read s.last⟩ := by
    obtain ⟨o, own⟩ : ∃ o, u.own = some o := by
      have idle := free u (List.mem_of_getElem? at_j)
      cases u with
      | mk a b phase =>
        cases phase with
        | spawned => cases read
        | read l => cases idle
        | written l o => exact ⟨o, rfl⟩
        | checked l o p => exact ⟨o, rfl⟩
    obtain ⟨current, time⟩ := inv.current j i u o at_j own
      (Nat.le_of_lt (List.getElem?_eq_some_iff.mp at_i).1)
      (fun v at_v => by
        obtain rfl := Option.some.inj (at_i.symm.trans at_v)
        exact ⟨same.symm, rfl⟩) (same ▸ between)
    exact ⟨o, s.last, own, rfl, current.trans same, time⟩
  refine
    { past := fun j t o at_j own => ?_
      before := fun j k t u at_j at_k lt ne read => ?_
      current := fun j k t o at_j own le next between => ?_
      seen := fun j k t u at_j at_k ne same between read read' => ?_
      late := fun j t l at_j proceeds last same => ?_
      once := fun j k t u at_j at_k ne same near proceeds seen => ?_ }
  · rcases getElem?_goTo at_j with ⟨-, rfl⟩ | ⟨-, old⟩
    · cases own
    · exact inv.past j t o old own
  · rcases getElem?_goTo at_j with ⟨rfl, rfl⟩ | ⟨ne', old⟩
    · rcases getElem?_goTo at_k with ⟨rfl, -⟩ | ⟨-, old'⟩
      · exact absurd lt (Nat.lt_irrefl _)
      · refine written u (List.mem_of_getElem? (i := k) ?_) ne
        rw [List.getElem?_take_of_lt lt, old']
    · rcases getElem?_goTo at_k with ⟨rfl, rfl⟩ | ⟨-, old'⟩
      · have := inv.before j k t _ old at_i lt ne read
        cases this
      · exact inv.before j k t u old old' lt ne read
  · rcases getElem?_goTo at_j with ⟨-, rfl⟩ | ⟨-, old⟩
    · cases own
    · refine inv.current j k t o old own (by simpa [goTo] using le) (fun u at_u => ?_)
        (between_of_goTo at_i between)
      by_cases eq : k = i
      · subst eq
        have := (next _ (List.getElem?_set_self (List.getElem?_eq_some_iff.mp at_i).1)).2
        cases this
      · exact next u ((List.getElem?_set_ne (Ne.symm eq)).trans at_u)
  · have mid := between_of_goTo at_i between
    rcases getElem?_goTo at_j with ⟨rfl, rfl⟩ | ⟨-, old⟩
    · rcases getElem?_goTo at_k with ⟨rfl, -⟩ | ⟨-, old'⟩
      · exact absurd rfl ne
      · exact .inr (sees old' same.symm (fun m v inside => mid m v inside.symm) read')
    · rcases getElem?_goTo at_k with ⟨rfl, rfl⟩ | ⟨-, old'⟩
      · exact .inl (sees old same (fun m v inside at_m => (mid m v inside at_m).trans same) read)
      · exact inv.seen j k t u old old' ne same mid read read'
  · rcases getElem?_goTo at_j with ⟨-, rfl⟩ | ⟨-, old⟩
    · cases proceeds
    · exact inv.late j t l old proceeds last same
  · rcases getElem?_goTo at_k with ⟨-, rfl⟩ | ⟨-, old'⟩
    · cases proceeds
    · rcases getElem?_goTo at_j with ⟨-, rfl⟩ | ⟨-, old⟩
      · obtain ⟨o, l, own, -⟩ := seen
        cases own
      · exact inv.once j k t u old old' ne same near proceeds seen

/-- No task of another address writes between two tasks of one. -/
theorem Inv.write (inv : Inv s) {i : Nat} {addr : A} {arrived : Nat} {last : Last A}
    (at_i : s.tasks[i]? = some ⟨addr, arrived, .read last⟩) :
    Inv (s.write i ⟨addr, arrived, .read last⟩ last) := by
  have inside := (List.getElem?_eq_some_iff.mp at_i).1
  refine
    { past := fun j t o at_j own => ?_
      before := fun j k t u at_j at_k lt ne read => ?_
      current := fun j k t o at_j own le next between => ?_
      seen := fun j k t u at_j at_k ne same between read read' => ?_
      late := fun j t l at_j proceeds last same => ?_
      once := fun j k t u at_j at_k ne same near proceeds seen => ?_ }
  · rcases getElem?_goTo at_j with ⟨-, rfl⟩ | ⟨-, old⟩
    · rw [← Option.some.inj own]
      exact Nat.le_refl _
    · exact inv.past j t o old own
  · rcases getElem?_goTo at_k with ⟨-, rfl⟩ | ⟨-, old'⟩
    · rfl
    · rcases getElem?_goTo at_j with ⟨rfl, rfl⟩ | ⟨-, old⟩
      · exact inv.before j k _ u at_i old' lt ne rfl
      · exact inv.before j k t u old old' lt ne read
  · have mid := between_of_goTo at_i between
    rcases getElem?_goTo at_j with ⟨-, rfl⟩ | ⟨ne, old⟩
    · rw [← Option.some.inj own]
      exact ⟨rfl, Nat.le_refl _⟩
    · refine ⟨Classical.byContradiction fun other => ?_, inv.past j t o old own⟩
      have le : k ≤ s.tasks.length := Nat.le_trans le (Nat.le_of_eq (List.length_set ..))
      have apart : k ≠ i := by
        rintro rfl
        exact other (next _ (List.getElem?_set_self inside)).1
      have outside : ¬ (j < i ∧ i < k ∨ k < i ∧ i < j) := fun inner => other (mid i _ inner at_i)
      rcases Nat.lt_or_ge i j with lt | ge
      · have := inv.before j i t _ old at_i lt other (last_of_own own)
        cases this
      · have below : k < i := by omega
        obtain ⟨u, at_k⟩ : ∃ u, s.tasks[k]? = some u :=
          ⟨_, List.getElem?_eq_getElem (by omega)⟩
        obtain ⟨same, unread⟩ := next u ((List.getElem?_set_ne (Ne.symm apart)).trans at_k)
        have written :=
          inv.before i k _ u at_i at_k below (fun eq => other (eq.symm.trans same)) rfl
        obtain ⟨o', own'⟩ := Option.isSome_iff_exists.mp written
        have := last_of_own own'
        rw [unread] at this
        cases this
  · have mid := between_of_goTo at_i between
    rcases getElem?_goTo at_j with ⟨rfl, rfl⟩ | ⟨-, old⟩
    · rcases getElem?_goTo at_k with ⟨rfl, -⟩ | ⟨-, old'⟩
      · exact absurd rfl ne
      · rcases inv.seen j k _ u at_i old' ne same mid rfl read' with ⟨o, l, own, -⟩ | seen
        · cases own
        · exact .inr seen
    · rcases getElem?_goTo at_k with ⟨rfl, rfl⟩ | ⟨-, old'⟩
      · rcases inv.seen j k t _ old at_i ne same mid read rfl with seen | ⟨o, l, own, -⟩
        · exact .inl seen
        · cases own
      · exact inv.seen j k t u old old' ne same mid read read'
  · rcases getElem?_goTo at_j with ⟨-, rfl⟩ | ⟨-, old⟩
    · cases proceeds
    · exact inv.late j t l old proceeds last same
  · rcases getElem?_goTo at_k with ⟨-, rfl⟩ | ⟨-, old'⟩
    · cases proceeds
    · rcases getElem?_goTo at_j with ⟨-, rfl⟩ | ⟨-, old⟩
      · obtain ⟨o, l, own, last, addr', time⟩ := seen
        have late := inv.late k u l old' proceeds last addr'
        rw [← Option.some.inj own] at time
        simp only [Task.window] at late
        simp only at time
        omega
      · exact inv.once j k t u old old' ne same near proceeds seen

/-- A task that goes on has read no write of its address from the last 100 ms. -/
theorem Inv.check (inv : Inv s) {i : Nat} {t : Task A} {last own : Last A}
    (at_i : s.tasks[i]? = some t) (phase : t.phase = .written last own) {proceeds : Bool}
    (stale : proceeds = true → last.addr = t.addr → last.time + Task.window ≤ s.now)
    (prompt : ∀ (j : Nat) (u : Task A), s.tasks[j]? = some u → j ≠ i → u.addr = t.addr →
      t.Near u → ∀ o ∈ u.own, o.time ≤ last.time → s.now < o.time + Task.window) :
    Inv (s.goTo i t (.checked last own proceeds)) := by
  have read : t.last = some last := by simp [Task.last, phase]
  have wrote : t.own = some own := by simp [Task.own, phase]
  have old {j : Nat} {u : Task A}
      (at_j : (s.goTo i t (.checked last own proceeds)).tasks[j]? = some u) :
      ∃ v, s.tasks[j]? = some v ∧ u.addr = v.addr ∧ u.arrived = v.arrived ∧ u.last = v.last ∧
        u.own = v.own := by
    rcases getElem?_goTo at_j with ⟨rfl, rfl⟩ | ⟨-, old⟩
    · exact ⟨t, at_i, rfl, rfl, read.symm, wrote.symm⟩
    · exact ⟨u, old, rfl, rfl, rfl, rfl⟩
  have seen_congr {u v u' v' : Task A} (own' : u.own = u'.own) (last' : v.last = v'.last)
      (addr : v.addr = v'.addr) : u.Seen v ↔ u'.Seen v' := by
    simp only [Task.Seen, own', last', addr]
  refine
    { past := fun j u o at_j own' => ?_
      before := fun j k u v at_j at_k lt ne read' => ?_
      current := fun j k u o at_j own' le next between => ?_
      seen := fun j k u v at_j at_k ne same between read' read'' => ?_
      late := fun j u l at_j proceeds' last' same => ?_
      once := fun j k u v at_j at_k ne same near proceeds' seen => ?_ }
  · obtain ⟨u', was, -, -, -, own''⟩ := old at_j
    exact inv.past j u' o was (own''.symm.trans own')
  · obtain ⟨u', was, addr, -, last', -⟩ := old at_j
    obtain ⟨v', was', addr', -, -, own'⟩ := old at_k
    rw [own']
    exact inv.before j k u' v' was was' lt (addr' ▸ addr ▸ ne) (last' ▸ read')
  · obtain ⟨u', was, addr, -, -, own''⟩ := old at_j
    rw [addr] at next between ⊢
    refine inv.current j k u' o was (own''.symm.trans own')
      (Nat.le_trans le (Nat.le_of_eq (List.length_set ..))) (fun v at_v => ?_)
      (between_of_goTo at_i between)
    by_cases eq : k = i
    · subst eq
      obtain rfl := Option.some.inj (at_i.symm.trans at_v)
      have := next _ (List.getElem?_set_self (List.getElem?_eq_some_iff.mp at_i).1)
      cases this.2
    · exact next v ((List.getElem?_set_ne (Ne.symm eq)).trans at_v)
  · obtain ⟨u', was, addr, -, last', own'⟩ := old at_j
    obtain ⟨v', was', addr', -, last'', own''⟩ := old at_k
    rw [seen_congr own' last'' addr', seen_congr own'' last' addr]
    have mid := between_of_goTo at_i between
    rw [addr] at mid
    exact inv.seen j k u' v' was was' ne (addr ▸ addr' ▸ same) mid (last' ▸ read') (last'' ▸ read'')
  · rcases getElem?_goTo at_j with ⟨-, rfl⟩ | ⟨-, was⟩
    · rw [← Option.some.inj last'] at same ⊢
      exact stale proceeds' same
    · exact inv.late j u l was proceeds' last' same
  · obtain ⟨u', was, addr, arrived, last', own'⟩ := old at_j
    rcases getElem?_goTo at_k with ⟨rfl, rfl⟩ | ⟨-, was'⟩
    · obtain ⟨o, l, wrote', read', same', time⟩ := seen
      obtain rfl := Option.some.inj read'
      have late := stale proceeds' same'
      have soon := prompt j u' was ne (addr ▸ same)
        ⟨arrived ▸ near.2, arrived ▸ near.1⟩ o (own'.symm.trans wrote') time
      omega
    · refine inv.once j k u' v was was' ne (addr ▸ same) ?_ proceeds'
        ((seen_congr own' rfl rfl).mp seen)
      exact ⟨arrived ▸ near.1, arrived ▸ near.2⟩

theorem inv_start (now : Nat) (last : Last A) : Inv ({ now, last } : Table A) where
  past i t o at_i := by cases at_i
  before i k t u at_i := by cases at_i
  current i j t o at_i := by cases at_i
  seen i j t u at_i := by cases at_i
  late i t l at_i := by cases at_i
  once i j t u at_i := by cases at_i

variable [DecidableEq A]

theorem le_now_of_not_duplicate {t : Task A} {last : Last A}
    (goes : (!s.isDuplicate t last) = true) (same : last.addr = t.addr) :
    last.time + Task.window ≤ s.now := by
  simp only [isDuplicate, same, decide_true, Bool.true_and, Bool.not_eq_true',
    decide_eq_false_iff_not] at goes
  simp only [Task.window]
  omega

/-- **A step in order keeps the invariant.** -/
theorem Inv.step (inv : Inv s) {e : Event A} (order : s.InOrder e) : Inv (s.step e) := by
  cases e with
  | arrive addr => exact inv.arrive addr
  | read i =>
    simp only [Table.step]
    split
    · rename_i at_i
      obtain ⟨free, written⟩ := order _ at_i
      exact inv.read at_i free written
    · exact inv
  | write i =>
    simp only [Table.step]
    split
    · rename_i at_i
      exact inv.write at_i
    · exact inv
  | check i =>
    simp only [Table.step]
    split
    · rename_i addr arrived last own at_i
      refine inv.check at_i rfl le_now_of_not_duplicate fun j u at_j ne same near o wrote time => ?_
      refine order _ at_i last rfl u (List.mem_eraseIdx_iff_getElem?.mpr ⟨j, ne, at_j⟩) same near o
        wrote time
    · exact inv

end Table

/-- `LAST_MSG`, which `PunchHole` and `FetchLocalAddr` share, and `LAST_RELAY_MSG`. -/
structure Mediator (A : Type) where
  msg : Table A
  relay : Table A

inductive MediatorEvent (A : Type) where
  | tick (d : Nat)
  /-- Of a `PunchHole` or a `FetchLocalAddr`. -/
  | msg (e : Event A)
  /-- Of a `RequestRelay`. -/
  | relay (e : Event A)
  deriving DecidableEq

namespace Mediator
variable [DecidableEq A] (m : Mediator A)

def step : MediatorEvent A → Mediator A
  | .tick d =>
    { msg := { m.msg with now := m.msg.now + d }, relay := { m.relay with now := m.relay.now + d } }
  | .msg e => { m with msg := m.msg.step e }
  | .relay e => { m with relay := m.relay.step e }

/-- Both statics are made with one address, each when it is first used. -/
def start (now : Nat) (addr : A) (made madeRelay : Nat) : Mediator A :=
  { msg := { now, last := ⟨addr, made⟩ }, relay := { now, last := ⟨addr, madeRelay⟩ } }

def InOrder : MediatorEvent A → Prop
  | .tick _ => True
  | .msg e => m.msg.InOrder e
  | .relay e => m.relay.InOrder e

instance : ∀ e, Decidable (m.InOrder e)
  | .tick _ => .isTrue trivial
  | .msg e => inferInstanceAs (Decidable (m.msg.InOrder e))
  | .relay e => inferInstanceAs (Decidable (m.relay.InOrder e))

abbrev after (start : Mediator A) (events : List (MediatorEvent A)) : Mediator A :=
  Runs.run step start events

/-- **Duplicates are answered once** in every run that is in order. -/
theorem answered_once (now : Nat) (addr : A) (made madeRelay : Nat)
    {events : List (MediatorEvent A)}
    (order : Runs.Along step InOrder (start now addr made madeRelay) events) :
    (after (start now addr made madeRelay) events).msg.AnsweredOnce ∧
      (after (start now addr made madeRelay) events).relay.AnsweredOnce := by
  have inv := Runs.invariant (I := fun m : Mediator A => m.msg.Inv ∧ m.relay.Inv)
    (fun m e inv ok => ?_) ⟨Table.inv_start now ⟨addr, made⟩, Table.inv_start now ⟨addr, madeRelay⟩⟩
    order
  · exact ⟨inv.1.answeredOnce, inv.2.answeredOnce⟩
  · cases e with
    | tick d => exact ⟨inv.1.tick d, inv.2.tick d⟩
    | msg e => exact ⟨inv.1.step ok, inv.2⟩
    | relay e => exact ⟨inv.1, inv.2.step ok⟩

/-- Two messages of the address 7, whose tasks both read before one of them writes. -/
def overlapping : List (MediatorEvent Nat) :=
  [.msg (.arrive 7), .msg (.arrive 7), .msg (.read 0), .msg (.read 1), .msg (.write 0),
    .msg (.write 1), .msg (.check 0), .msg (.check 1)]

theorem answered_twice :
    ¬ ∀ (now addr made madeRelay : Nat) (events : List (MediatorEvent Nat)),
      (after (start now addr made madeRelay) events).msg.AnsweredOnce ∧
        (after (start now addr made madeRelay) events).relay.AnsweredOnce := by
  intro all
  refine (all 0 0 0 0 overlapping).1 0 1 _ _ rfl rfl (by decide) rfl (by decide)
    (fun k v inside _ => ?_) ⟨rfl, rfl⟩
  omega

theorem repeated_answered_once :
    (after (start 0 0 0 0) [.msg (.arrive 7), .msg (.read 0), .msg (.write 0), .msg (.check 0),
      .tick 5000000, .msg (.arrive 7), .msg (.read 1), .msg (.write 1),
      .msg (.check 1)]).msg.AnsweredOnce :=
  (answered_once 0 0 0 0 (by decide)).1

end Mediator
end CamelliaRemote.Duplicates
