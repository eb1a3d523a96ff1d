import CamelliaRemote.Server.CaptureSlot
import Mathlib.Algebra.Ring.Nat

namespace CamelliaRemote.CursorCounter
open Runs CaptureSlot CaptureSlot.Counter

structure State where
  counter : Counter
  /-- The calls of `increase_counter` since the last `counter_ready`. -/
  increased : Nat := 0

inductive Event where
  | increaseCounter
  | counterReady
  deriving DecidableEq

def start (count : Int) : State := { counter := ⟨count, count⟩ }

def step (s : State) : Event → State
  | .increaseCounter => ⟨s.counter.increaseCounter, s.increased + 1⟩
  | .counterReady => ⟨s.counter.counterReady.2, 0⟩

/-- `counter_ready` says whether the counter was increased. -/
def Exact (s : State) : Event → Prop
  | .increaseCounter => True
  | .counterReady => s.counter.counterReady.1 = true ↔ 0 < s.increased

/-- The writer has not gone round, once or more, to end at the value it started from. -/
def NoLap (s : State) : Event → Prop
  | .increaseCounter => True
  | .counterReady => s.increased = 0 ∨ ¬ 2 ^ 31 ∣ s.increased

/-- The reading value stays where it was read, and the writing value counts on from it. -/
structure Inv (s : State) : Prop where
  nonneg : 0 ≤ s.counter.ir
  le_max : s.counter.ir ≤ i32Max
  written : s.counter.iw = (s.counter.ir + s.increased) % 2 ^ 31

theorem increaseCounter_iw {counter : Counter} (nonneg : 0 ≤ counter.iw)
    (le : counter.iw ≤ i32Max) :
    counter.increaseCounter.iw = (counter.iw + 1) % 2 ^ 31 := by
  simp only [increaseCounter]
  by_cases last : counter.iw = i32Max
  · rw [if_pos last, last]
    decide
  · rw [if_neg last]
    unfold i32Max at le last
    omega

theorem counterReady_fst (counter : Counter) :
    counter.counterReady.1 = true ↔ counter.ir ≠ counter.iw := by
  unfold counterReady
  split <;> simp_all

theorem counterReady_snd (counter : Counter) :
    counter.counterReady.2 = ⟨counter.iw, counter.iw⟩ := by
  unfold counterReady
  split
  · rfl
  · rename_i same
    cases counter
    simp_all

theorem inv_start {count : Int} (nonneg : 0 ≤ count) (le : count ≤ i32Max) :
    Inv (start count) where
  nonneg := nonneg
  le_max := le
  written := by
    unfold i32Max at le
    simp only [start]
    omega

theorem step_inv {s : State} (inv : Inv s) (e : Event) : Inv (step s e) := by
  obtain ⟨nonneg, le_max, written⟩ := inv
  have iw_nonneg : 0 ≤ s.counter.iw := by omega
  have iw_le : s.counter.iw ≤ i32Max := by
    unfold i32Max
    omega
  cases e with
  | increaseCounter =>
    refine ⟨?_, ?_, ?_⟩ <;> simp only [step, increaseCounter_ir]
    · exact nonneg
    · exact le_max
    · rw [increaseCounter_iw iw_nonneg iw_le]
      omega
  | counterReady =>
    refine ⟨?_, ?_, ?_⟩ <;> simp only [step, counterReady_snd]
    · exact iw_nonneg
    · exact iw_le
    · unfold i32Max at iw_le
      omega

theorem run_inv {s : State} (inv : Inv s) (es : List Event) : Inv (run step s es) :=
  invariant (I := Inv) (fun _ e inv _ => step_inv inv e) inv (along_true s es)

/-- The values meet again after whole rounds only. -/
theorem ready_iff {s : State} (inv : Inv s) :
    s.counter.counterReady.1 = true ↔ ¬ 2 ^ 31 ∣ s.increased := by
  obtain ⟨nonneg, le_max, written⟩ := inv
  unfold i32Max at le_max
  rw [counterReady_fst]
  omega

theorem exact_iff_noLap {s : State} (inv : Inv s) (e : Event) : Exact s e ↔ NoLap s e := by
  cases e with
  | increaseCounter => exact Iff.rfl
  | counterReady =>
    simp only [Exact, NoLap, ready_iff inv]
    constructor
    · intro exactly
      by_cases zero : s.increased = 0
      · exact .inl zero
      · exact .inr (exactly.mpr (Nat.pos_of_ne_zero zero))
    · rintro (zero | noLap)
      · simp [zero]
      · refine iff_of_true noLap (Nat.pos_of_ne_zero fun zero => noLap ?_)
        simp [zero]

/-- **When `counter_ready` misses no increase.** -/
theorem ready_exact_iff {count : Int} (nonneg : 0 ≤ count) (le : count ≤ i32Max)
    (es : List Event) :
    Along step Exact (start count) es ↔ Along step NoLap (start count) es := by
  have inv := inv_start nonneg le
  constructor
  · exact along_of_invariant (fun _ e inv _ => step_inv inv e)
      (fun _ e inv => (exact_iff_noLap inv e).mp) inv
  · exact along_of_invariant (fun _ e inv _ => step_inv inv e)
      (fun _ e inv => (exact_iff_noLap inv e).mpr) inv

theorem past_max_exact :
    Along step Exact (start i32Max)
      [.counterReady, .increaseCounter, .increaseCounter, .counterReady, .counterReady] :=
  (ready_exact_iff (by decide) (Int.le_refl _) _).mpr (by simp [Along, NoLap, step, start])

theorem increased_replicate (s : State) (n : Nat) :
    (run step s (List.replicate n .increaseCounter)).increased = s.increased + n := by
  induction n generalizing s with
  | zero => rfl
  | succ n ih =>
    rw [List.replicate_succ, run_cons, ih]
    simp only [step]
    omega

/-- The cursors of a whole round are missed. -/
theorem round_not_exact {count : Int} (nonneg : 0 ≤ count) (le : count ≤ i32Max) {n : Nat}
    (pos : 0 < n) :
    ¬ Along step Exact (start count)
      (List.replicate (n * 2 ^ 31) .increaseCounter ++ [Event.counterReady]) := by
  rw [along_snoc]
  rintro ⟨-, exactly⟩
  have inv := run_inv (inv_start nonneg le) (List.replicate (n * 2 ^ 31) .increaseCounter)
  have noLap := (exact_iff_noLap inv .counterReady).mp exactly
  simp only [NoLap, increased_replicate, start] at noLap
  omega

theorem one_round_not_exact :
    ¬ ∀ (count : Int), 0 ≤ count → count ≤ i32Max → ∀ es, Along step Exact (start count) es :=
  fun exactly => round_not_exact (Int.le_refl 0) (by decide) Nat.one_pos
    (exactly 0 (Int.le_refl 0) (by decide) _)

end CamelliaRemote.CursorCounter
