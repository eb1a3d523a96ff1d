import Mathlib.Data.List.Induction
import Mathlib.Tactic.Common

/-!
Runs of a step function. A system is a state type `σ`, an event type `ε` and a total `step`. An
event carries everything the outside decides (a message, a clock value, an answer of the
platform), so one list of events is one run, and a statement about every list of events is a
statement about every run and every interleaving.

* `collect out`: all that the events give out;
* `Along ok`: every event is admitted by `ok` in the state that handles it;
* `Happened p`: some event of the run satisfied `p`;
* `Since p q`: some event satisfied `p` and none after it satisfied `q`;
* `invariant`: what every admitted step keeps holds after every admitted run.
-/

namespace Runs

variable {σ ε : Type*} {step : σ → ε → σ}

/-- The state after `es`, oldest event first. -/
def run (step : σ → ε → σ) (s : σ) (es : List ε) : σ := es.foldl step s

@[simp] theorem run_nil (s : σ) : run step s [] = s := rfl

@[simp] theorem run_cons (s : σ) (e : ε) (es : List ε) :
    run step s (e :: es) = run step (step s e) es := rfl

@[simp] theorem run_append (s : σ) (es fs : List ε) :
    run step s (es ++ fs) = run step (run step s es) fs := by
  simp [run, List.foldl_append]

/-- What the events of a run give out, oldest first. -/
def collect {α : Type*} (step : σ → ε → σ) (out : σ → ε → List α) : σ → List ε → List α
  | _, [] => []
  | s, e :: es => out s e ++ collect step out (step s e) es

theorem collect_append {α : Type*} {out : σ → ε → List α} {s : σ} {es fs : List ε} :
    collect step out s (es ++ fs) =
      collect step out s es ++ collect step out (run step s es) fs := by
  induction es generalizing s with
  | nil => rfl
  | cons e es ih => simp [collect, ih]

/-- Every event is handled in a state where `ok` admits it. -/
def Along (step : σ → ε → σ) (ok : σ → ε → Prop) : σ → List ε → Prop
  | _, [] => True
  | s, e :: es => ok s e ∧ Along step ok (step s e) es

/-- Some event is handled in a state where `p` holds of the two. -/
def Happened (step : σ → ε → σ) (p : σ → ε → Prop) : σ → List ε → Prop
  | _, [] => False
  | s, e :: es => p s e ∨ Happened step p (step s e) es

/-- Some event satisfied `p`, and no later one satisfied `q`. -/
def Since (step : σ → ε → σ) (p q : σ → ε → Prop) : σ → List ε → Prop
  | _, [] => False
  | s, e :: es =>
    p s e ∧ ¬ Happened step q (step s e) es ∨ Since step p q (step s e) es

instance Along.decidable (ok : σ → ε → Prop) [∀ s e, Decidable (ok s e)] :
    ∀ s es, Decidable (Along step ok s es)
  | _, [] => .isTrue trivial
  | s, e :: es =>
    have := Along.decidable ok (step s e) es
    inferInstanceAs (Decidable (ok s e ∧ Along step ok (step s e) es))

instance Happened.decidable (p : σ → ε → Prop) [∀ s e, Decidable (p s e)] :
    ∀ s es, Decidable (Happened step p s es)
  | _, [] => .isFalse id
  | s, e :: es =>
    have := Happened.decidable p (step s e) es
    inferInstanceAs (Decidable (p s e ∨ Happened step p (step s e) es))

theorem along_append {ok : σ → ε → Prop} {s : σ} {es fs : List ε} :
    Along step ok s (es ++ fs) ↔ Along step ok s es ∧ Along step ok (run step s es) fs := by
  induction es generalizing s with
  | nil => simp [Along]
  | cons e es ih => simp [Along, ih, and_assoc]

theorem along_snoc {ok : σ → ε → Prop} {s : σ} {es : List ε} {e : ε} :
    Along step ok s (es ++ [e]) ↔ Along step ok s es ∧ ok (run step s es) e := by
  simp [along_append, Along]

theorem along_mono {ok ok' : σ → ε → Prop} (h : ∀ s e, ok s e → ok' s e) {s : σ} {es : List ε}
    (ha : Along step ok s es) : Along step ok' s es := by
  induction es generalizing s with
  | nil => trivial
  | cons e es ih => exact ⟨h s e ha.1, ih ha.2⟩

theorem along_and {ok ok' : σ → ε → Prop} {s : σ} {es : List ε} :
    Along step (fun s e => ok s e ∧ ok' s e) s es ↔
      Along step ok s es ∧ Along step ok' s es := by
  induction es generalizing s with
  | nil => simp [Along]
  | cons e es ih =>
    simp only [Along, ih]
    tauto

theorem along_of_forall_mem {P : ε → Prop} {es : List ε} (h : ∀ e ∈ es, P e) (s : σ) :
    Along step (fun _ e => P e) s es := by
  induction es generalizing s with
  | nil => trivial
  | cons e es ih =>
    exact ⟨h e List.mem_cons_self, ih (fun e' mem => h e' (List.mem_cons_of_mem e mem)) _⟩

theorem along_true (s : σ) (es : List ε) : Along step (fun _ _ => True) s es := by
  induction es generalizing s with
  | nil => trivial
  | cons e es ih => exact ⟨trivial, ih _⟩

theorem happened_append {p : σ → ε → Prop} {s : σ} {es fs : List ε} :
    Happened step p s (es ++ fs) ↔
      Happened step p s es ∨ Happened step p (run step s es) fs := by
  induction es generalizing s with
  | nil => simp [Happened]
  | cons e es ih => simp [Happened, ih, or_assoc]

theorem happened_snoc {p : σ → ε → Prop} {s : σ} {es : List ε} {e : ε} :
    Happened step p s (es ++ [e]) ↔ Happened step p s es ∨ p (run step s es) e := by
  simp [happened_append, Happened]

theorem since_snoc {p q : σ → ε → Prop} {s : σ} {es : List ε} {e : ε} :
    Since step p q s (es ++ [e]) ↔
      p (run step s es) e ∨ Since step p q s es ∧ ¬ q (run step s es) e := by
  induction es generalizing s with
  | nil => simp [Since, Happened]
  | cons f es ih =>
    simp only [List.cons_append, Since, happened_snoc, ih, run_cons]
    tauto

theorem happened_mono {p p' : σ → ε → Prop} (h : ∀ s e, p s e → p' s e) {s : σ} {es : List ε}
    (hp : Happened step p s es) : Happened step p' s es := by
  induction es generalizing s with
  | nil => exact hp
  | cons e es ih => exact hp.imp (h s e) ih

theorem happened_or {p q : σ → ε → Prop} {s : σ} {es : List ε} :
    Happened step (fun s e => p s e ∨ q s e) s es ↔
      Happened step p s es ∨ Happened step q s es := by
  induction es generalizing s with
  | nil => simp [Happened]
  | cons e es ih =>
    simp only [Happened, ih]
    tauto

theorem since_mono {p p' q q' : σ → ε → Prop} (hp : ∀ s e, p s e → p' s e)
    (hq : ∀ s e, q' s e → q s e) {s : σ} {es : List ε} (h : Since step p q s es) :
    Since step p' q' s es := by
  induction es generalizing s with
  | nil => exact h
  | cons e es ih => exact h.imp (And.imp (hp s e) (mt (happened_mono hq))) ih

theorem happened_of_since {p q : σ → ε → Prop} {s : σ} {es : List ε} (h : Since step p q s es) :
    Happened step p s es := by
  induction es generalizing s with
  | nil => exact h
  | cons e es ih => exact h.imp And.left ih

theorem since_append {p q : σ → ε → Prop} {s : σ} {es fs : List ε} :
    Since step p q s (es ++ fs) ↔
      Since step p q s es ∧ ¬ Happened step q (run step s es) fs ∨
        Since step p q (run step s es) fs := by
  induction es generalizing s with
  | nil => simp [Since]
  | cons e es ih =>
    simp only [List.cons_append, Since, happened_append, ih, run_cons]
    tauto

/-- What holds at every step of a run held at the event that is looked back to. -/
theorem since_along {good p q : σ → ε → Prop} {s : σ} {es : List ε} (along : Along step good s es)
    (h : Since step p q s es) : Since step (fun s e => good s e ∧ p s e) q s es := by
  induction es generalizing s with
  | nil => exact h
  | cons e es ih =>
    rcases h with ⟨here, none⟩ | later
    · exact .inl ⟨⟨along.1, here⟩, none⟩
    · exact .inr (ih along.2 later)

/-- What an event that happened gives out is among what the run gives out. -/
theorem mem_collect_of_happened {α : Type*} {out : σ → ε → List α} {p : σ → ε → Prop} {a : α}
    (gives : ∀ s e, p s e → a ∈ out s e) {s : σ} {es : List ε} (h : Happened step p s es) :
    a ∈ collect step out s es := by
  induction es generalizing s with
  | nil => exact h.elim
  | cons e es ih =>
    rw [collect, List.mem_append]
    exact h.imp (gives s e) ih

/-- Two last events of which neither comes after the other are one event. -/
theorem since_and {p q p' q' : σ → ε → Prop} (first : ∀ s e, p s e → q' s e)
    (second : ∀ s e, p' s e → q s e) {s : σ} {es : List ε} (h : Since step p q s es)
    (h' : Since step p' q' s es) :
    Since step (fun s e => p s e ∧ p' s e) (fun s e => q s e ∨ q' s e) s es := by
  induction es generalizing s with
  | nil => exact h
  | cons e es ih =>
    rcases h with ⟨here, none⟩ | later
    · rcases h' with ⟨here', none'⟩ | later'
      · refine .inl ⟨⟨here, here'⟩, fun either => ?_⟩
        exact (happened_or.mp either).elim none none'
      · exact absurd (happened_mono second (happened_of_since later')) none
    · rcases h' with ⟨-, none'⟩ | later'
      · exact absurd (happened_mono first (happened_of_since later)) none'
      · exact .inr (ih later later')

/-- Where the event `e'` stands in a run that ends with `e`. -/
theorem snoc_eq_split {es before after : List ε} {e e' : ε} :
    es ++ [e] = before ++ e' :: after ↔
      after = [] ∧ es = before ∧ e = e' ∨
        ∃ rest, after = rest ++ [e] ∧ es = before ++ e' :: rest := by
  constructor
  · intro eq
    rcases List.eq_nil_or_concat after with rfl | ⟨rest, last, rfl⟩
    · obtain ⟨same, last⟩ := List.append_inj' eq rfl
      exact .inl ⟨rfl, same, List.singleton_inj.mp last⟩
    · rw [List.concat_eq_append, ← List.cons_append, ← List.append_assoc] at eq
      obtain ⟨same, last⟩ := List.append_inj' eq rfl
      rw [List.singleton_inj.mp last]
      exact .inr ⟨rest, List.concat_eq_append, same⟩
  · rintro (⟨rfl, rfl, rfl⟩ | ⟨rest, rfl, rfl⟩)
    · rfl
    · simp

/-- **The invariant rule.** A property of the start that every admitted step
keeps holds after every admitted run. -/
theorem invariant {ok : σ → ε → Prop} {I : σ → Prop}
    (keep : ∀ s e, I s → ok s e → I (step s e)) {s : σ} {es : List ε} (h0 : I s)
    (ha : Along step ok s es) : I (run step s es) := by
  induction es generalizing s with
  | nil => exact h0
  | cons e es ih => exact ih (keep s e h0 ha.1) ha.2

/-- What an invariant and admission give at every step holds at every step of an
admitted run. -/
theorem along_of_invariant {ok good : σ → ε → Prop} {I : σ → Prop}
    (keep : ∀ s e, I s → ok s e → I (step s e)) (gives : ∀ s e, I s → ok s e → good s e) {s : σ}
    {es : List ε} (h0 : I s) (ha : Along step ok s es) : Along step good s es := by
  induction es generalizing s with
  | nil => trivial
  | cons e es ih => exact ⟨gives s e h0 ha.1, ih (keep s e h0 ha.1) ha.2⟩

end Runs
