import Mathlib.Tactic.Common

/-!
Computations that keep an invariant. `Triple P c Q`: from every state with `P` the computation `c`
ends with a result and a state that satisfy `Q`. `Keeps I c R` is the case of an invariant `I`: it
is kept, and the result satisfies `R`. The invariant holds between any two steps of a computation
built with the rules of `Keeps`, not only at its end.
-/

namespace StateM

variable {σ α β : Type} {I : σ → Prop}

def Triple (P : σ → Prop) (c : StateM σ α) (Q : α → σ → Prop) : Prop :=
  ∀ s, P s → Q (c s).1 (c s).2

theorem Triple.pure {P : σ → Prop} {a : α} {Q : α → σ → Prop} (h : ∀ s, P s → Q a s) :
    Triple P (Pure.pure a) Q := h

theorem Triple.bind {P : σ → Prop} {c : StateM σ α} {f : α → StateM σ β} {Q : α → σ → Prop}
    {R : β → σ → Prop} (first : Triple P c Q) (next : ∀ a, Triple (Q a) (f a) R) :
    Triple P (c >>= f) R := by
  intro s pre
  exact next _ _ (first s pre)

/-- What follows a `get` starts in the state that was read. -/
theorem Triple.get_bind {P : σ → Prop} {f : σ → StateM σ β} {R : β → σ → Prop}
    (next : ∀ s, P s → Triple (· = s) (f s) R) : Triple P (MonadState.get >>= f) R :=
  fun s pre => next s pre s rfl

def Keeps (I : σ → Prop) (c : StateM σ α) (R : α → Prop) : Prop :=
  Triple I c fun a s => R a ∧ I s

theorem Triple.of_imp {P P' : σ → Prop} {c : StateM σ α} {Q : α → σ → Prop} (h : Triple P' c Q)
    (stronger : ∀ s, P s → P' s) : Triple P c Q :=
  fun s pre => h s (stronger s pre)

namespace Keeps

theorem pure {R : α → Prop} {a : α} (h : R a) : Keeps I (Pure.pure a) R := fun _ inv => ⟨h, inv⟩

theorem bind {c : StateM σ α} {f : α → StateM σ β} {R : α → Prop} {R' : β → Prop}
    (first : Keeps I c R) (next : ∀ a, R a → Keeps I (f a) R') : Keeps I (c >>= f) R' := by
  refine Triple.bind first fun a s post => ?_
  exact next a post.1 s post.2

theorem get : Keeps I (MonadState.get : StateM σ σ) I := fun _ inv => ⟨inv, inv⟩

theorem modify {f : σ → σ} (h : ∀ s, I s → I (f s)) :
    Keeps I (modifyGet fun s => ((), f s) : StateM σ Unit) fun _ => True :=
  fun s inv => ⟨trivial, h s inv⟩

theorem ite {p : Prop} [Decidable p] {c d : StateM σ α} {R : α → Prop} (pos : p → Keeps I c R)
    (neg : ¬ p → Keeps I d R) : Keeps I (if p then c else d) R := by
  split
  · exact pos ‹_›
  · exact neg ‹_›

theorem mono {c : StateM σ α} {R R' : α → Prop} (h : Keeps I c R) (weaker : ∀ a, R a → R' a) :
    Keeps I c R' := fun s inv => ⟨weaker _ (h s inv).1, (h s inv).2⟩

/-- After a step that keeps the invariant, another may end it. -/
theorem bind_triple {c : StateM σ α} {f : α → StateM σ β} {R : α → Prop} {Q : β → σ → Prop}
    (first : Keeps I c R) (next : ∀ a, R a → Triple I (f a) Q) : Triple I (c >>= f) Q := by
  refine Triple.bind first fun a s post => ?_
  exact next a post.1 s post.2

end Keeps

end StateM
