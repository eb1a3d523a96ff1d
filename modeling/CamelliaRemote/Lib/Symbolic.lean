import Mathlib.Tactic.Common

/-!
Symbolic cryptography. Messages as terms over names. A name stands for a key pair or for a
symmetric key: `pub n` is the public part, `sec n` the secret one. `Derives K` is what an attacker
who knows `K` can make with perfect primitives: signatures need the secret key, a box opens for
either of the two secret keys it was made with, a secretbox for its key.

`Safe` is the closed-set method. Fix which names are secret, what was signed with them and what
was boxed between two of them. A term is safe if it gives no secret away and holds nothing that
only the owner of a secret could have made but has not. Everything derived from safe terms is
safe.
-/

namespace Symbolic

inductive Term (ν : Type) where
  | text (s : String)
  | pub (n : ν)
  | sec (n : ν)
  | pair (a b : Term ν)
  | sign (m : Term ν) (n : ν)
  | box (m : Term ν) (a b : ν)
  | secretbox (m k : Term ν)
  deriving DecidableEq, Repr

variable {ν : Type}

/-- The signed message, for the right key. -/
def verify [DecidableEq ν] (signed : Term ν) (key : ν) : Option (Term ν) :=
  match signed with
  | .sign m n => if n = key then some m else none
  | _ => none

/-- A box opens for the two keys it was made with. -/
def openBox [DecidableEq ν] (sealed : Term ν) (theirs ours : ν) : Option (Term ν) :=
  match sealed with
  | .box m a b =>
    if a = theirs ∧ b = ours ∨ a = ours ∧ b = theirs then some m else none
  | _ => none

inductive Derives (K : Term ν → Prop) : Term ν → Prop where
  | known {t} : K t → Derives K t
  | text (s) : Derives K (.text s)
  | pub (n) : Derives K (.pub n)
  | pair {a b} : Derives K a → Derives K b → Derives K (.pair a b)
  | fst {a b} : Derives K (.pair a b) → Derives K a
  | snd {a b} : Derives K (.pair a b) → Derives K b
  | sign {m n} : Derives K m → Derives K (.sec n) → Derives K (.sign m n)
  | message {m n} : Derives K (.sign m n) → Derives K m
  | box {m a} (b) : Derives K m → Derives K (.sec a) → Derives K (.box m a b)
  | swap {m a b} : Derives K (.box m a b) → Derives K (.box m b a)
  | unbox {m a b} : Derives K (.box m a b) → Derives K (.sec a) → Derives K m
  | secretbox {m k} : Derives K m → Derives K k → Derives K (.secretbox m k)
  | unsecretbox {m k} : Derives K (.secretbox m k) → Derives K k → Derives K m

/-- No secret name is given away, every signature with a secret name was made, and so was every
box between two of them. -/
def Safe (secret : ν → Prop) (signed : ν → Term ν → Prop) (sealed : ν → ν → Term ν → Prop) :
    Term ν → Prop
  | .text _ => True
  | .pub _ => True
  | .sec n => ¬ secret n
  | .pair a b => Safe secret signed sealed a ∧ Safe secret signed sealed b
  | .sign m n => Safe secret signed sealed m ∧ (secret n → signed n m)
  | .box m a b =>
    (secret a → secret b → sealed a b m ∨ sealed b a m) ∧
      (¬ (secret a ∧ secret b) → Safe secret signed sealed m)
  | .secretbox m k => Safe secret signed sealed m ∨ ∃ n, k = .sec n ∧ secret n

variable {secret : ν → Prop} {signed signed' : ν → Term ν → Prop}
  {sealed : ν → ν → Term ν → Prop}

/-- **Closed under derivation.** -/
theorem Derives.safe {K : Term ν → Prop} (known : ∀ t, K t → Safe secret signed sealed t)
    {t : Term ν} (h : Derives K t) : Safe secret signed sealed t := by
  induction h with
  | known mem => exact known _ mem
  | text | pub => trivial
  | pair _ _ ha hb => exact ⟨ha, hb⟩
  | fst _ h => exact h.1
  | snd _ h => exact h.2
  | sign _ _ hm hn => exact ⟨hm, fun isSecret => absurd isSecret hn⟩
  | message _ h => exact h.1
  | box b _ _ hm ha => exact ⟨fun isSecret => absurd isSecret ha, fun _ => hm⟩
  | swap _ h => exact ⟨fun hb ha => (h.1 ha hb).symm, fun known => h.2 fun both => known both.symm⟩
  | unbox _ _ h ha => exact h.2 fun both => ha both.1
  | secretbox _ _ hm _ => exact .inl hm
  | unsecretbox _ _ h hk =>
    rcases h with hm | ⟨n, rfl, isSecret⟩
    · exact hm
    · exact absurd isSecret hk

theorem Safe.mono (more : ∀ n m, signed n m → signed' n m) {t : Term ν}
    (h : Safe secret signed sealed t) : Safe secret signed' sealed t := by
  induction t with
  | text | pub => trivial
  | sec n => exact h
  | pair a b iha ihb => exact ⟨iha h.1, ihb h.2⟩
  | sign m n ih => exact ⟨ih h.1, fun isSecret => more n m (h.2 isSecret)⟩
  | box m a b ih => exact ⟨h.1, fun known => ih (h.2 known)⟩
  | secretbox m k ihm _ => exact h.imp_left ihm

theorem verify_eq_some [DecidableEq ν] {t m : Term ν} {key : ν} :
    verify t key = some m ↔ t = .sign m key := by
  constructor
  · intro h
    unfold verify at h
    split at h
    · split at h
      · rename_i same
        rw [Option.some.inj h, same]
      · exact absurd h (by simp)
    · exact absurd h (by simp)
  · rintro rfl
    simp [verify]

theorem openBox_eq_some [DecidableEq ν] {t m : Term ν} {theirs ours : ν} :
    openBox t theirs ours = some m ↔ t = .box m theirs ours ∨ t = .box m ours theirs := by
  constructor
  · intro h
    unfold openBox at h
    split at h
    · split at h
      · rename_i keys
        obtain rfl := Option.some.inj h
        rcases keys with ⟨rfl, rfl⟩ | ⟨rfl, rfl⟩
        · exact .inl rfl
        · exact .inr rfl
      · exact absurd h (by simp)
    · exact absurd h (by simp)
  · rintro (rfl | rfl) <;> simp [openBox]

end Symbolic
