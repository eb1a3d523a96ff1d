import Mathlib.Data.List.Basic
import Mathlib.Data.List.Infix
import Mathlib.Tactic.Common
import Mathlib.Algebra.Ring.Int.Defs
import Mathlib.Algebra.Ring.Nat

namespace Lowercase

def byteLen (s : List Char) : Nat := (s.map Char.utf8Size).sum

structure Tables where
  /-- `char::to_lowercase`. -/
  toLower : Char → List Char
  cased : Char → Bool
  caseIgnorable : Char → Bool
  toLower_ascii : ∀ c, c.toNat < 128 → toLower c = [c.toLower]
  toLower_ne_nil : ∀ c, toLower c ≠ []
  /-- U+0130 has an `i` in its lowercase, U+212A is a `k`. -/
  ascii_of_mem : ∀ c d, 128 ≤ c.toNat → d ∈ toLower c → d.toNat < 128 → d = 'i' ∨ d = 'k'

def caseIgnorableThenCased (t : Tables) (s : List Char) : Bool :=
  (s.dropWhile t.caseIgnorable).head?.any t.cased

/-- What a character becomes; `before` is read backwards. -/
def lowerAt (t : Tables) (before : List Char) (c : Char) (after : List Char) : List Char :=
  if c = 'Σ' then
    if caseIgnorableThenCased t before && !caseIgnorableThenCased t after then ['ς'] else ['σ']
  else t.toLower c

def toLowercaseFrom (t : Tables) : List Char → List Char → List Char
  | _, [] => []
  | before, c :: after => lowerAt t before c after ++ toLowercaseFrom t (c :: before) after

def toLowercase (t : Tables) (s : List Char) : List Char := toLowercaseFrom t [] s

/-- `str::find`, in bytes. -/
def find (w : List Char) : List Char → Option Nat
  | [] => if w = [] then some 0 else none
  | c :: s => if w <+: c :: s then some 0 else (find w s).map (c.utf8Size + ·)

/-- `&s[..n]`; an offset inside a character or past the end panics. -/
def takeBytes : List Char → Nat → Option (List Char)
  | _, 0 => some []
  | [], _ + 1 => none
  | c :: s, n + 1 =>
    if c.utf8Size ≤ n + 1 then (takeBytes s (n + 1 - c.utf8Size)).map (c :: ·) else none

/-- `&s[n..]`. -/
def dropBytes : List Char → Nat → Option (List Char)
  | s, 0 => some s
  | [], _ + 1 => none
  | c :: s, n + 1 => if c.utf8Size ≤ n + 1 then dropBytes s (n + 1 - c.utf8Size) else none

variable {t : Tables} {s r p w x y : List Char} {c d : Char} {n : Nat}

@[simp] theorem byteLen_nil : byteLen [] = 0 := rfl

@[simp] theorem byteLen_cons (c : Char) (s : List Char) :
    byteLen (c :: s) = c.utf8Size + byteLen s := rfl

@[simp] theorem byteLen_append (s r : List Char) : byteLen (s ++ r) = byteLen s + byteLen r := by
  simp [byteLen]

@[simp] theorem dropBytes_zero (s : List Char) : dropBytes s 0 = some s := by
  cases s <;> rfl

@[simp] theorem takeBytes_zero (s : List Char) : takeBytes s 0 = some [] := by
  cases s <;> rfl

theorem dropBytes_cons (c : Char) (s : List Char) (pos : 0 < n) :
    dropBytes (c :: s) n = if c.utf8Size ≤ n then dropBytes s (n - c.utf8Size) else none := by
  cases n with
  | zero => exact absurd pos (Nat.lt_irrefl 0)
  | succ n => rfl

theorem takeBytes_append (s r : List Char) : takeBytes (s ++ r) (byteLen s) = some s := by
  induction s with
  | nil => simp
  | cons c s ih =>
    have pos := c.utf8Size_pos
    obtain ⟨n, isSucc⟩ : ∃ n, byteLen (c :: s) = n + 1 :=
      Nat.exists_eq_add_one.mpr (by rw [byteLen_cons]; omega)
    rw [isSucc, List.cons_append, takeBytes, ← isSucc, byteLen_cons, if_pos (by omega),
      Nat.add_sub_cancel_left, ih, Option.map_some]

/-- Behind a text of as many bytes or fewer. -/
theorem dropBytes_append (s r : List Char) (n : Nat) :
    dropBytes (s ++ r) (byteLen s + n) = dropBytes r n := by
  induction s with
  | nil => simp
  | cons c s ih =>
    have pos := c.utf8Size_pos
    rw [List.cons_append, dropBytes_cons _ _ (by rw [byteLen_cons]; omega), byteLen_cons,
      if_pos (by omega), Nat.add_assoc, Nat.add_sub_cancel_left, ih]

/-- A cut within the first of two texts. -/
theorem dropBytes_append_of_le (s r : List Char) (inside : n ≤ byteLen s) :
    dropBytes (s ++ r) n = (dropBytes s n).map (· ++ r) := by
  induction s generalizing n with
  | nil =>
    rw [byteLen_nil, Nat.le_zero] at inside
    simp [inside]
  | cons c s ih =>
    by_cases zero : n = 0
    · simp [zero]
    rw [List.cons_append, dropBytes_cons _ _ (by omega), dropBytes_cons _ _ (by omega)]
    split
    · rw [byteLen_cons] at inside
      exact ih (by omega)
    · rfl

/-- What is left of a cut is a suffix. -/
theorem dropBytes_spec (cut : dropBytes s n = some r) : ∃ p, s = p ++ r ∧ byteLen p = n := by
  induction s generalizing n with
  | nil =>
    cases n with
    | zero => exact ⟨[], Option.some.inj cut, rfl⟩
    | succ n => cases cut
  | cons c s ih =>
    by_cases zero : n = 0
    · rw [zero, dropBytes_zero] at cut
      exact ⟨[], Option.some.inj cut, zero.symm⟩
    rw [dropBytes_cons _ _ (by omega)] at cut
    split at cut
    · obtain ⟨p, rfl, len⟩ := ih cut
      refine ⟨c :: p, rfl, ?_⟩
      rw [byteLen_cons, len]
      omega
    · cases cut

theorem dropBytes_of_lt (short : byteLen s < n) : dropBytes s n = none := by
  cases cut : dropBytes s n with
  | none => rfl
  | some r =>
    obtain ⟨p, rfl, len⟩ := dropBytes_spec cut
    rw [byteLen_append] at short
    omega

theorem utf8Size_ascii (ascii : c.toNat < 128) : c.utf8Size = 1 := by
  rw [Char.utf8Size_eq_one_iff]
  show c.val.toNat ≤ _
  have : c.val.toNat < 128 := ascii
  exact Nat.lt_succ_iff.mp this

theorem byteLen_ascii (ascii : ∀ c ∈ s, c.toNat < 128) : byteLen s = s.length := by
  induction s with
  | nil => rfl
  | cons c s ih =>
    rw [byteLen_cons, utf8Size_ascii (ascii c List.mem_cons_self),
      ih fun c mem => ascii c (List.mem_cons_of_mem _ mem), List.length_cons, Nat.add_comm]

theorem dropBytes_ascii (ascii : ∀ c ∈ s, c.toNat < 128) (inside : n ≤ s.length) :
    dropBytes s n = some (s.drop n) := by
  have front : byteLen (s.take n) = n := by
    rw [byteLen_ascii fun c mem => ascii c (List.mem_of_mem_take mem), List.length_take]
    omega
  have cut := dropBytes_append (s.take n) (s.drop n) 0
  rwa [List.take_append_drop, front, dropBytes_zero] at cut

/-- An ASCII character that is in no lowercase but that of an ASCII character. -/
def Plain (c : Char) : Prop := c.toNat < 128 ∧ c ≠ 'i' ∧ c ≠ 'k'

instance (c : Char) : Decidable (Plain c) := inferInstanceAs (Decidable (_ ∧ _))

/-- Only the characters of the text are looked at. -/
instance decidableForallMem (p : Char → Prop) [DecidablePred p] (s : List Char) :
    Decidable (∀ c ∈ s, p c) :=
  List.decidableBAll p s

/-- The bytes of a character in lowercase. -/
def lowerLen (t : Tables) (c : Char) : Nat := if c = 'Σ' then 2 else byteLen (t.toLower c)

/-- What a character may become, wherever it stands. -/
inductive Piece (t : Tables) (c : Char) : List Char → Prop where
  | ascii (isAscii : c.toNat < 128) : Piece t c [c.toLower]
  | other (x : List Char) (noAscii : 128 ≤ c.toNat) (some' : x ≠ [])
      (unlike : ∀ d ∈ x, ¬ Plain d) (len : byteLen x = lowerLen t c) : Piece t c x

/-- A text and its lowercase, piece by piece. -/
inductive Lowers (t : Tables) : List Char → List Char → Prop where
  | nil : Lowers t [] []
  | cons {c : Char} {x s y : List Char} (piece : Piece t c x) (rest : Lowers t s y) :
      Lowers t (c :: s) (x ++ y)

theorem piece_lowerAt (t : Tables) (before : List Char) (c : Char) (after : List Char) :
    Piece t c (lowerAt t before c after) := by
  unfold lowerAt
  split
  · rename_i sigma
    have len : lowerLen t c = 2 := if_pos sigma
    subst sigma
    split
    · exact .other _ (by decide) (by decide) (by decide) len.symm
    · exact .other _ (by decide) (by decide) (by decide) len.symm
  · rename_i noSigma
    by_cases ascii : c.toNat < 128
    · rw [t.toLower_ascii c ascii]
      exact .ascii ascii
    · have high := Nat.not_lt.mp ascii
      refine .other _ high (t.toLower_ne_nil c) (fun d mem plain => ?_) (if_neg noSigma).symm
      rcases t.ascii_of_mem c d high mem plain.1 with rfl | rfl
      · exact plain.2.1 rfl
      · exact plain.2.2 rfl

theorem lowers_from (t : Tables) (before s : List Char) :
    Lowers t s (toLowercaseFrom t before s) := by
  induction s generalizing before with
  | nil => exact .nil
  | cons c s ih => exact .cons (piece_lowerAt t before c s) (ih _)

theorem lowers_toLowercase (t : Tables) (s : List Char) : Lowers t s (toLowercase t s) :=
  lowers_from t [] s

theorem toLower_of_high (high : 128 ≤ c.toNat) : c.toLower = c := by
  unfold Char.toLower
  rw [dif_neg]
  rintro ⟨-, low⟩
  have bound : c.toNat ≤ 90 := low
  omega

theorem ascii_of_toLower (low : c.toLower.toNat < 128) : c.toNat < 128 := by
  by_contra high
  rw [toLower_of_high (Nat.not_lt.mp high)] at low
  exact high low

theorem toLowercaseFrom_append (ascii : ∀ c ∈ s, c.toNat < 128) (before r : List Char) :
    toLowercaseFrom t before (s ++ r) =
      s.map Char.toLower ++ toLowercaseFrom t (s.reverse ++ before) r := by
  induction s generalizing before with
  | nil => rfl
  | cons c s ih =>
    have low := ascii c List.mem_cons_self
    have noSigma : c ≠ 'Σ' := by
      rintro rfl
      revert low
      decide
    rw [List.cons_append, toLowercaseFrom, lowerAt, if_neg noSigma, t.toLower_ascii c low,
      ih fun c mem => ascii c (List.mem_cons_of_mem _ mem)]
    simp

/-- ASCII at the start of a text. -/
theorem toLowercase_append (ascii : ∀ c ∈ s, c.toNat < 128) (r : List Char) :
    toLowercase t (s ++ r) = s.map Char.toLower ++ toLowercaseFrom t s.reverse r := by
  simpa [toLowercase] using toLowercaseFrom_append ascii [] r

theorem toLowercase_ascii (ascii : ∀ c ∈ s, c.toNat < 128) :
    toLowercase t s = s.map Char.toLower := by
  simpa [toLowercaseFrom] using toLowercase_append ascii []

theorem Plain.ne_toLower (plain : Plain d) (high : 128 ≤ c.toNat) : d ≠ c.toLower := by
  rintro rfl
  have low := plain.1
  rw [toLower_of_high high] at low
  omega

theorem snoc_suffix_snoc {e : Char} : w ++ [d] <:+ s ++ [e] ↔ d = e ∧ w <:+ s := by
  rw [← List.reverse_prefix]
  simp [List.cons_prefix_cons]

/-- The word at the start of the text, in any case. -/
def Starts (w s : List Char) : Prop := w <+: s.map Char.toLower

instance (w s : List Char) : Decidable (Starts w s) := inferInstanceAs (Decidable (_ <+: _))

/-- A word of plain characters starts the lowercase where it starts the text. -/
theorem Lowers.prefix_iff (h : Lowers t s y) (plain : ∀ d ∈ w, Plain d) :
    w <+: y ↔ Starts w s := by
  unfold Starts
  induction h generalizing w with
  | nil => rfl
  | @cons c x s y piece rest ih =>
    cases w with
    | nil => simp
    | cons d w =>
      have rest' := ih fun e mem => plain e (List.mem_cons_of_mem _ mem)
      have first := plain d List.mem_cons_self
      cases piece with
      | ascii isAscii => simp [List.cons_prefix_cons, rest']
      | other x high some' unlike len =>
        obtain ⟨e, x, rfl⟩ := List.exists_cons_of_ne_nil some'
        constructor
        · intro pre
          rw [List.cons_append, List.cons_prefix_cons] at pre
          exact absurd (pre.1 ▸ first) (unlike e List.mem_cons_self)
        · intro pre
          rw [List.map_cons, List.cons_prefix_cons] at pre
          exact absurd pre.1 (first.ne_toLower high)

theorem Lowers.snoc_inv (h : Lowers t (s ++ [c]) y) :
    ∃ z x, y = z ++ x ∧ Lowers t s z ∧ Piece t c x := by
  induction s generalizing y with
  | nil =>
    cases h with
    | @cons _ x _ y piece rest =>
      cases rest
      exact ⟨[], x, by simp, .nil, piece⟩
  | cons b s ih =>
    cases h with
    | @cons _ x _ y piece rest =>
      obtain ⟨z, x', rfl, front, last⟩ := ih rest
      exact ⟨x ++ z, x', by simp, .cons piece front, last⟩

/-- And it ends the lowercase where it ends the text. -/
theorem Lowers.suffix_iff (h : Lowers t s y) (plain : ∀ d ∈ w, Plain d) :
    w <:+ y ↔ w <:+ s.map Char.toLower := by
  induction s using List.reverseRecOn generalizing w y with
  | nil => cases h; rfl
  | append_singleton s c ih =>
    obtain ⟨z, x, rfl, front, piece⟩ := h.snoc_inv
    rcases List.eq_nil_or_concat w with rfl | ⟨w, d, rfl⟩
    · simp
    rw [List.concat_eq_append] at plain ⊢
    have rest' := ih (w := w) front fun e mem => plain e (by simp [mem])
    have last := plain d (by simp)
    rw [List.map_append, List.map_singleton]
    cases piece with
    | ascii isAscii => rw [snoc_suffix_snoc, snoc_suffix_snoc, rest']
    | other x high some' unlike len =>
      rw [snoc_suffix_snoc]
      constructor
      · intro suf
        obtain ⟨x, e, rfl⟩ := (List.eq_nil_or_concat x).resolve_left some'
        rw [List.concat_eq_append, ← List.append_assoc, snoc_suffix_snoc] at suf
        exact absurd (suf.1 ▸ last) (unlike e (by simp))
      · intro suf
        exact absurd suf.1 (last.ne_toLower high)

/-- The text at the first place where the word starts in any case. -/
def splitFirst (w : List Char) : List Char → Option (List Char × List Char)
  | [] => if w = [] then some ([], []) else none
  | c :: s =>
    if Starts w (c :: s) then some ([], c :: s)
    else (splitFirst w s).map fun cut => (c :: cut.1, cut.2)

theorem find_append (unlike : ∀ d ∈ x, ¬ Plain d) (some' : w ≠ []) (plain : ∀ d ∈ w, Plain d)
    (y : List Char) : find w (x ++ y) = (find w y).map (byteLen x + ·) := by
  induction x with
  | nil => simp
  | cons e x ih =>
    obtain ⟨d, w, rfl⟩ := List.exists_cons_of_ne_nil some'
    rw [List.cons_append, find, if_neg, ih fun d mem => unlike d (List.mem_cons_of_mem _ mem),
      Option.map_map]
    · congr 1
      funext n
      simp [Nat.add_assoc]
    · intro pre
      rw [List.cons_prefix_cons] at pre
      exact unlike e List.mem_cons_self (pre.1 ▸ plain d List.mem_cons_self)

theorem find_of_prefix (some' : w ≠ []) (pre : w <+: s) : find w s = some 0 := by
  cases s with
  | nil => exact absurd (List.prefix_nil.mp pre) some'
  | cons c s => exact if_pos pre

/-- A plain word is found behind the lowercase of what is before it. -/
theorem Lowers.find_eq (h : Lowers t s y) (some' : w ≠ []) (plain : ∀ d ∈ w, Plain d) :
    find w y = (splitFirst w s).map fun cut => (cut.1.map (lowerLen t)).sum := by
  induction h with
  | nil => simp [find, splitFirst, some']
  | @cons c x s y piece rest ih =>
    have first := (Lowers.cons piece rest).prefix_iff plain
    by_cases here : Starts w (c :: s)
    · rw [splitFirst, if_pos here, find_of_prefix some' (first.mpr here)]
      rfl
    rw [splitFirst, if_neg here, Option.map_map]
    cases piece with
    | ascii isAscii =>
      have noSigma : c ≠ 'Σ' := by
        rintro rfl
        revert isAscii
        decide
      have len : lowerLen t c = c.toLower.utf8Size := by
        simp [lowerLen, noSigma, t.toLower_ascii c isAscii, byteLen]
      rw [List.singleton_append] at first ⊢
      rw [find, if_neg (fun pre => here (first.mp pre)), ih, Option.map_map]
      congr 1
      funext cut
      simp [len]
    | other x high some'' unlike len =>
      rw [find_append unlike some' plain, ih, Option.map_map]
      congr 1
      funext cut
      simp [len]

theorem Lowers.byteLen_eq (h : Lowers t s y) : byteLen y = (s.map (lowerLen t)).sum := by
  induction h with
  | nil => rfl
  | @cons c x s y piece rest ih =>
    rw [byteLen_append, ih, List.map_cons, List.sum_cons]
    cases piece with
    | ascii isAscii =>
      have noSigma : c ≠ 'Σ' := by
        rintro rfl
        revert isAscii
        decide
      simp [lowerLen, noSigma, t.toLower_ascii c isAscii]
    | other x high some' unlike len => rw [len]

/-- **Where a plain word is found**: behind as many bytes as the lowercase of the text before
it has. -/
theorem find_toLowercase (some' : w ≠ []) (plain : ∀ d ∈ w, Plain d) (s : List Char) :
    find w (toLowercase t s) =
      (splitFirst w s).map fun cut => byteLen (toLowercase t cut.1) := by
  rw [(lowers_toLowercase t s).find_eq some' plain]
  congr 1
  funext cut
  exact (lowers_toLowercase t cut.1).byteLen_eq.symm

theorem splitFirst_append (here : Starts w r) (some' : w ≠ [])
    (first : ∀ z, z ≠ [] → z <:+ p → ¬ Starts w (z ++ r)) :
    splitFirst w (p ++ r) = some (p, r) := by
  induction p with
  | nil =>
    cases r with
    | nil => exact absurd (List.prefix_nil.mp here) some'
    | cons c r => exact if_pos here
  | cons c p ih =>
    have notHere : ¬ Starts w (c :: (p ++ r)) :=
      first (c :: p) (List.cons_ne_nil c p) List.suffix_rfl
    rw [List.cons_append, splitFirst, if_neg notHere,
      ih fun z nonempty suffix => first z nonempty (suffix.trans (List.suffix_cons c p))]
    rfl

/-- ASCII and the two letters that have ASCII in their lowercase. -/
def Tables.sample : Tables where
  toLower c := if c = '\u0130' then ['i', '\u0307'] else if c = '\u212a' then ['k'] else [c.toLower]
  cased c := c.isAlpha
  caseIgnorable c := c = '.'
  toLower_ascii c ascii := by
    rw [if_neg, if_neg]
    · rintro rfl
      revert ascii
      decide
    · rintro rfl
      revert ascii
      decide
  toLower_ne_nil c := by
    split
    · simp
    · split <;> simp
  ascii_of_mem c d high mem ascii := by
    split at mem
    · simp only [List.mem_cons, List.not_mem_nil, or_false] at mem
      rcases mem with rfl | rfl
      · exact .inl rfl
      · revert ascii
        decide
    · split at mem
      · exact .inr (List.mem_singleton.mp mem)
      · rw [List.mem_singleton.mp mem, toLower_of_high high] at ascii
        omega

end Lowercase
