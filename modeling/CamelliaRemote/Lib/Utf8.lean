import CamelliaRemote.Lib.Codec

namespace Utf8
open Codec

/-- `bs` is the UTF-8 form of some text. -/
def Valid (bs : Bytes) : Prop := ∃ cs : List Char, bs = cs.flatMap String.utf8EncodeChar

theorem utf8_eq_flatMap (s : String) : utf8 s = s.toList.flatMap String.utf8EncodeChar := by
  have encoded : s.toList.utf8Encode = s.toByteArray := by
    rw [← String.toByteArray_ofList, String.ofList_toList]
  rw [utf8, String.toUTF8, ← encoded]
  simp [List.utf8Encode]

theorem valid_iff {bs : Bytes} : Valid bs ↔ (strFromUtf8 bs).isSome = true := by
  rw [Option.isSome_iff_exists]
  constructor
  · rintro ⟨cs, rfl⟩
    refine ⟨String.ofList cs, strFromUtf8_eq_some.mpr ?_⟩
    rw [utf8_eq_flatMap, String.toList_ofList]
  · rintro ⟨s, h⟩
    exact ⟨s.toList, (strFromUtf8_eq_some.mp h).trans (utf8_eq_flatMap s)⟩

theorem valid_nil : Valid [] := ⟨[], rfl⟩

theorem Valid.append {xs ys : Bytes} (hx : Valid xs) (hy : Valid ys) : Valid (xs ++ ys) := by
  obtain ⟨cs, rfl⟩ := hx
  obtain ⟨ds, rfl⟩ := hy
  exact ⟨cs ++ ds, by simp⟩

theorem valid_flatten {parts : List Bytes} (h : ∀ part ∈ parts, Valid part) :
    Valid parts.flatten := by
  induction parts with
  | nil => exact valid_nil
  | cons part parts ih =>
    exact (h part List.mem_cons_self).append (ih fun p mem => h p (List.mem_cons_of_mem _ mem))

def IsTail (b : UInt8) : Prop := 0x80 ≤ b.toNat ∧ b.toNat < 0xC0

/-- The number of bytes a lead byte announces. -/
def charLength (b : UInt8) : Nat :=
  if b.toNat < 0x80 then 1 else if b.toNat < 0xE0 then 2 else if b.toNat < 0xF0 then 3 else 4

/-- Fewer bytes than the first one announces, if there are any. -/
def Unfinished : Bytes → Prop
  | [] => True
  | lead :: tails =>
    ¬ IsTail lead ∧ lead.toNat < 0xF8 ∧ (∀ b ∈ tails, IsTail b) ∧
      tails.length + 1 < charLength lead

theorem charLength_le (b : UInt8) : charLength b ≤ 4 := by
  unfold charLength
  split_ifs <;> omega

theorem encode_shape (c : Char) : ∃ lead tails, String.utf8EncodeChar c = lead :: tails ∧
    ¬ IsTail lead ∧ lead.toNat < 0xF8 ∧ (∀ b ∈ tails, IsTail b) ∧
    tails.length + 1 = charLength lead := by
  unfold String.utf8EncodeChar
  generalize c.val.toNat = v
  simp only
  split_ifs
  all_goals
    refine ⟨_, _, rfl, ?_⟩
    simp only [List.mem_cons, List.not_mem_nil, forall_eq_or_imp, or_false, forall_eq, IsTail,
      charLength, List.length_cons, List.length_nil, UInt8.toNat_ofNat', false_implies,
      implies_true, true_and]
    split_ifs <;> omega

/-- A valid text does not begin in the middle of a character. -/
theorem Valid.head {b : UInt8} {bs : Bytes} (h : Valid (b :: bs)) : ¬ IsTail b := by
  obtain ⟨cs, eq⟩ := h
  cases cs with
  | nil => simp at eq
  | cons c cs =>
    obtain ⟨lead, tails, shape, notTail, -⟩ := encode_shape c
    rw [List.flatMap_cons, shape, List.cons_append, List.cons.injEq] at eq
    rw [eq.1]
    exact notTail

/-- It ends with a whole character. -/
theorem Valid.last {bs : Bytes} (h : Valid bs) : bs = [] ∨ ∃ front lead tails,
    bs = front ++ lead :: tails ∧ ¬ IsTail lead ∧ lead.toNat < 0xF8 ∧ (∀ b ∈ tails, IsTail b) ∧
      tails.length + 1 = charLength lead := by
  obtain ⟨cs, rfl⟩ := h
  rcases List.eq_nil_or_concat cs with rfl | ⟨front, c, rfl⟩
  · exact .inl rfl
  · obtain ⟨lead, tails, shape, spec⟩ := encode_shape c
    refine .inr ⟨front.flatMap String.utf8EncodeChar, lead, tails, ?_, spec⟩
    simp [shape]

theorem Valid.drop {bs : Bytes} (h : Valid bs) (n : Nat) : ∃ tails rest,
    bs.drop n = tails ++ rest ∧ tails.length ≤ 3 ∧ (∀ b ∈ tails, IsTail b) ∧ Valid rest := by
  obtain ⟨cs, rfl⟩ := h
  induction cs generalizing n with
  | nil => exact ⟨[], [], by simp, by simp, by simp, valid_nil⟩
  | cons c cs ih =>
    rw [List.flatMap_cons, List.drop_append]
    by_cases past : (String.utf8EncodeChar c).length ≤ n
    · rw [List.drop_eq_nil_of_le past, List.nil_append]
      exact ih (n - (String.utf8EncodeChar c).length)
    · have within : n - (String.utf8EncodeChar c).length = 0 := by omega
      rw [within, List.drop_zero]
      obtain ⟨lead, tails, shape, -, -, areTails, length⟩ := encode_shape c
      have short := charLength_le lead
      cases n with
      | zero => exact ⟨[], _, rfl, by simp, by simp, ⟨c :: cs, rfl⟩⟩
      | succ n =>
        rw [shape, List.drop_succ_cons]
        refine ⟨tails.drop n, _, rfl, ?_, fun b mem => areTails b (List.mem_of_mem_drop mem),
          ⟨cs, rfl⟩⟩
        rw [List.length_drop]
        omega

/-- The start of a valid text ends with at most one unfinished character. -/
theorem Valid.take {xs ys : Bytes} (h : Valid (xs ++ ys)) : ∃ text cut,
    xs = text ++ cut ∧ Valid text ∧ Unfinished cut ∧ Valid (cut ++ ys) := by
  obtain ⟨cs, eq⟩ := h
  induction cs generalizing xs with
  | nil =>
    obtain ⟨rfl, rfl⟩ := List.append_eq_nil_iff.mp eq
    exact ⟨[], [], rfl, valid_nil, trivial, valid_nil⟩
  | cons c cs ih =>
    rw [List.flatMap_cons] at eq
    rcases List.append_eq_append_iff.mp eq with ⟨missing, whole, rfl⟩ | ⟨more, rfl, rest⟩
    · obtain ⟨lead, tails, shape, notTail, small, areTails, length⟩ := encode_shape c
      cases xs with
      | nil => exact ⟨[], [], rfl, valid_nil, trivial, ⟨c :: cs, eq⟩⟩
      | cons b bs =>
        rw [shape, List.cons_append, List.cons.injEq] at whole
        obtain ⟨rfl, rfl⟩ := whole
        by_cases finished : missing = []
        · subst finished
          rw [List.append_nil] at shape
          refine ⟨lead :: bs, [], by simp, ⟨[c], by simp [shape]⟩, trivial, ⟨cs, rfl⟩⟩
        · refine ⟨[], lead :: bs, rfl, valid_nil, ⟨notTail, small, ?_, ?_⟩, ⟨c :: cs, eq⟩⟩
          · exact fun b mem => areTails b (List.mem_append_left _ mem)
          · have some : 0 < missing.length := List.length_pos_of_ne_nil finished
            rw [List.length_append] at length
            omega
    · obtain ⟨text, cut, rfl, valid, unfinished, later⟩ := ih rest.symm
      refine ⟨String.utf8EncodeChar c ++ text, cut, by simp, ?_, unfinished, later⟩
      exact Valid.append ⟨[c], by simp⟩ valid

/-- An unfinished character is no text. -/
theorem Unfinished.eq_nil {bs : Bytes} (unfinished : Unfinished bs) (valid : Valid bs) :
    bs = [] := by
  obtain ⟨cs, rfl⟩ := valid
  cases cs with
  | nil => rfl
  | cons c cs =>
    obtain ⟨lead, tails, shape, -, -, -, length⟩ := encode_shape c
    rw [List.flatMap_cons, shape, List.cons_append] at unfinished
    have few := unfinished.2.2.2
    rw [List.length_append] at few
    omega

end Utf8
