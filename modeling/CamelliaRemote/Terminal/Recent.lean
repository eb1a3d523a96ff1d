import CamelliaRemote.Lib.Utf8
import CamelliaRemote.Terminal.History

namespace CamelliaRemote.Terminal

namespace OutputBuffer

theorem isContinuation_iff (b : UInt8) : isContinuation b = true ↔ Utf8.IsTail b := by
  have all : ∀ n : Fin 256, isContinuation (UInt8.ofNat n) = true ↔
      0x80 ≤ n.val ∧ n.val < 0xC0 := by decide +kernel
  simpa [Utf8.IsTail] using all ⟨b.toNat, b.toNat_lt⟩

theorem length_alignForward (n : Nat) (bs : Bytes) :
    bs.length ≤ (alignForward n bs).length + n := by
  induction n generalizing bs with
  | zero => simp [alignForward]
  | succ n ih =>
    cases bs with
    | nil => simp [alignForward]
    | cons b bs =>
      unfold alignForward
      split
      · have := ih bs
        rw [List.length_cons]
        omega
      · omega

theorem alignForward_tails {tails rest : Bytes} {n : Nat} (few : tails.length ≤ n)
    (areTails : ∀ b ∈ tails, Utf8.IsTail b) (valid : Utf8.Valid rest) :
    alignForward n (tails ++ rest) = rest := by
  induction tails generalizing n with
  | nil =>
    cases rest with
    | nil => cases n <;> rfl
    | cons b bs =>
      have lead : isContinuation b = false := by
        rw [← Bool.not_eq_true, isContinuation_iff]
        exact valid.head
      cases n with
      | zero => rfl
      | succ n => simp [alignForward, lead]
  | cons b tails ih =>
    cases n with
    | zero => simp at few
    | succ n =>
      have tail : isContinuation b = true :=
        (isContinuation_iff b).mpr (areTails b List.mem_cons_self)
      rw [List.cons_append, alignForward, if_pos tail]
      exact ih (Nat.le_of_succ_le_succ few) fun c mem => areTails c (List.mem_cons_of_mem _ mem)

/-- The cut of a valid text is valid. -/
theorem valid_alignForward {line : Bytes} (valid : Utf8.Valid line) (n : Nat) :
    Utf8.Valid (alignForward 3 (line.drop n)) := by
  obtain ⟨tails, rest, eq, few, areTails, validRest⟩ := valid.drop n
  rw [eq, alignForward_tails few areTails validRest]
  exact validRest

/-- Newest first: the most lines that fit after `size` bytes, if the first is not cut. -/
theorem recentChunks_longest {maxBytes size : Nat} {lines : List Bytes}
    (nonempty : ∀ line ∈ lines, line ≠ [])
    (whole : size = 0 → ∀ line ∈ lines.head?, line.length ≤ maxBytes) (room : size ≤ maxBytes) :
    ∃ k, recentChunks maxBytes size lines = lines.take k ∧
      size + (lines.take k).flatten.length ≤ maxBytes ∧
      ∀ j, size + (lines.take j).flatten.length ≤ maxBytes → lines.take j <+: lines.take k := by
  induction lines generalizing size with
  | nil => exact ⟨0, by simp [recentChunks], by simpa using room, by simp⟩
  | cons line older ih =>
    by_cases exceeds : maxBytes < size + line.length
    · have notCut : ¬ (size = 0 ∧ maxBytes < line.length) := by
        rintro ⟨zero, long⟩
        exact Nat.not_lt.mpr (whole zero line rfl) long
      refine ⟨0, ?_, by simpa using room, ?_⟩
      · rw [recentChunks, if_pos exceeds, if_neg notCut, List.take_zero]
      · intro j fits
        cases j with
        | zero => simp
        | succ j =>
          simp only [List.take_succ_cons, List.flatten_cons, List.length_append] at fits
          omega
    · have some : line.length ≠ 0 := by
        simpa using nonempty line List.mem_cons_self
      obtain ⟨k, eq, fits, longest⟩ := @ih (size + line.length)
        (fun l mem => nonempty l (List.mem_cons_of_mem _ mem)) (by omega) (by omega)
      refine ⟨k + 1, ?_, ?_, ?_⟩
      · rw [recentChunks, if_neg exceeds, eq, List.take_succ_cons]
      · simp only [List.take_succ_cons, List.flatten_cons, List.length_append]
        omega
      · intro j fits'
        cases j with
        | zero => simp
        | succ j =>
          simp only [List.take_succ_cons, List.flatten_cons, List.length_append] at fits' ⊢
          exact List.cons_prefix_cons.mpr ⟨rfl, longest j (by omega)⟩

/-- A newest line that does not fit is cut. -/
theorem recentChunks_cut {maxBytes : Nat} {line : Bytes} (older : List Bytes)
    (long : maxBytes < line.length) :
    (recentChunks maxBytes 0 (line :: older)).reverse.flatten =
      alignForward 3 (line.drop (line.length - maxBytes)) := by
  have exceeds : maxBytes < 0 + line.length := by omega
  rw [recentChunks, if_pos exceeds, if_pos ⟨rfl, long⟩]
  simp only
  split
  · rename_i empty
    simp [List.isEmpty_iff.mp empty]
  · simp

/-- The newest lines of the buffer that fit. -/
theorem getRecent_whole {b : OutputBuffer} {maxBytes : Nat} (positive : 0 < maxBytes)
    (nonempty : ∀ line ∈ b.lines, line ≠ [])
    (whole : ∀ last, b.lines.getLast? = some last → last.length ≤ maxBytes) :
    ∃ k, b.getRecent maxBytes = (b.lines.drop k).flatten ∧
      (b.lines.drop k).flatten.length ≤ maxBytes ∧
      ∀ j, (b.lines.drop j).flatten.length ≤ maxBytes → b.lines.drop j <:+ b.lines.drop k := by
  have newest : ∀ i, (b.lines.reverse.take i).flatten.length =
      (b.lines.drop (b.lines.length - i)).flatten.length := by
    intro i
    rw [List.take_reverse, List.length_flatten, List.length_flatten, List.map_reverse,
      List.sum_reverse]
  obtain ⟨k, eq, fits, longest⟩ := @recentChunks_longest maxBytes 0 b.lines.reverse
    (fun line mem => nonempty line (List.mem_reverse.mp mem))
    (fun _ line mem => whole line (by simpa using mem)) (Nat.zero_le _)
  rw [Nat.zero_add, newest] at fits
  refine ⟨b.lines.length - k, ?_, fits, ?_⟩
  · rw [getRecent, if_neg (Nat.ne_of_gt positive), eq, List.take_reverse, List.reverse_reverse]
  · intro j fits'
    by_cases past : b.lines.length ≤ j
    · rw [List.drop_eq_nil_of_le past]
      exact List.nil_suffix
    · have back : b.lines.length - (b.lines.length - j) = j := by omega
      have within := longest (b.lines.length - j) (by rwa [Nat.zero_add, newest, back])
      rwa [List.take_reverse, List.take_reverse, back, List.reverse_prefix] at within

/-- The cut newest line. -/
theorem getRecent_cut {b : OutputBuffer} {maxBytes : Nat} (positive : 0 < maxBytes) {last : Bytes}
    (found : b.lines.getLast? = some last) (long : maxBytes < last.length) :
    b.getRecent maxBytes = alignForward 3 (last.drop (last.length - maxBytes)) := by
  obtain ⟨older, newest⟩ : ∃ older, b.lines.reverse = last :: older := by
    rw [List.getLast?_eq_head?_reverse] at found
    exact List.head?_eq_some_iff.mp found
  rw [getRecent, if_neg (Nat.ne_of_gt positive), newest, recentChunks_cut older long]

/-- **The end of the history.** What `get_recent` gives after any calls of `append` is a suffix
of the history of at most `max_bytes` bytes: the longest run of whole newest lines that fits, or
the end of a newest line that does not; and it is UTF-8 if the lines are. -/
theorem recent_history (chunks : List Bytes) {maxBytes : Nat} (positive : 0 < maxBytes) :
    let b := ({} : OutputBuffer).appendAll chunks
    let recent := b.getRecent maxBytes
    recent <:+ b.lines.flatten ∧ recent.length ≤ maxBytes ∧
      (∀ last, b.lines.getLast? = some last → last.length ≤ maxBytes →
        ∃ k, recent = (b.lines.drop k).flatten ∧
          ∀ j, (b.lines.drop j).flatten.length ≤ maxBytes →
            b.lines.drop j <:+ b.lines.drop k) ∧
      (∀ last, b.lines.getLast? = some last → maxBytes < last.length →
        recent <:+ last ∧ maxBytes - 3 ≤ recent.length) ∧
      ((∀ line ∈ b.lines, Utf8.Valid line) → Utf8.Valid recent) := by
  intro b recent
  have nonempty : ∀ line ∈ b.lines, line ≠ [] :=
    fun line mem => ((sound_appendAll chunks).lines.single line mem).1
  have whole (h : ∀ last, b.lines.getLast? = some last → last.length ≤ maxBytes) :=
    getRecent_whole positive nonempty h
  by_cases cut : ∃ last, b.lines.getLast? = some last ∧ maxBytes < last.length
  · obtain ⟨last, found, long⟩ := cut
    have eq : recent = alignForward 3 (last.drop (last.length - maxBytes)) :=
      getRecent_cut positive found long
    have length : (last.drop (last.length - maxBytes)).length = maxBytes := by
      rw [List.length_drop]
      omega
    have short := (alignForward_suffix 3 (last.drop (last.length - maxBytes))).length_le
    have skipped := length_alignForward 3 (last.drop (last.length - maxBytes))
    rw [length, ← eq] at short skipped
    refine ⟨getRecent_suffix b maxBytes, short, ?_, ?_, ?_⟩
    · intro last' found' fits
      obtain rfl := Option.some.inj (found.symm.trans found')
      exact absurd fits (Nat.not_le.mpr long)
    · intro last' found' _
      obtain rfl := Option.some.inj (found.symm.trans found')
      refine ⟨?_, by omega⟩
      rw [eq]
      exact (alignForward_suffix _ _).trans (List.drop_suffix _ _)
    · intro valid
      rw [eq]
      exact valid_alignForward (valid last (List.mem_of_getLast? found)) _
  · have fitting : ∀ last, b.lines.getLast? = some last → last.length ≤ maxBytes :=
      fun last found => Nat.not_lt.mp fun long => cut ⟨last, found, long⟩
    obtain ⟨k, eq, fits, longest⟩ := whole fitting
    refine ⟨getRecent_suffix b maxBytes, ?_, fun _ _ _ => ⟨k, eq, longest⟩, ?_, ?_⟩
    · rw [show recent = _ from eq]
      exact fits
    · intro last found long
      exact absurd (fitting last found) (Nat.not_le.mpr long)
    · intro valid
      rw [show recent = _ from eq]
      exact Utf8.valid_flatten fun line mem => valid line (List.mem_of_mem_drop mem)

/-- Two lines of three bytes: of four bytes the newest line is given whole, of two its end. -/
theorem recent_history_two_lines :
    let b := ({} : OutputBuffer).appendAll [[97, 98, 10], [99, 100, 10]]
    b.getRecent 4 = [99, 100, 10] ∧
      (∃ k, b.getRecent 4 = (b.lines.drop k).flatten ∧
        ∀ j, (b.lines.drop j).flatten.length ≤ 4 → b.lines.drop j <:+ b.lines.drop k) ∧
      b.getRecent 2 <:+ [99, 100, 10] ∧ (b.getRecent 2).length ≤ 2 := by
  intro b
  have four := recent_history [[97, 98, 10], [99, 100, 10]] (show 0 < 4 by decide)
  have two := recent_history [[97, 98, 10], [99, 100, 10]] (show 0 < 2 by decide)
  have newest : b.lines.getLast? = some [99, 100, 10] := by decide
  exact ⟨by decide, four.2.2.1 _ newest (by decide), (two.2.2.2.1 _ newest (by decide)).1, two.2.1⟩

end OutputBuffer

end CamelliaRemote.Terminal
