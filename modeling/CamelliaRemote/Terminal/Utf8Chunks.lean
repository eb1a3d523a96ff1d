import CamelliaRemote.Lib.Runs
import CamelliaRemote.Lib.Utf8
import CamelliaRemote.Terminal.OutputBuffer

namespace CamelliaRemote.Terminal
open Codec (strFromUtf8)
open Runs

/-- The number of bytes that a lead byte begins. -/
def seqLen (b : UInt8) : Option Nat :=
  if b &&& 0xE0 == 0xC0 then some 2
  else if b &&& 0xF0 == 0xE0 then some 3
  else if b &&& 0xF8 == 0xF0 then some 4
  else none

/-- The loop back from the end of `len` bytes: `seen` bytes are passed, `earlier` are left. -/
def splitScan (len : Nat) : Nat → Bytes → Nat
  | _, [] => len
  | seen, b :: earlier =>
    if b &&& 0x80 == 0 then len
    else if b &&& 0xC0 == 0x80 then splitScan len (seen + 1) earlier
    else
      match seqLen b with
      | none => len
      | some n => if n ≤ seen + 1 then len else len - (seen + 1)

def findUtf8SplitPoint (buf : Bytes) : Nat :=
  if buf.isEmpty then 0 else splitScan buf.length 0 (buf.reverse.take 3)

structure Utf8ChunkAccumulator where
  remainder : Bytes := []
  deriving DecidableEq, Repr

namespace Utf8ChunkAccumulator

def pushChunk (acc : Utf8ChunkAccumulator) (data : Bytes) : Utf8ChunkAccumulator × Option Bytes :=
  if data.isEmpty then (acc, none)
  else
    let hadRemainder := !acc.remainder.isEmpty
    let data := acc.remainder ++ data
    let split := findUtf8SplitPoint data
    if split = data.length then ({}, some data)
    else if !hadRemainder && 0 < split && (strFromUtf8 (data.take split)).isNone then
      ({}, some data)
    else
      ({ remainder := data.drop split },
        if (data.take split).isEmpty then none else some (data.take split))

def finish (acc : Utf8ChunkAccumulator) : Utf8ChunkAccumulator × Option Bytes :=
  ({}, if acc.remainder.isEmpty then none else some acc.remainder)

def step (acc : Utf8ChunkAccumulator) (data : Bytes) : Utf8ChunkAccumulator :=
  (acc.pushChunk data).1

/-- What the chunks give out. -/
def emitted (acc : Utf8ChunkAccumulator) (chunks : List Bytes) : List Bytes :=
  collect step (fun acc data => (acc.pushChunk data).2.toList) acc chunks

end Utf8ChunkAccumulator

theorem masks (b : UInt8) :
    (b &&& 0x80 == 0) = decide (b.toNat < 0x80) ∧
      ((b &&& 0xC0 == 0x80) = true ↔ Utf8.IsTail b) ∧
      (0xC0 ≤ b.toNat → b.toNat < 0xF8 → seqLen b = some (Utf8.charLength b)) := by
  have all : ∀ n : Fin 256,
      (UInt8.ofNat n &&& 0x80 == 0) = decide (n.val < 0x80) ∧
        ((UInt8.ofNat n &&& 0xC0 == 0x80) = true ↔ 0x80 ≤ n.val ∧ n.val < 0xC0) ∧
        (0xC0 ≤ n.val → n.val < 0xF8 →
          seqLen (UInt8.ofNat n) = some (Utf8.charLength (UInt8.ofNat n))) := by
    decide +kernel
  simpa [Utf8.IsTail] using all ⟨b.toNat, b.toNat_lt⟩

theorem splitScan_bounds {len seen : Nat} {earlier : Bytes} (few : seen + earlier.length ≤ 3) :
    splitScan len seen earlier ≤ len ∧ len ≤ splitScan len seen earlier + 3 := by
  induction earlier generalizing seen with
  | nil => exact ⟨Nat.le_refl _, Nat.le_add_right _ _⟩
  | cons b earlier ih =>
    rw [List.length_cons] at few
    unfold splitScan
    split
    · omega
    · split
      · exact ih (by omega)
      · split
        · omega
        · split <;> omega

theorem findUtf8SplitPoint_bounds (buf : Bytes) :
    findUtf8SplitPoint buf ≤ buf.length ∧ buf.length ≤ findUtf8SplitPoint buf + 3 := by
  unfold findUtf8SplitPoint
  split
  · rename_i empty
    simp [List.isEmpty_iff.mp empty]
  · exact splitScan_bounds (by simp)

theorem splitScan_tails {len seen : Nat} {tails : Bytes} (areTails : ∀ b ∈ tails, Utf8.IsTail b)
    (earlier : Bytes) :
    splitScan len seen (tails ++ earlier) = splitScan len (seen + tails.length) earlier := by
  induction tails generalizing seen with
  | nil => rfl
  | cons b tails ih =>
    have tail := areTails b List.mem_cons_self
    obtain ⟨ascii, isTail, -⟩ := masks b
    have high : ¬ b.toNat < 0x80 := Nat.not_lt.mpr tail.1
    rw [List.cons_append, splitScan, ascii, if_neg (by simpa using high), if_pos (isTail.mpr tail),
      ih fun c mem => areTails c (List.mem_cons_of_mem _ mem), List.length_cons]
    congr 1
    omega

theorem splitScan_lead {len seen : Nat} {lead : UInt8} (notTail : ¬ Utf8.IsTail lead)
    (small : lead.toNat < 0xF8) (within : seen + 1 ≤ Utf8.charLength lead) (earlier : Bytes) :
    splitScan len seen (lead :: earlier) =
      if seen + 1 < Utf8.charLength lead then len - (seen + 1) else len := by
  obtain ⟨ascii, isTail, length⟩ := masks lead
  rw [splitScan, ascii]
  by_cases low : lead.toNat < 0x80
  · have one : Utf8.charLength lead = 1 := if_pos low
    rw [if_pos (by simpa using low), if_neg (by omega)]
  · have high : 0xC0 ≤ lead.toNat := by
      unfold Utf8.IsTail at notTail
      omega
    rw [if_neg (by simpa using low), if_neg (isTail.not.mpr notTail), length high small]
    by_cases unfinished : seen + 1 < Utf8.charLength lead
    · rw [if_pos unfinished]
      exact if_neg (Nat.not_le.mpr unfinished)
    · rw [if_neg unfinished]
      exact if_pos (Nat.not_lt.mp unfinished)

/-- The split stands before the last lead byte if its character is unfinished. -/
theorem findUtf8SplitPoint_lead {front tails : Bytes} {lead : UInt8} (notTail : ¬ Utf8.IsTail lead)
    (small : lead.toNat < 0xF8) (areTails : ∀ b ∈ tails, Utf8.IsTail b)
    (within : tails.length + 1 ≤ Utf8.charLength lead) :
    findUtf8SplitPoint (front ++ lead :: tails) =
      if tails.length + 1 < Utf8.charLength lead then front.length
      else (front ++ lead :: tails).length := by
  have short := Utf8.charLength_le lead
  have back : (front ++ lead :: tails).reverse = tails.reverse ++ lead :: front.reverse := by simp
  have length : (front ++ lead :: tails).length = front.length + (tails.length + 1) := by simp
  have reversed : ∀ b ∈ tails.reverse, Utf8.IsTail b :=
    fun b mem => areTails b (List.mem_reverse.mp mem)
  rw [findUtf8SplitPoint, if_neg (by simp), back, List.take_append, List.length_reverse]
  by_cases three : tails.length = 3
  · rw [List.take_of_length_le (by simp [three]), splitScan_tails reversed, three]
    rw [if_neg (by omega)]
    simp [splitScan]
  · have seen : 3 - tails.length = (2 - tails.length) + 1 := by omega
    rw [List.take_of_length_le (by rw [List.length_reverse]; omega), splitScan_tails reversed, seen,
      List.take_succ_cons, splitScan_lead notTail small (by simpa using within), Nat.zero_add,
      List.length_reverse, length, Nat.add_sub_cancel]

/-- In the start of a text it stands before the unfinished character. -/
theorem findUtf8SplitPoint_text {text cut : Bytes} (valid : Utf8.Valid text)
    (unfinished : Utf8.Unfinished cut) : findUtf8SplitPoint (text ++ cut) = text.length := by
  cases cut with
  | nil =>
    rw [List.append_nil]
    rcases valid.last with rfl | ⟨front, lead, tails, rfl, notTail, small, areTails, length⟩
    · rfl
    · rw [findUtf8SplitPoint_lead notTail small areTails (Nat.le_of_eq length),
        if_neg (by omega)]
  | cons lead tails =>
    obtain ⟨notTail, small, areTails, few⟩ := unfinished
    rw [findUtf8SplitPoint_lead notTail small areTails (Nat.le_of_lt few), if_pos few]

namespace Utf8ChunkAccumulator

theorem pushChunk_bytes {acc acc' : Utf8ChunkAccumulator} {data : Bytes} {out : Option Bytes}
    (h : acc.pushChunk data = (acc', out)) :
    out.toList.flatten ++ acc'.remainder = acc.remainder ++ data ∧
      (acc.remainder.length ≤ 3 → acc'.remainder.length ≤ 3) := by
  unfold pushChunk at h
  split at h
  · rename_i empty
    obtain ⟨rfl, rfl⟩ := Prod.mk.inj h
    exact ⟨by simp [List.isEmpty_iff.mp empty], id⟩
  · simp only at h
    have bounds := findUtf8SplitPoint_bounds (acc.remainder ++ data)
    split at h
    · obtain ⟨rfl, rfl⟩ := Prod.mk.inj h
      exact ⟨by simp, by simp⟩
    · split at h
      · obtain ⟨rfl, rfl⟩ := Prod.mk.inj h
        exact ⟨by simp, by simp⟩
      · obtain ⟨rfl, rfl⟩ := Prod.mk.inj h
        refine ⟨?_, fun _ => ?_⟩
        · have whole := List.take_append_drop (findUtf8SplitPoint (acc.remainder ++ data))
            (acc.remainder ++ data)
          split
          · rename_i empty
            rw [List.isEmpty_iff.mp empty] at whole
            simpa using whole
          · simp
        · simp only [List.length_drop]
          omega

/-- The start of a text that goes on with `rest`. -/
theorem pushChunk_text {acc acc' : Utf8ChunkAccumulator} {data rest : Bytes} {out : Option Bytes}
    (h : acc.pushChunk data = (acc', out)) (valid : Utf8.Valid (acc.remainder ++ data ++ rest))
    (unfinished : Utf8.Unfinished acc.remainder) :
    (∀ chunk ∈ out, Utf8.Valid chunk) ∧ Utf8.Valid (acc'.remainder ++ rest) ∧
      Utf8.Unfinished acc'.remainder := by
  unfold pushChunk at h
  split at h
  · rename_i empty
    obtain ⟨rfl, rfl⟩ := Prod.mk.inj h
    rw [List.isEmpty_iff.mp empty, List.append_nil] at valid
    exact ⟨by simp, valid, unfinished⟩
  · obtain ⟨text, cut, eq, validText, unfinishedCut, later⟩ := valid.take
    simp only [eq, findUtf8SplitPoint_text validText unfinishedCut, List.take_left,
      List.drop_left] at h
    split at h
    · rename_i all
      have nothing : cut = [] := by simpa using all
      obtain ⟨rfl, rfl⟩ := Prod.mk.inj h
      subst nothing
      exact ⟨by simpa using validText, later, trivial⟩
    · have known : (strFromUtf8 text).isNone = false := by
        simpa using Utf8.valid_iff.mp validText
      simp only [known, Bool.and_false, Bool.false_eq_true, if_false] at h
      obtain ⟨rfl, rfl⟩ := Prod.mk.inj h
      refine ⟨?_, later, unfinishedCut⟩
      intro chunk mem
      split at mem
      · simp at mem
      · obtain rfl := Option.some.inj mem
        exact validText

theorem pushChunk_step (acc : Utf8ChunkAccumulator) (data : Bytes) :
    acc.pushChunk data = (acc.step data, (acc.pushChunk data).2) := rfl

theorem emitted_cons (acc : Utf8ChunkAccumulator) (data : Bytes) (chunks : List Bytes) :
    acc.emitted (data :: chunks) =
      (acc.pushChunk data).2.toList ++ (acc.step data).emitted chunks := rfl

theorem emitted_bytes (acc : Utf8ChunkAccumulator) (chunks : List Bytes) :
    (acc.emitted chunks).flatten ++ (run step acc chunks).remainder =
      acc.remainder ++ chunks.flatten := by
  induction chunks generalizing acc with
  | nil => simp [emitted, collect]
  | cons data chunks ih =>
    have one := (pushChunk_bytes (pushChunk_step acc data)).1
    rw [emitted_cons, List.flatten_append, run_cons, List.append_assoc, ih, ← List.append_assoc,
      one, List.flatten_cons, List.append_assoc]

theorem step_short {acc : Utf8ChunkAccumulator} (short : acc.remainder.length ≤ 3) (data : Bytes) :
    (acc.step data).remainder.length ≤ 3 :=
  (pushChunk_bytes (pushChunk_step acc data)).2 short

theorem remainder_short (chunks : List Bytes) : (run step {} chunks).remainder.length ≤ 3 := by
  have keep : ∀ (acc : Utf8ChunkAccumulator) (data : Bytes), acc.remainder.length ≤ 3 → True →
      (acc.step data).remainder.length ≤ 3 := fun _ data short _ => step_short short data
  exact invariant keep (Nat.zero_le _) (along_true _ chunks)

theorem emitted_text {acc : Utf8ChunkAccumulator} {chunks : List Bytes}
    (valid : Utf8.Valid (acc.remainder ++ chunks.flatten))
    (unfinished : Utf8.Unfinished acc.remainder) :
    (∀ chunk ∈ acc.emitted chunks, Utf8.Valid chunk) ∧
      (run step acc chunks).remainder = [] := by
  induction chunks generalizing acc with
  | nil =>
    refine ⟨by simp [emitted, collect], ?_⟩
    exact unfinished.eq_nil (by simpa using valid)
  | cons data chunks ih =>
    rw [List.flatten_cons, ← List.append_assoc] at valid
    obtain ⟨out, next, unfinished'⟩ := pushChunk_text (pushChunk_step acc data) valid unfinished
    obtain ⟨later, nothing⟩ := @ih (acc.step data) next unfinished'
    refine ⟨?_, nothing⟩
    intro chunk mem
    rcases List.mem_append.mp (emitted_cons acc data chunks ▸ mem) with first | rest
    · exact out chunk (Option.mem_toList.mp first)
    · exact later chunk rest

end Utf8ChunkAccumulator

/-- **Chunks end between characters.** However a stream is cut, the chunks that are given out and
what `finish` gives are the stream again, and at most three bytes are ever held back. The chunks
of a UTF-8 stream are UTF-8, and nothing is left for `finish`. -/
theorem chunks_reassemble (chunks : List Bytes) :
    let acc := run Utf8ChunkAccumulator.step {} chunks
    let emitted := Utf8ChunkAccumulator.emitted {} chunks
    emitted.flatten ++ acc.finish.2.toList.flatten = chunks.flatten ∧
      (∀ front, front <+: chunks →
        (run Utf8ChunkAccumulator.step {} front).remainder.length ≤ 3) ∧
      (Utf8.Valid chunks.flatten →
        (∀ chunk ∈ emitted, Utf8.Valid chunk) ∧ acc.finish.2 = none) := by
  intro acc emitted
  have last : acc.finish.2.toList.flatten = acc.remainder := by
    unfold Utf8ChunkAccumulator.finish
    by_cases empty : acc.remainder = []
    · simp [empty]
    · simp [empty]
  refine ⟨?_, fun front _ => Utf8ChunkAccumulator.remainder_short front, ?_⟩
  · rw [last]
    exact Utf8ChunkAccumulator.emitted_bytes {} chunks
  · intro valid
    obtain ⟨out, nothing⟩ := @Utf8ChunkAccumulator.emitted_text {} chunks valid trivial
    refine ⟨out, ?_⟩
    have empty : acc.remainder = [] := nothing
    simp [Utf8ChunkAccumulator.finish, empty]

end CamelliaRemote.Terminal
