import CamelliaRemote.Lib.Codec
import CamelliaRemote.Lib.Runs
import CamelliaRemote.Terminal.OutputBuffer

namespace CamelliaRemote.Terminal
open Runs

/-- The only newline of the line is its last byte. -/
def Ended (line : Bytes) : Prop := ∃ text, newline ∉ text ∧ line = text ++ [newline]

/-- Ended lines and, if the flag says so, one that is not. -/
inductive Lines : List Bytes → Bool → Prop where
  | complete {lines} (ended : ∀ line ∈ lines, Ended line) : Lines lines false
  | unfinished {lines text} (ended : ∀ line ∈ lines, Ended line) (some : text ≠ [])
      (single : newline ∉ text) : Lines (lines ++ [text]) true

theorem Lines.all_ended {lines : List Bytes} (h : Lines lines false) :
    ∀ line ∈ lines, Ended line := by
  cases h with
  | complete ended => exact ended

theorem Ended.single {line : Bytes} (h : Ended line) : line ≠ [] ∧ newline ∉ line.dropLast := by
  obtain ⟨text, single, rfl⟩ := h
  exact ⟨by simp, by simpa using single⟩

theorem Ended.getLast? {line : Bytes} (h : Ended line) : line.getLast? = some newline := by
  obtain ⟨text, -, rfl⟩ := h
  exact List.getLast?_concat

theorem Lines.single {lines : List Bytes} {incomplete : Bool} (h : Lines lines incomplete) :
    ∀ line ∈ lines, line ≠ [] ∧ newline ∉ line.dropLast := by
  cases h with
  | complete ended => exact fun line mem => (ended line mem).single
  | unfinished ended some single =>
    intro line mem
    rcases List.mem_append.mp mem with old | new
    · exact (ended line old).single
    · rw [List.mem_singleton.mp new]
      exact ⟨some, fun mem => single (List.mem_of_mem_dropLast mem)⟩

theorem Lines.ended {lines : List Bytes} {incomplete : Bool} (h : Lines lines incomplete) :
    ∀ line ∈ lines.dropLast, line.getLast? = some newline := by
  cases h with
  | complete ended => exact fun line mem => (ended line (List.mem_of_mem_dropLast mem)).getLast?
  | unfinished ended some single =>
    rw [List.dropLast_concat]
    exact fun line mem => (ended line mem).getLast?

theorem Lines.incomplete_iff {lines : List Bytes} {incomplete : Bool} (h : Lines lines incomplete) :
    incomplete = true ↔
      ∃ last, lines.getLast? = some last ∧ last.getLast? ≠ some newline := by
  cases h with
  | complete ended =>
    refine ⟨by simp, ?_⟩
    rintro ⟨last, found, open'⟩
    exact absurd (ended last (List.mem_of_getLast? found)).getLast? open'
  | unfinished ended some single =>
    refine ⟨fun _ => ⟨_, List.getLast?_concat, ?_⟩, fun _ => rfl⟩
    intro last
    exact single (List.mem_of_getLast? last)

namespace OutputBuffer

structure Sound (b : OutputBuffer) : Prop where
  lines : Lines b.lines b.lastLineIncomplete
  size : b.totalSize = (b.lines.map List.length).sum

theorem sound_new : ({} : OutputBuffer).Sound := ⟨.complete (by simp), rfl⟩

theorem Sound.pushEnded {b : OutputBuffer} (sound : b.Sound)
    (complete : b.lastLineIncomplete = false) {text : Bytes} (single : newline ∉ text) :
    (b.push (text ++ [newline])).Sound := by
  have before := sound.lines
  rw [complete] at before
  constructor
  · simp only [push, complete]
    refine .complete fun line mem => ?_
    rcases List.mem_append.mp mem with old | new
    · exact before.all_ended line old
    · exact ⟨text, single, List.mem_singleton.mp new⟩
  · simp [push, sound.size]

theorem Sound.pushUnfinished {b : OutputBuffer} (sound : b.Sound)
    (complete : b.lastLineIncomplete = false) {text : Bytes} (some : text ≠ [])
    (single : newline ∉ text) :
    (OutputBuffer.push { b with lastLineIncomplete := true } text).Sound := by
  have before := sound.lines
  rw [complete] at before
  exact ⟨.unfinished before.all_ended some single, by simp [push, sound.size]⟩

theorem Sound.pushLines {b : OutputBuffer} (sound : b.Sound)
    (complete : b.lastLineIncomplete = false) {endsWithNewline : Bool} {lines : List Bytes}
    (single : ∀ line ∈ lines, newline ∉ line)
    (last : endsWithNewline = true → lines.getLast? = some []) :
    (b.pushLines endsWithNewline lines).Sound := by
  induction lines generalizing b with
  | nil => exact sound
  | cons line rest ih =>
    cases rest with
    | nil =>
      by_cases empty : line = []
      · simpa [OutputBuffer.pushLines, empty] using sound
      · have open' : endsWithNewline = false := by
          cases endsWithNewline with
          | false => rfl
          | true => exact absurd (by simpa using last rfl) empty
        simpa [OutputBuffer.pushLines, empty, open'] using
          sound.pushUnfinished complete empty (single line List.mem_cons_self)
    | cons next rest =>
      exact ih (sound.pushEnded complete (single line List.mem_cons_self)) complete
        (fun l mem => single l (List.mem_cons_of_mem _ mem)) (by simpa using last)

/-- The buffer without its oldest line. -/
theorem Sound.tail {line : Bytes} {lines : List Bytes} {totalSize : Nat} {incomplete : Bool}
    (sound : Sound ⟨line :: lines, totalSize, incomplete⟩) :
    line.length ≤ totalSize ∧
      Sound ⟨lines, totalSize - line.length, if lines.isEmpty then false else incomplete⟩ := by
  have size : totalSize = line.length + (lines.map List.length).sum := by simpa using sound.size
  refine ⟨by omega, ?_, ?_⟩
  · have whole : Lines (line :: lines) incomplete := sound.lines
    simp only
    generalize all : line :: lines = ls at whole
    cases whole with
    | complete ended =>
      rw [← all] at ended
      simpa using Lines.complete fun l mem => ended l (List.mem_cons_of_mem _ mem)
    | @unfinished front text ended some single =>
      cases front with
      | nil =>
        obtain ⟨-, rfl⟩ := List.cons.inj all
        exact .complete (by simp)
      | cons first front =>
        obtain ⟨-, rfl⟩ := List.cons.inj all
        simpa using Lines.unfinished (fun l mem => ended l (List.mem_cons_of_mem _ mem)) some single
  · simp only
    omega

/-- What the trim loop logs. -/
inductive TrimError where
  | underflowAvoided (totalSize removedLen linesLen : Nat)
  | invariantBroken (totalSize : Nat)
  deriving DecidableEq, Repr

def trimErrors : List Bytes → Nat → List TrimError
  | [], totalSize => if maxOutputBufferSize < totalSize then [.invariantBroken totalSize] else []
  | line :: lines, totalSize =>
    if maxOutputBufferSize < totalSize ∨ maxBufferLines < (line :: lines).length then
      if totalSize < line.length then
        .underflowAvoided totalSize line.length lines.length ::
          trimErrors lines (lines.map List.length).sum
      else trimErrors lines (totalSize - line.length)
    else []

/-- The two branches that repair the size are dead. -/
theorem Sound.trim {b : OutputBuffer} (sound : b.Sound) :
    b.trim.Sound ∧ trimErrors b.lines b.totalSize = [] := by
  obtain ⟨lines, totalSize, incomplete⟩ := b
  simp only [OutputBuffer.trim]
  induction lines generalizing totalSize incomplete with
  | nil =>
    have size : totalSize = 0 := sound.size
    have small : ¬ maxOutputBufferSize < totalSize := by
      rw [size]
      exact Nat.not_lt_zero _
    rw [trimLoop, trimErrors, if_neg small, if_neg small]
    exact ⟨sound, rfl⟩
  | cons line lines ih =>
    obtain ⟨fits, rest⟩ := sound.tail
    rw [trimLoop, trimErrors, if_neg (Nat.not_lt.mpr fits), if_neg (Nat.not_lt.mpr fits)]
    split
    · exact ih _ _ rest
    · exact ⟨sound, rfl⟩

/-- The trim loop ends with both bounds. -/
def Bounded (b : OutputBuffer) : Prop :=
  b.totalSize ≤ maxOutputBufferSize ∧ b.lines.length ≤ maxBufferLines

instance (b : OutputBuffer) : Decidable b.Bounded := inferInstanceAs (Decidable (_ ∧ _))

theorem bounded_trim (b : OutputBuffer) : b.trim.Bounded := by
  obtain ⟨lines, totalSize, incomplete⟩ := b
  simp only [OutputBuffer.trim]
  induction lines generalizing totalSize incomplete with
  | nil =>
    unfold trimLoop
    split
    · exact ⟨Nat.zero_le _, Nat.zero_le _⟩
    · rename_i small
      exact ⟨Nat.not_lt.mp small, Nat.zero_le _⟩
  | cons line lines ih =>
    unfold trimLoop
    split
    · exact ih _ _
    · rename_i small
      rw [not_or, Nat.not_lt, Nat.not_lt] at small
      exact small

/-- The new lines, before the trim loop. -/
def pushRemaining (b : OutputBuffer) (remaining : Bytes) : OutputBuffer :=
  b.pushLines (remaining.getLast? == some newline) (remaining.splitOn newline)

/-- The buffer with which `append` comes to its trim loop, if it does. -/
def untrimmed (b : OutputBuffer) (data : Bytes) : Option OutputBuffer :=
  if data.isEmpty then none
  else if b.lastLineIncomplete then
    match b.lines.getLast? with
    | some last =>
      match data.findIdx? (· == newline) with
      | some pos =>
        some (pushRemaining
          { b.extendLast last (data.take (pos + 1)) with lastLineIncomplete := false }
          (data.drop (pos + 1)))
      | none => none
    | none => some (b.pushRemaining data)
  else some (b.pushRemaining data)

/-- A call comes to its trim loop, or returns early: there is nothing to append, or an unfinished
line goes on. -/
theorem append_cases (b : OutputBuffer) (data : Bytes) :
    (∃ u, b.untrimmed data = some u ∧ b.append data = u.trim) ∨
      data = [] ∧ b.append data = b ∨
      ∃ last, b.lastLineIncomplete = true ∧ b.lines.getLast? = some last ∧ data ≠ [] ∧
        newline ∉ data ∧ b.append data = b.extendLast last data := by
  unfold untrimmed append appendRemaining
  by_cases empty : data.isEmpty
  · rw [if_pos empty, if_pos empty]
    exact .inr (.inl ⟨List.isEmpty_iff.mp empty, rfl⟩)
  rw [if_neg empty, if_neg empty]
  by_cases open' : b.lastLineIncomplete
  · rw [if_pos open', if_pos open']
    obtain noLine | ⟨last, found⟩ := Option.eq_none_or_eq_some b.lines.getLast?
    · rw [noLine]
      exact .inl ⟨_, rfl, rfl⟩
    · rw [found]
      obtain noNewline | ⟨pos, atNewline⟩ :=
        Option.eq_none_or_eq_some (data.findIdx? (· == newline))
      · rw [noNewline]
        refine .inr (.inr ⟨last, open', rfl, by simpa using empty, ?_, rfl⟩)
        intro mem
        simpa using List.findIdx?_eq_none_iff.mp noNewline newline mem
      · rw [atNewline]
        exact .inl ⟨_, rfl, rfl⟩
  · rw [if_neg open', if_neg open']
    exact .inl ⟨_, rfl, rfl⟩

/-- A position of a newline cuts the data behind an ended line. -/
theorem take_newline {data : Bytes} {pos : Nat} (h : data.findIdx? (· == newline) = some pos) :
    ∃ text, newline ∉ text ∧ data.take (pos + 1) = text ++ [newline] := by
  induction data generalizing pos with
  | nil => simp at h
  | cons c data ih =>
    rw [List.findIdx?_cons] at h
    split at h
    · rename_i isNewline
      obtain rfl := Option.some.inj h
      exact ⟨[], by simp, by simpa using isNewline⟩
    · rename_i other
      obtain ⟨pos', found, rfl⟩ := Option.map_eq_some_iff.mp h
      obtain ⟨text, single, eq⟩ := ih found
      refine ⟨c :: text, ?_, by rw [List.take_succ_cons, eq, List.cons_append]⟩
      simp only [List.mem_cons, not_or]
      exact ⟨fun same => other (by simp [same]), single⟩

theorem Sound.exists_last {b : OutputBuffer} (sound : b.Sound)
    (open' : b.lastLineIncomplete = true) : ∃ last, b.lines.getLast? = some last := by
  have shape := sound.lines
  rw [open'] at shape
  generalize b.lines = lines at shape
  cases shape with
  | unfinished => exact ⟨_, List.getLast?_concat⟩

/-- The unfinished line goes on. -/
theorem Sound.extendLast {b : OutputBuffer} (sound : b.Sound) (open' : b.lastLineIncomplete = true)
    {last : Bytes} (found : b.lines.getLast? = some last) (more : Bytes) :
    (newline ∉ more → (b.extendLast last more).Sound) ∧
      ∀ text, newline ∉ text → more = text ++ [newline] →
        Sound { b.extendLast last more with lastLineIncomplete := false } := by
  obtain ⟨lines, totalSize, incomplete⟩ := b
  obtain ⟨shape, size⟩ := sound
  simp only at open' found shape size
  subst open'
  cases shape with
  | @unfinished front text ended some single =>
    obtain rfl : text = last := by simpa using found
    have length : totalSize + more.length =
        ((front ++ [text ++ more]).map List.length).sum := by
      simp [size]
      omega
    constructor
    · intro noNewline
      refine ⟨?_, ?_⟩
      · simp only [OutputBuffer.extendLast, List.dropLast_concat]
        refine .unfinished ended (by simp [some]) ?_
        simp [single, noNewline]
      · simpa [OutputBuffer.extendLast] using length
    · rintro text' noNewline rfl
      refine ⟨?_, ?_⟩
      · simp only [OutputBuffer.extendLast, List.dropLast_concat]
        refine .complete fun line mem => ?_
        rcases List.mem_append.mp mem with old | new
        · exact ended line old
        · rw [List.mem_singleton.mp new]
          exact ⟨text ++ text', by simp [single, noNewline], by simp⟩
      · simpa [OutputBuffer.extendLast] using length

theorem Sound.pushRemaining {b : OutputBuffer} (sound : b.Sound)
    (complete : b.lastLineIncomplete = false) (bs : Bytes) : (b.pushRemaining bs).Sound := by
  refine sound.pushLines complete (fun line mem => Codec.notMem_of_mem_splitOn mem) ?_
  intro ends
  exact splitOn_getLast (by simpa using ends)

theorem Sound.untrimmed {b u : OutputBuffer} {data : Bytes} (sound : b.Sound)
    (h : b.untrimmed data = some u) : u.Sound := by
  unfold OutputBuffer.untrimmed at h
  split at h
  · exact absurd h (by simp)
  · split at h
    · rename_i open'
      split at h
      · rename_i last found
        split at h
        · rename_i pos atNewline
          obtain ⟨text, single, eq⟩ := take_newline atNewline
          rw [← Option.some.inj h]
          exact ((sound.extendLast open' found _).2 text single eq).pushRemaining rfl _
        · exact absurd h (by simp)
      · rename_i noLine
        obtain ⟨last, found⟩ := sound.exists_last open'
        exact absurd (noLine.symm.trans found) (by simp)
    · rename_i complete
      rw [← Option.some.inj h]
      exact sound.pushRemaining (by simpa using complete) _

theorem Sound.append {b : OutputBuffer} (sound : b.Sound) (data : Bytes) :
    (b.append data).Sound := by
  obtain ⟨u, h, eq⟩ | ⟨-, eq⟩ | ⟨last, open', found, -, noNewline, eq⟩ := b.append_cases data
  · rw [eq]
    exact (sound.untrimmed h).trim.1
  · rwa [eq]
  · rw [eq]
    exact (sound.extendLast open' found data).1 noNewline

theorem sound_appendAll (chunks : List Bytes) : (({} : OutputBuffer).appendAll chunks).Sound :=
  invariant (fun _ data sound _ => sound.append data) sound_new (along_true _ chunks)

/-- **The history is whole lines.** After any calls of `append`, `total_size` is the size of the
lines, the lines are the end of all that was appended, only the last one may lack its newline
and the flag says so; and no call takes a branch of the trim loop that repairs `total_size`. -/
theorem history_whole_lines (chunks : List Bytes) :
    let b := ({} : OutputBuffer).appendAll chunks
    b.totalSize = (b.lines.map List.length).sum ∧
      b.lines.flatten <:+ chunks.flatten ∧
      (∀ line ∈ b.lines, line ≠ [] ∧ newline ∉ line.dropLast) ∧
      (∀ line ∈ b.lines.dropLast, line.getLast? = some newline) ∧
      (b.lastLineIncomplete = true ↔
        ∃ last, b.lines.getLast? = some last ∧ last.getLast? ≠ some newline) ∧
      ∀ data u, b.untrimmed data = some u → trimErrors u.lines u.totalSize = [] := by
  intro b
  have sound : b.Sound := sound_appendAll chunks
  refine ⟨sound.size, ?_, sound.lines.single, sound.lines.ended, sound.lines.incomplete_iff, ?_⟩
  · exact appendAll_suffix {} chunks
  · intro data u h
    exact (sound.untrimmed h).trim.2

/-- An unfinished line that goes on without a newline has room. -/
def Fits (b : OutputBuffer) (data : Bytes) : Prop :=
  b.lastLineIncomplete = true → newline ∉ data → b.totalSize + data.length ≤ maxOutputBufferSize

/-- Such a call returns before the trim loop. -/
theorem Sound.untrimmed_eq_none {b : OutputBuffer} (sound : b.Sound)
    (open' : b.lastLineIncomplete = true) {data : Bytes} (noNewline : newline ∉ data) :
    b.untrimmed data = none := by
  obtain ⟨last, found⟩ := sound.exists_last open'
  have nowhere : data.findIdx? (· == newline) = none := by
    rw [List.findIdx?_eq_none_iff]
    intro x mem
    simpa using fun same : x = newline => noNewline (same ▸ mem)
  simp [OutputBuffer.untrimmed, open', found, nowhere]

theorem bounded_append_iff {b : OutputBuffer} (bounded : b.Bounded) (sound : b.Sound)
    (data : Bytes) : (b.append data).Bounded ↔ b.Fits data := by
  obtain ⟨u, h, eq⟩ | ⟨rfl, eq⟩ | ⟨last, open', found, -, noNewline, eq⟩ := b.append_cases data
  · rw [eq]
    refine iff_of_true (bounded_trim u) ?_
    intro open' noNewline
    rw [sound.untrimmed_eq_none open' noNewline] at h
    exact absurd h (by simp)
  · rw [eq]
    exact iff_of_true bounded fun _ _ => bounded.1
  · have some : b.lines ≠ [] := by
      intro none
      simp [none] at found
    have lines : (b.extendLast last data).lines.length = b.lines.length := by
      have := List.length_pos_of_ne_nil some
      simp only [extendLast, List.length_append, List.length_dropLast, List.length_singleton]
      omega
    rw [eq, Bounded, lines]
    exact ⟨fun after _ _ => after.1, fun fits => ⟨fits open' noNewline, bounded.2⟩⟩

theorem bounded_run_iff {b : OutputBuffer} (bounded : b.Bounded) (sound : b.Sound)
    (chunks : List Bytes) : (∀ front, front <+: chunks → (b.appendAll front).Bounded) ↔
      Along OutputBuffer.append Fits b chunks := by
  induction chunks generalizing b with
  | nil => simpa [Along, appendAll] using bounded
  | cons data chunks ih =>
    have first := bounded_append_iff bounded sound data
    constructor
    · intro all
      have next : (b.append data).Bounded := all [data] (by simp)
      refine ⟨first.mp next, (ih next (sound.append data)).mp ?_⟩
      intro front within
      exact all (data :: front) (List.cons_prefix_cons.mpr ⟨rfl, within⟩)
    · rintro ⟨fits, rest⟩ front within
      have next := first.mpr fits
      cases front with
      | nil => exact bounded
      | cons d front =>
        obtain ⟨rfl, inner⟩ := List.cons_prefix_cons.mp within
        exact (ih next (sound.append d)).mpr rest front inner

/-- **The bounds hold but for a line without end.** Both bounds hold after every call if and only
if no call extends an unfinished line, without a newline, over the limit. -/
theorem history_bounded (chunks : List Bytes) :
    (∀ front, front <+: chunks → (({} : OutputBuffer).appendAll front).Bounded) ↔
      Along OutputBuffer.append Fits {} chunks :=
  bounded_run_iff ⟨Nat.zero_le _, Nat.zero_le _⟩ sound_new chunks

theorem letter_then_unended {data : Bytes} (noNewline : newline ∉ data)
    (long : maxOutputBufferSize ≤ data.length) :
    ¬ (({} : OutputBuffer).appendAll [[65], data]).Bounded := by
  have first : ({} : OutputBuffer).append [65] = ⟨[[65]], 1, true⟩ := by decide
  have sound : (⟨[[65]], 1, true⟩ : OutputBuffer).Sound := first ▸ sound_new.append [65]
  have bounded : (⟨[[65]], 1, true⟩ : OutputBuffer).Bounded := by decide
  simp only [appendAll, List.foldl_cons, List.foldl_nil, first]
  rw [bounded_append_iff bounded sound]
  intro fits
  have room := fits rfl noNewline
  simp only at room
  omega

/-- After one byte, a mebibyte without a newline stays whole. -/
theorem unended_line_exceeds :
    ¬ (({} : OutputBuffer).appendAll [[65], List.replicate maxOutputBufferSize 65]).Bounded := by
  refine letter_then_unended ?_ (Nat.le_of_eq List.length_replicate.symm)
  rw [List.mem_replicate]
  exact fun same => absurd same.2 (by decide)

end OutputBuffer

end CamelliaRemote.Terminal
