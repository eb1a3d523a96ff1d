import Mathlib.Algebra.Ring.Nat
import Mathlib.Data.List.Infix
import Mathlib.Tactic.Common

namespace CamelliaRemote.Terminal

abbrev Bytes := List UInt8

def maxOutputBufferSize : Nat := 1024 * 1024

def maxBufferLines : Nat := 10000

def newline : UInt8 := 10

structure OutputBuffer where
  lines : List Bytes := []
  totalSize : Nat := 0
  lastLineIncomplete : Bool := false
  deriving DecidableEq, Repr

namespace OutputBuffer

def push (b : OutputBuffer) (line : Bytes) : OutputBuffer :=
  { b with lines := b.lines ++ [line], totalSize := b.totalSize + line.length }

/-- The pieces of `split` on newlines, pushed back with their newlines. The
last piece is what follows the last newline. -/
def pushLines (endsWithNewline : Bool) : OutputBuffer → List Bytes → OutputBuffer
  | b, [] => b
  | b, [line] =>
    let b := if !endsWithNewline && !line.isEmpty then { b with lastLineIncomplete := true } else b
    if line.isEmpty then b else b.push (if endsWithNewline then line ++ [newline] else line)
  | b, line :: next :: rest => pushLines endsWithNewline (b.push (line ++ [newline])) (next :: rest)

/-- The loop that drops old lines while the buffer is too large. -/
def trimLoop : List Bytes → Nat → Bool → OutputBuffer
  | [], totalSize, lastLineIncomplete =>
    if maxOutputBufferSize < totalSize then {} else ⟨[], totalSize, lastLineIncomplete⟩
  | line :: lines, totalSize, lastLineIncomplete =>
    if maxOutputBufferSize < totalSize ∨ maxBufferLines < (line :: lines).length then
      trimLoop lines
        (if totalSize < line.length then (lines.map List.length).sum else totalSize - line.length)
        (if lines.isEmpty then false else lastLineIncomplete)
    else ⟨line :: lines, totalSize, lastLineIncomplete⟩

def trim (b : OutputBuffer) : OutputBuffer := trimLoop b.lines b.totalSize b.lastLineIncomplete

def appendRemaining (b : OutputBuffer) (remaining : Bytes) : OutputBuffer :=
  (b.pushLines (remaining.getLast? == some newline) (remaining.splitOn newline)).trim

/-- The last line grows by `data`. -/
def extendLast (b : OutputBuffer) (last data : Bytes) : OutputBuffer :=
  { b with lines := b.lines.dropLast ++ [last ++ data], totalSize := b.totalSize + data.length }

def append (b : OutputBuffer) (data : Bytes) : OutputBuffer :=
  if data.isEmpty then b
  else if b.lastLineIncomplete then
    match b.lines.getLast? with
    | some last =>
      match data.findIdx? (· == newline) with
      | some pos =>
        ({ b.extendLast last (data.take (pos + 1)) with
          lastLineIncomplete := false }).appendRemaining (data.drop (pos + 1))
      | none => b.extendLast last data
    | none => b.appendRemaining data
  else b.appendRemaining data

def appendAll (b : OutputBuffer) (chunks : List Bytes) : OutputBuffer := chunks.foldl append b

def isContinuation (b : UInt8) : Bool := b &&& 0b11000000 == 0b10000000

/-- Skip at most `n` continuation bytes. -/
def alignForward : Nat → Bytes → Bytes
  | n + 1, b :: bs => if isContinuation b then alignForward n bs else b :: bs
  | _, bs => bs

/-- The chunks `get_recent` takes, newest first, from the lines newest first. -/
def recentChunks (maxBytes : Nat) : Nat → List Bytes → List Bytes
  | _, [] => []
  | size, line :: older =>
    if maxBytes < size + line.length then
      if size = 0 ∧ maxBytes < line.length then
        let tail := alignForward 3 (line.drop (line.length - maxBytes))
        if tail.isEmpty then [] else [tail]
      else []
    else line :: recentChunks maxBytes (size + line.length) older

def getRecent (b : OutputBuffer) (maxBytes : Nat) : Bytes :=
  if maxBytes = 0 then []
  else (recentChunks maxBytes 0 b.lines.reverse).reverse.flatten

/-- The bytes the buffer holds, oldest first. -/
def content (b : OutputBuffer) : Bytes := b.lines.flatten

theorem push_content (b : OutputBuffer) (line : Bytes) :
    (b.push line).content = b.content ++ line := by
  simp [push, content]

theorem pushLines_content (endsWithNewline : Bool) (b : OutputBuffer) (lines : List Bytes)
    (last : endsWithNewline = true → lines.getLast? = some []) :
    (b.pushLines endsWithNewline lines).content = b.content ++ [newline].intercalate lines := by
  induction lines generalizing b with
  | nil => simp [pushLines]
  | cons line rest ih =>
    cases rest with
    | nil =>
      cases endsWithNewline with
      | true =>
        have empty : line = [] := by simpa using last rfl
        simp [pushLines, empty]
      | false =>
        by_cases empty : line = []
        · simp [pushLines, empty]
        · simp [pushLines, empty, push, content]
    | cons next rest =>
      rw [pushLines, ih _ (by simpa using last), push_content]
      simp [List.intercalate]

theorem trimLoop_suffix (lines : List Bytes) (totalSize : Nat) (lastLineIncomplete : Bool) :
    (trimLoop lines totalSize lastLineIncomplete).content <:+ lines.flatten := by
  induction lines generalizing totalSize lastLineIncomplete with
  | nil =>
    unfold trimLoop
    split <;> simp [content]
  | cons line lines ih =>
    unfold trimLoop
    split
    · refine (ih _ _).trans ?_
      simp
    · simp [content]

theorem splitOn_getLast {bs : Bytes} (h : bs.getLast? = some newline) :
    (bs.splitOn newline).getLast? = some [] := by
  obtain ⟨front, rfl⟩ : ∃ front, bs = front ++ [newline] := by
    refine ⟨bs.dropLast, ?_⟩
    rw [List.dropLast_append_getLast?]
    exact h
  simp [List.splitOn_append_cons_of_beq]

theorem appendRemaining_suffix (b : OutputBuffer) (remaining : Bytes) :
    (b.appendRemaining remaining).content <:+ b.content ++ remaining := by
  have whole : (b.pushLines (remaining.getLast? == some newline)
      (remaining.splitOn newline)).content = b.content ++ remaining := by
    rw [pushLines_content]
    · rw [List.intercalate_splitOn]
    · intro ends
      exact splitOn_getLast (by simpa using ends)
  rw [← whole]
  exact trimLoop_suffix _ _ _

theorem extendLast_content {b : OutputBuffer} {last : Bytes} (h : b.lines.getLast? = some last)
    (data : Bytes) : (b.extendLast last data).content = b.content ++ data := by
  obtain ⟨front, lines⟩ : ∃ front, b.lines = front ++ [last] :=
    ⟨b.lines.dropLast, (List.dropLast_append_getLast? _ h).symm⟩
  simp [extendLast, content, lines]

/-- Appending drops bytes only from the front. -/
theorem append_suffix (b : OutputBuffer) (data : Bytes) :
    (b.append data).content <:+ b.content ++ data := by
  unfold append
  split
  · rename_i empty
    simp [List.isEmpty_iff.mp empty]
  · split
    · split
      · rename_i last found
        split
        · rename_i pos _
          refine (appendRemaining_suffix _ _).trans ?_
          have kept := extendLast_content found (data.take (pos + 1))
          simp only [content] at kept ⊢
          rw [kept, List.append_assoc, List.take_append_drop]
        · rw [extendLast_content found]
      · exact appendRemaining_suffix b data
    · exact appendRemaining_suffix b data

theorem appendAll_suffix (b : OutputBuffer) (chunks : List Bytes) :
    (b.appendAll chunks).content <:+ b.content ++ chunks.flatten := by
  induction chunks generalizing b with
  | nil => simp [appendAll]
  | cons data chunks ih =>
    have first : (b.append data).content ++ chunks.flatten <:+
        b.content ++ data ++ chunks.flatten :=
      List.suffix_append_self_iff.mpr (b.append_suffix data)
    simpa [appendAll] using (ih (b.append data)).trans first

theorem alignForward_suffix (n : Nat) (bs : Bytes) : alignForward n bs <:+ bs := by
  induction n generalizing bs with
  | zero => simp [alignForward]
  | succ n ih =>
    cases bs with
    | nil => simp [alignForward]
    | cons b bs =>
      unfold alignForward
      split
      · exact (ih bs).trans (List.suffix_cons b bs)
      · exact List.suffix_rfl

theorem recentChunks_suffix (maxBytes size : Nat) (lines : List Bytes) :
    (recentChunks maxBytes size lines).reverse.flatten <:+ lines.reverse.flatten := by
  induction lines generalizing size with
  | nil => simp [recentChunks]
  | cons line older ih =>
    unfold recentChunks
    split
    · split
      · simp only
        split
        · simp
        · have tail := (alignForward_suffix 3 (line.drop (line.length - maxBytes))).trans
            (List.drop_suffix _ _)
          simpa using tail.trans (List.suffix_append _ _)
      · simp
    · simpa [List.suffix_append_self_iff] using ih (size + line.length)

theorem getRecent_suffix (b : OutputBuffer) (maxBytes : Nat) :
    b.getRecent maxBytes <:+ b.content := by
  unfold getRecent
  split
  · simp
  · simpa [content] using recentChunks_suffix maxBytes 0 b.lines.reverse

end OutputBuffer

end CamelliaRemote.Terminal
