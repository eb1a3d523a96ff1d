import CamelliaRemote.Lib.Runs
import Mathlib.Algebra.Ring.Nat

/-!
The audio buffer of the client, `src/client.rs`. Decoded samples wait in a ring buffer for the
output callback. What does not fit pushes out the oldest samples; every twelve seconds a histogram
of the amounts buffered decides whether more of them are skipped. An index out of range, a
subtraction below zero and a division by zero are `none`. `append_pcm2`, `try_shrink` and the
callback lock the ring buffer one after the other.
-/

namespace CamelliaRemote.AudioBuffer
open Runs

/-- The bits of an `f32`. -/
abbrev Sample := UInt32

def audioBufferMs : Nat := 3000

/-- `AudioBuffer`, with the static of `try_shrink` and the call of `append_pcm` under way. -/
structure State where
  /-- The ring buffer, oldest sample first. -/
  samples : List Sample := []
  capacity : Nat
  /-- The samples of a second. -/
  perSecond : Nat
  histogram : List Nat := List.replicate 30 0
  tms : Int
  /-- What `append_pcm2` has returned, before `try_shrink`. -/
  having : Option Nat := none

/-- After `resize`; `tms` is shared with the audio buffers that were there before. -/
def start (sampleRate channels : Nat) (tms : Int) : State :=
  { capacity := sampleRate * channels * audioBufferMs / 1000
    perSecond := sampleRate * channels
    tms }

inductive Event where
  | appendPcm (buffer : List Sample)
  /-- `try_shrink`, at the time `now`. -/
  | tryShrink (now : Int)
  /-- The output callback asks for `n` samples. -/
  | play (n : Nat)
  /-- `try_shrink` of another audio buffer sets `tms`. -/
  | setTms (tms : Int)
  deriving DecidableEq

/-- `zero`, `max` and the histogram, in the loop of `try_shrink`. -/
structure Scan where
  zero : Nat
  max : Nat
  histogram : List Nat

/-- The lower one of bucket `i` and the highest so far is cleared. -/
def scanStep (scan : Scan) (i : Nat) : Option Scan := do
  let count ← scan.histogram[i]?
  let most ← scan.histogram[scan.max]?
  some
    { zero := if count = 0 ∧ scan.zero = i then scan.zero + 1 else scan.zero
      max := if count > most then i else scan.max
      histogram := scan.histogram.set (if count > most then scan.max else i) 0 }

/-- The loop of `try_shrink`. -/
def scan (histogram : List Nat) : Option Scan :=
  (List.range 30).foldlM scanStep { zero := 0, max := 0, histogram }

/-- The water mark to drop at, once `max` is at least 6. -/
def waterMark (zeros max : Nat) : Nat :=
  let zeros := zeros * 2 / 3
  if max > zeros * 4 then zeros * 4 else max

def checkedSub (a b : Nat) : Option Nat := if b ≤ a then some (a - b) else none

/-- What is relied on of the ring buffer of `ringbuf`: the oldest samples make room. -/
structure RingBuf where
  pushSliceOverwrite : Nat → List Sample → List Sample → List Sample
  skip : List Sample → Nat → List Sample
  push_eq : ∀ capacity samples buffer, pushSliceOverwrite capacity samples buffer =
    (samples ++ buffer).drop (samples.length + buffer.length - capacity)
  skip_eq : ∀ samples n, skip samples n = samples.drop n

namespace State
variable (buf : RingBuf) (s : State)

def pushSliceOverwrite (buffer : List Sample) : State :=
  { s with samples := buf.pushSliceOverwrite s.capacity s.samples buffer }

def skip (n : Nat) : State := { s with samples := buf.skip s.samples n }

theorem pushSliceOverwrite_eq (buffer : List Sample) : s.pushSliceOverwrite buf buffer =
    { s with samples :=
      (s.samples ++ buffer).drop (s.samples.length + buffer.length - s.capacity) } := by
  rw [pushSliceOverwrite, buf.push_eq]

theorem skip_eq (n : Nat) : s.skip buf n = { s with samples := s.samples.drop n } := by
  rw [skip, buf.skip_eq]

def appendPcm2 (buffer : List Sample) : Option State :=
  if buffer.length > s.capacity then
    some { s.pushSliceOverwrite buf buffer with having := some s.capacity }
  else do
    let having := s.samples.length + buffer.length
    let room ←
      if having > s.capacity then (checkedSub having s.capacity).map (s.skip buf) else some s
    let pushed := room.pushSliceOverwrite buf buffer
    some { pushed with having := some pushed.samples.length }

/-- How many samples the water mark lets go. -/
def skipOf (capacity waterMark : Nat) : Nat := (capacity * waterMark / (30 * 4) + 1) / 2 * 2

/-- The end of `try_shrink`, with the lock. -/
def shrinkTo (waterMark : Nat) : State :=
  let skip := skipOf s.capacity waterMark
  if s.samples.length > skip * 3 ∧ skip > 0 then s.skip buf skip else s

/-- From the loop over the histogram on. -/
def rescan : Option State := do
  let found ← scan s.histogram
  let _ ← found.histogram[found.max]?
  let cleared := { s with histogram := found.histogram.set found.max 0 }
  if found.max < 6 then some cleared
  else some (cleared.shrinkTo buf (waterMark found.zero found.max))

/-- The count of the amount in the histogram. -/
def record (having : Nat) : Option State :=
  if s.perSecond = 0 then none
  else do
    let i := having * 10 / s.perSecond
    let i := if i > 29 then 29 else i
    let count ← s.histogram[i]?
    some { s with histogram := s.histogram.set i (count + 1) }

def tryShrink (having : Nat) (now : Int) : Option State := do
  let s ← s.record having
  if s.tms = 0 then some { s with tms := now }
  else if now < s.tms + 12000 then some s
  else State.rescan buf { s with tms := now }

/-- `try_shrink` follows `append_pcm2` in one thread. -/
def step? : Event → Option State
  | .appendPcm buffer =>
    match s.having with
    | none => s.appendPcm2 buf buffer
    | some _ => some s
  | .tryShrink now =>
    match s.having with
    | some having => State.tryShrink buf { s with having := none } having now
    | none => some s
  | .play n => some (s.skip buf (min n s.samples.length))
  | .setTms tms => some { s with tms }

def step (e : Event) : State := (s.step? buf e).getD s

/-- The samples that the event adds. -/
def pushed : Event → List Sample
  | .appendPcm buffer => if s.having = none then buffer else []
  | _ => []

/-- The step does not panic; whole frames of `c` samples are buffered, within the capacity; and
what is removed is a number of whole frames, the oldest. -/
structure Aligned (c : Nat) (e : Event) : Prop where
  runs : (s.step? buf e).isSome = true
  whole : c ∣ s.samples.length
  fits : s.samples.length ≤ s.capacity
  suffix : (s.step buf e).samples <:+ s.samples ++ s.pushed e
  removed : c ∣ (s.samples ++ s.pushed e).length - (s.step buf e).samples.length

end State

/-- Whole frames come in, and are asked for. -/
def Event.Whole (c : Nat) : Event → Prop
  | .appendPcm buffer => c ∣ buffer.length
  | .play n => c ∣ n
  | .tryShrink _ | .setTms _ => True

/-- A histogram as a function of the bucket. -/
def histogramOf (h : Nat → Nat) : List Nat := (List.range 30).map h

@[simp] theorem length_histogramOf (h : Nat → Nat) : (histogramOf h).length = 30 := by
  simp [histogramOf]

theorem getElem?_histogramOf {h : Nat → Nat} {i : Nat} (inside : i < 30) :
    (histogramOf h)[i]? = some (h i) := by
  simp [histogramOf, inside]

theorem histogramOf_congr {h k : Nat → Nat} (same : ∀ i < 30, h i = k i) :
    histogramOf h = histogramOf k :=
  List.map_congr_left fun i mem => same i (List.mem_range.mp mem)

theorem set_histogramOf (h : Nat → Nat) (i v : Nat) :
    (histogramOf h).set i v = histogramOf (fun j => if j = i then v else h j) := by
  refine List.ext_getElem? fun j => ?_
  rw [List.getElem?_set]
  by_cases inside : j < 30
  · rw [getElem?_histogramOf inside, getElem?_histogramOf inside, length_histogramOf]
    by_cases eq : i = j
    · simp [eq, inside]
    · simp [eq, Ne.symm eq]
  · have none' (k : Nat → Nat) : (histogramOf k)[j]? = none := by
      simpa using Nat.le_of_not_lt inside
    rw [none', none', length_histogramOf]
    by_cases eq : i = j
    · rw [if_pos eq, if_neg (by omega)]
    · rw [if_neg eq]

/-- After `n` rounds: the first buckets that are empty, and the first of the fullest ones but
bucket 0, which never counts. What was looked at is cleared, but for the fullest. -/
structure Scanned (h : Nat → Nat) (n : Nat) (scan : Scan) : Prop where
  histogram : scan.histogram = histogramOf fun j =>
    if n ≤ j ∨ j = scan.max ∧ scan.max ≠ 0 then h j else 0
  zero_le : scan.zero ≤ n
  empty : ∀ j < scan.zero, h j = 0
  first : scan.zero < n → h scan.zero ≠ 0
  max_lt : scan.max = 0 ∨ scan.max < n
  most : ∀ j < n, 0 < j → h j ≤ if scan.max = 0 then 0 else h scan.max
  taken : scan.max ≠ 0 → 0 < h scan.max

/-- One round, with the values that it looks at. -/
theorem Scanned.scanStep_eq {h : Nat → Nat} {n : Nat} {scan : Scan} (scanned : Scanned h n scan)
    (inside : n < 30) :
    scanStep scan n = some
      { zero := if h n = 0 ∧ scan.zero = n then scan.zero + 1 else scan.zero
        max := if h n > (if n = 0 ∨ scan.max ≠ 0 then h scan.max else 0) then n else scan.max
        histogram := scan.histogram.set
          (if h n > (if n = 0 ∨ scan.max ≠ 0 then h scan.max else 0) then scan.max else n) 0 } := by
  have max_inside : scan.max < 30 := by
    rcases scanned.max_lt with eq | lt <;> omega
  have looked : scan.histogram[n]? = some (h n) := by
    rw [scanned.histogram, getElem?_histogramOf inside, if_pos (.inl (Nat.le_refl n))]
  have fullest : scan.histogram[scan.max]? =
      some (if n = 0 ∨ scan.max ≠ 0 then h scan.max else 0) := by
    rw [scanned.histogram, getElem?_histogramOf max_inside]
    congr 1
    refine if_congr ?_ rfl rfl
    have := scanned.max_lt
    omega
  simp only [scanStep, looked, fullest, Option.bind_eq_bind, Option.bind_some]

theorem Scanned.next {h : Nat → Nat} {n : Nat} {scan : Scan} (scanned : Scanned h n scan)
    (inside : n < 30) :
    ∃ next, scanStep scan n = some next ∧ Scanned h (n + 1) next := by
  refine ⟨_, scanned.scanStep_eq inside, ?_⟩
  obtain ⟨histogram, zero_le, empty, first, max_lt, most, taken⟩ := scanned
  have zero_le' : (if h n = 0 ∧ scan.zero = n then scan.zero + 1 else scan.zero) ≤ n + 1 := by
    split <;> omega
  have empty' : ∀ j < if h n = 0 ∧ scan.zero = n then scan.zero + 1 else scan.zero, h j = 0 := by
    intro j lt
    split at lt
    · rename_i here
      rcases Nat.lt_succ_iff_lt_or_eq.mp lt with old | rfl
      · exact empty j old
      · rw [here.2, here.1]
    · exact empty j lt
  have first' : (if h n = 0 ∧ scan.zero = n then scan.zero + 1 else scan.zero) < n + 1 →
      h (if h n = 0 ∧ scan.zero = n then scan.zero + 1 else scan.zero) ≠ 0 := by
    intro lt
    split at lt
    · omega
    · rename_i other
      rw [if_neg other]
      rcases Nat.lt_succ_iff_lt_or_eq.mp lt with old | eq
      · exact first old
      · exact fun none' => other ⟨eq ▸ none', eq⟩
  by_cases fuller : h n > (if n = 0 ∨ scan.max ≠ 0 then h scan.max else 0)
  · have positive : n ≠ 0 := by
      rintro rfl
      have : scan.max = 0 := by omega
      simp [this] at fuller
    have above : (if scan.max = 0 then 0 else h scan.max) < h n := by
      split
      · rename_i none'
        simpa [positive, none'] using fuller
      · rename_i some'
        simpa [some'] using fuller
    refine
      { histogram := ?_, zero_le := zero_le', empty := empty', first := first', max_lt := ?_,
        most := ?_, taken := ?_ }
    · simp only [fuller, if_true, histogram, set_histogramOf]
      refine histogramOf_congr fun j _ => ?_
      by_cases eq : j = scan.max
      · rw [if_pos eq, if_neg (by omega)]
      · rw [if_neg eq]
        exact if_congr (by omega) rfl rfl
    · simp [fuller]
    · intro j lt positive'
      simp only [if_pos fuller]
      rw [if_neg positive]
      rcases Nat.lt_succ_iff_lt_or_eq.mp lt with old | rfl
      · exact Nat.le_of_lt (Nat.lt_of_le_of_lt (most j old positive') above)
      · exact Nat.le_refl _
    · intro _
      simp only [fuller, if_true]
      omega
  · refine
      { histogram := ?_, zero_le := zero_le', empty := empty', first := first', max_lt := ?_,
        most := ?_, taken := ?_ }
    · simp only [fuller, if_false, histogram, set_histogramOf]
      refine histogramOf_congr fun j _ => ?_
      by_cases eq : j = n
      · rw [if_pos eq, if_neg (by omega)]
      · rw [if_neg eq]
        exact if_congr (by omega) rfl rfl
    · simp only [fuller, if_false]
      omega
    · intro j lt positive'
      simp only [fuller, if_false]
      rcases Nat.lt_succ_iff_lt_or_eq.mp lt with old | rfl
      · exact most j old positive'
      · by_cases none' : scan.max = 0
        · simpa [none', Nat.ne_of_gt positive'] using fuller
        · simpa [none'] using fuller
    · simpa only [fuller, if_false] using taken

/-- **What the loop of `try_shrink` finds**, whatever the histogram. -/
theorem scan_histogramOf (h : Nat → Nat) :
    ∃ found, scan (histogramOf h) = some found ∧ Scanned h 30 found := by
  have rounds (n : Nat) (inside : n ≤ 30) : ∃ found,
      (List.range n).foldlM scanStep ⟨0, 0, histogramOf h⟩ = some found ∧
        Scanned h n found := by
    induction n with
    | zero =>
      refine ⟨_, rfl, ?_⟩
      exact
        { histogram := histogramOf_congr fun j _ => by simp
          zero_le := Nat.le_refl 0
          empty := fun j lt => absurd lt (Nat.not_lt_zero j)
          first := fun lt => absurd lt (Nat.lt_irrefl 0)
          max_lt := .inl rfl
          most := fun j lt => absurd lt (Nat.not_lt_zero j)
          taken := fun ne => absurd rfl ne }
    | succ n ih =>
      obtain ⟨found, eq, scanned⟩ := ih (by omega)
      obtain ⟨next, step, scanned⟩ := scanned.next inside
      refine ⟨next, ?_, scanned⟩
      rw [List.range_succ, List.foldlM_append, eq]
      simp [step]
  exact rounds 30 (Nat.le_refl 30)

theorem Scanned.max_lt_30 {h : Nat → Nat} {found : Scan} (scanned : Scanned h 30 found) :
    found.max < 30 := by
  rcases scanned.max_lt with eq | lt <;> omega

/-- The histogram is empty afterwards. -/
theorem Scanned.cleared {h : Nat → Nat} {found : Scan} (scanned : Scanned h 30 found) :
    found.histogram.set found.max 0 = histogramOf fun _ => 0 := by
  rw [scanned.histogram, set_histogramOf]
  refine histogramOf_congr fun j inside => ?_
  split
  · rfl
  · exact if_neg (by omega)

/-- The empty buckets end at one that is not behind the fullest. -/
theorem Scanned.zero_le_max {h : Nat → Nat} {found : Scan} (scanned : Scanned h 30 found)
    (some' : found.max ≠ 0) : found.zero ≤ found.max ∧ h found.zero ≠ 0 := by
  have le : found.zero ≤ found.max := by
    refine Nat.le_of_not_lt fun lt => ?_
    have := scanned.empty found.max lt
    have := scanned.taken some'
    omega
  exact ⟨le, scanned.first (Nat.lt_of_le_of_lt le scanned.max_lt_30)⟩

end CamelliaRemote.AudioBuffer
