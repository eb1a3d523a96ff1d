import CamelliaRemote.Client.AudioBuffer
import Mathlib.Tactic.Ring

namespace CamelliaRemote.AudioBuffer
open Runs

/-- The bucket of `frames` samples of each channel. -/
def bucket (sampleRate frames : Nat) : Nat :=
  let i := frames * 10 / sampleRate
  if i > 29 then 29 else i

theorem bucket_lt (sampleRate frames : Nat) : bucket sampleRate frames < 30 := by
  unfold bucket
  dsimp only
  split <;> omega

/-- One more in bucket `b`. -/
def bumped (h : Nat → Nat) (b : Nat) : Nat → Nat := fun j => if j = b then h b + 1 else h j

/-- Some amount that fits falls into the bucket. -/
def Attained (sampleRate i : Nat) : Prop :=
  ∃ frames ≤ sampleRate * 3, bucket sampleRate frames = i

/-- Every skip that a histogram can lead to is of whole frames of `c` samples. -/
def SkipsWhole (sampleRate c : Nat) : Prop :=
  ∀ low high, Attained sampleRate low → Attained sampleRate high → low ≤ high → 6 ≤ high →
    let skip := State.skipOf (sampleRate * c * 3) (waterMark low high)
    skip * 3 < sampleRate * c * 3 → c ∣ skip

namespace State
variable {buf : RingBuf} {s : State} {sampleRate c : Nat}

variable (buf s) in
theorem appendPcm2_eq (buffer : List Sample) :
    s.appendPcm2 buf buffer = some { s with
      samples := (s.samples ++ buffer).drop (s.samples.length + buffer.length - s.capacity)
      having := some (min (s.samples.length + buffer.length) s.capacity) } := by
  unfold appendPcm2
  split
  · rename_i long
    rw [Nat.min_eq_right (by omega), pushSliceOverwrite_eq]
  · rename_i short
    by_cases full : s.samples.length + buffer.length > s.capacity
    · have room : (checkedSub (s.samples.length + buffer.length) s.capacity).map (s.skip buf) =
          some (s.skip buf (s.samples.length + buffer.length - s.capacity)) := by
        rw [checkedSub, if_pos (by omega)]
        rfl
      have inside : s.samples.length + buffer.length - s.capacity ≤ s.samples.length := by omega
      have length : s.samples.length - (s.samples.length + buffer.length - s.capacity) +
          buffer.length = s.capacity := by omega
      simp only [full, if_true, room, Option.bind_eq_bind, Option.bind_some, skip_eq,
        pushSliceOverwrite_eq, List.length_drop, length, Nat.sub_self, List.drop_zero,
        List.length_append, Nat.min_eq_right (Nat.le_of_lt full), Nat.sub_zero,
        List.drop_append_of_le_length inside]
    · have none' : s.samples.length + buffer.length - s.capacity = 0 := by omega
      simp only [full, if_false, Option.bind_eq_bind, Option.bind_some, pushSliceOverwrite_eq,
        none', List.drop_zero, List.length_append, Nat.min_eq_left (Nat.le_of_not_lt full)]

theorem record_eq {h : Nat → Nat} (histogram : s.histogram = histogramOf h)
    (perSecond : s.perSecond = sampleRate * c) (rate : 0 < sampleRate) (positive : 0 < c)
    (frames : Nat) :
    s.record (frames * c) = some { s with
      histogram := histogramOf (bumped h (bucket sampleRate frames)) } := by
  have nonzero : s.perSecond ≠ 0 := by
    rw [perSecond]
    exact Nat.mul_ne_zero (by omega) (by omega)
  have amount : frames * c * 10 / s.perSecond = frames * 10 / sampleRate := by
    rw [perSecond, Nat.mul_right_comm, Nat.mul_div_mul_right _ _ positive]
  have count := getElem?_histogramOf (h := h) (bucket_lt sampleRate frames)
  unfold record
  rw [if_neg nonzero, amount, histogram]
  unfold bucket at count ⊢
  simp only [count, Option.bind_eq_bind, Option.bind_some, set_histogramOf]
  rfl

theorem rescan_eq {h : Nat → Nat} (histogram : s.histogram = histogramOf h) :
    ∃ found, Scanned h 30 found ∧
      let cleared := { s with histogram := histogramOf fun _ => 0 }
      s.rescan buf = some (if found.max < 6 then cleared
        else cleared.shrinkTo buf (waterMark found.zero found.max)) := by
  obtain ⟨found, eq, scanned⟩ := scan_histogramOf h
  refine ⟨found, scanned, ?_⟩
  obtain ⟨top, looked⟩ : ∃ top, found.histogram[found.max]? = some top := by
    rw [scanned.histogram]
    exact ⟨_, getElem?_histogramOf scanned.max_lt_30⟩
  simp only [rescan, histogram, eq, looked, Option.bind_eq_bind, Option.bind_some,
    scanned.cleared]
  split <;> rfl

variable (s sampleRate c) in
/-- Whole frames are buffered, and every count is of an amount that fits. -/
structure Inv : Prop where
  capacity : s.capacity = sampleRate * c * 3
  perSecond : s.perSecond = sampleRate * c
  whole : c ∣ s.samples.length
  fits : s.samples.length ≤ s.capacity
  histogram : ∃ h, s.histogram = histogramOf h ∧ ∀ i < 30, h i ≠ 0 → Attained sampleRate i
  having : ∀ n ∈ s.having, c ∣ n ∧ n ≤ s.capacity

theorem Inv.capacity_whole (inv : Inv s sampleRate c) : c ∣ s.capacity :=
  inv.capacity ▸ ⟨sampleRate * 3, by ring⟩

/-- An event that drops whole frames from the front is aligned. -/
theorem Inv.aligned (inv : Inv s sampleRate c) {e : Event} (valid : e.Whole c) {s' : State}
    (eq : s.step? buf e = some s') {n : Nat} (frames : c ∣ n)
    (dropped : s'.samples = (s.samples ++ s.pushed e).drop n) : s.Aligned buf c e := by
  have after : s.step buf e = s' := by simp [State.step, eq]
  have pushed : c ∣ (s.pushed e).length := by
    cases e with
    | appendPcm buffer =>
      simp only [State.pushed]
      split
      · exact valid
      · exact dvd_zero c
    | _ => exact dvd_zero c
  have total : c ∣ (s.samples ++ s.pushed e).length := by
    rw [List.length_append]
    exact Nat.dvd_add inv.whole pushed
  refine ⟨by simp [eq], inv.whole, inv.fits, ?_, ?_⟩
  · rw [after, dropped]
    exact List.drop_suffix _ _
  · rw [after, dropped, List.length_drop]
    exact Nat.dvd_sub total (Nat.dvd_sub total frames)

theorem Inv.drop (inv : Inv s sampleRate c) {n : Nat} (frames : c ∣ n) :
    Inv (s.skip buf n) sampleRate c :=
  { inv with
    whole := by
      rw [skip_eq, List.length_drop]
      exact Nat.dvd_sub inv.whole frames
    fits := by
      have := inv.fits
      simp only [skip_eq, List.length_drop]
      omega }

theorem Inv.appendPcm2 (inv : Inv s sampleRate c) {buffer : List Sample}
    (valid : c ∣ buffer.length) : ∃ s', s.appendPcm2 buf buffer = some s' ∧ Inv s' sampleRate c ∧
      ∃ n, c ∣ n ∧ s'.samples = (s.samples ++ buffer).drop n := by
  have total : c ∣ s.samples.length + buffer.length := Nat.dvd_add inv.whole valid
  have over' : c ∣ s.samples.length + buffer.length - s.capacity :=
    Nat.dvd_sub total inv.capacity_whole
  refine ⟨_, s.appendPcm2_eq buf buffer, ?_, _, over', rfl⟩
  exact
    { inv with
      whole := by
        rw [List.length_drop, List.length_append]
        exact Nat.dvd_sub total over'
      fits := by
        simp only [List.length_drop, List.length_append]
        omega
      having := fun n eq => by
        rw [← Option.some.inj eq]
        refine ⟨?_, Nat.min_le_right _ _⟩
        rcases Nat.le_total (s.samples.length + buffer.length) s.capacity with le | le
        · rwa [Nat.min_eq_left le]
        · rw [Nat.min_eq_right le]
          exact inv.capacity_whole }

theorem Inv.record (inv : Inv s sampleRate c) (rate : 0 < sampleRate) (positive : 0 < c)
    {having : Nat} (frames : c ∣ having) (fits : having ≤ s.capacity) :
    ∃ histogram, s.record having = some { s with histogram } ∧
      Inv { s with histogram } sampleRate c := by
  obtain ⟨h, histogram, attained⟩ := inv.histogram
  obtain ⟨n, rfl⟩ := frames
  have inside : n ≤ sampleRate * 3 := by
    refine Nat.le_of_mul_le_mul_left ?_ positive
    rw [inv.capacity] at fits
    calc c * n ≤ sampleRate * c * 3 := fits
      _ = c * (sampleRate * 3) := by ring
  rw [Nat.mul_comm]
  refine ⟨_, record_eq histogram inv.perSecond rate positive n, ?_⟩
  refine { inv with histogram := ⟨bumped h (bucket sampleRate n), rfl, fun i lt ne => ?_⟩ }
  unfold bumped at ne
  split at ne
  · rename_i eq
    exact ⟨n, inside, eq.symm⟩
  · exact attained i lt ne

theorem Inv.setTms (inv : Inv s sampleRate c) (tms : Int) : Inv { s with tms } sampleRate c :=
  { inv with }

theorem Inv.shrinkTo (inv : Inv s sampleRate c) {waterMark : Nat}
    (frames : skipOf s.capacity waterMark * 3 < s.capacity →
      c ∣ skipOf s.capacity waterMark) :
    Inv (s.shrinkTo buf waterMark) sampleRate c ∧
      ∃ n, c ∣ n ∧ (s.shrinkTo buf waterMark).samples = s.samples.drop n := by
  have fits := inv.fits
  unfold State.shrinkTo
  dsimp only
  split
  · have whole := frames (by omega)
    exact ⟨inv.drop whole, _, whole, by rw [skip_eq]⟩
  · exact ⟨inv, 0, dvd_zero c, rfl⟩

/-- A new look at the histogram skips whole frames. -/
theorem Inv.rescan (inv : Inv s sampleRate c) (skips : SkipsWhole sampleRate c) :
    ∃ s', s.rescan buf = some s' ∧ Inv s' sampleRate c ∧
      ∃ n, c ∣ n ∧ s'.samples = s.samples.drop n := by
  obtain ⟨h, histogram, attained⟩ := inv.histogram
  obtain ⟨found, scanned, eq⟩ := rescan_eq histogram
  have cleared : Inv { s with histogram := histogramOf fun _ => 0 } sampleRate c :=
    { inv with histogram := ⟨_, rfl, fun i _ ne => absurd rfl ne⟩ }
  refine ⟨_, eq, ?_⟩
  split
  · exact ⟨cleared, 0, dvd_zero c, rfl⟩
  · rename_i high
    obtain ⟨le, first⟩ := scanned.zero_le_max (by omega)
    have top := scanned.taken (by omega)
    have max_lt := scanned.max_lt_30
    refine cleared.shrinkTo fun room => ?_
    rw [show State.capacity { s with histogram := _ } = sampleRate * c * 3 from inv.capacity]
      at room ⊢
    exact skips _ _ (attained _ (by omega) first) (attained _ max_lt (by omega)) le (by omega) room

theorem Inv.tryShrink (inv : Inv s sampleRate c) (rate : 0 < sampleRate) (positive : 0 < c)
    (skips : SkipsWhole sampleRate c) {having : Nat} (frames : c ∣ having)
    (fits : having ≤ s.capacity) (now : Int) : ∃ s', s.tryShrink buf having now = some s' ∧
      Inv s' sampleRate c ∧ ∃ n, c ∣ n ∧ s'.samples = s.samples.drop n := by
  obtain ⟨histogram, eq, recorded⟩ := inv.record rate positive frames fits
  unfold State.tryShrink
  simp only [eq, Option.bind_eq_bind, Option.bind_some]
  split
  · exact ⟨_, rfl, recorded.setTms now, 0, dvd_zero c, rfl⟩
  · split
    · exact ⟨_, rfl, recorded, 0, dvd_zero c, rfl⟩
    · exact (recorded.setTms now).rescan skips

/-- **A step keeps the invariant**, does not panic and drops whole frames. -/
theorem Inv.step? (inv : Inv s sampleRate c) (rate : 0 < sampleRate) (positive : 0 < c)
    (skips : SkipsWhole sampleRate c) {e : Event} (valid : e.Whole c) :
    ∃ s', s.step? buf e = some s' ∧ Inv s' sampleRate c ∧
      ∃ n, c ∣ n ∧ s'.samples = (s.samples ++ s.pushed e).drop n := by
  have same : s.samples = (s.samples ++ []).drop 0 := by simp
  cases e with
  | appendPcm buffer =>
    cases having : s.having with
    | none => simpa [State.step?, having, State.pushed] using inv.appendPcm2 valid
    | some n =>
      exact ⟨s, by simp [State.step?, having], inv, 0, dvd_zero c, by simp [State.pushed, having]⟩
  | tryShrink now =>
    cases having : s.having with
    | none => exact ⟨s, by simp [State.step?, having], inv, 0, dvd_zero c, same⟩
    | some n =>
      obtain ⟨frames, fits⟩ := inv.having n having
      have taken : Inv { s with having := none } sampleRate c :=
        { inv with having := fun _ eq => by cases eq }
      simpa [State.step?, having, State.pushed] using
        taken.tryShrink rate positive skips frames fits now
  | play n =>
    have frames : c ∣ min n s.samples.length := by
      rcases Nat.le_total n s.samples.length with le | le
      · rw [Nat.min_eq_left le]
        exact valid
      · rw [Nat.min_eq_right le]
        exact inv.whole
    exact ⟨_, rfl, inv.drop frames, _, frames, by simp [State.pushed, skip_eq]⟩
  | setTms tms => exact ⟨_, rfl, inv.setTms tms, 0, dvd_zero c, same⟩

theorem inv_start (tms : Int) : Inv (start sampleRate c tms) sampleRate c where
  capacity := by
    simp only [start, audioBufferMs]
    omega
  perSecond := rfl
  whole := dvd_zero c
  fits := Nat.zero_le _
  histogram := ⟨fun _ => 0, rfl, fun i _ ne => absurd rfl ne⟩
  having _ eq := by cases eq

/-- In every run with whole frames the buffer stays aligned, if whole frames are skipped. -/
theorem run_aligned (rate : 0 < sampleRate) (positive : 0 < c) (skips : SkipsWhole sampleRate c)
    (tms : Int) {events : List Event} (valid : ∀ e ∈ events, e.Whole c) :
    Runs.Along (step buf) (Aligned buf · c) (start sampleRate c tms) events := by
  have frames : Runs.Along (step buf) (fun _ e => e.Whole c) (start sampleRate c tms) events :=
    Runs.along_of_forall_mem valid _
  refine Runs.along_of_invariant (I := fun s => Inv s sampleRate c) (fun s e inv whole => ?_)
    (fun s e inv whole => ?_) (inv_start tms) frames
  · obtain ⟨s', eq, inv', -⟩ := @Inv.step? buf _ _ _ inv rate positive skips _ whole
    simpa [step, eq] using inv'
  · obtain ⟨s', eq, -, n, frames, dropped⟩ := @Inv.step? buf _ _ _ inv rate positive skips _ whole
    exact inv.aligned whole eq frames dropped

variable (sampleRate c) in
/-- `n` samples and the counts `h`. -/
def measured (n : Nat) (h : Nat → Nat) (tms : Int) : State :=
  { samples := List.replicate n 0
    capacity := sampleRate * c * 3
    perSecond := sampleRate * c
    histogram := histogramOf h
    tms }

theorem start_eq_measured (tms : Int) :
    start sampleRate c tms = measured sampleRate c 0 (fun _ => 0) tms := by
  have inv : Inv (start sampleRate c tms) sampleRate c := inv_start tms
  have capacity : sampleRate * c * audioBufferMs / 1000 = sampleRate * c * 3 := inv.capacity
  simp only [start, capacity]
  rfl

variable (c) in
def append (frames : Nat) : Event := .appendPcm (List.replicate (frames * c) 0)

theorem step_append {h : Nat → Nat} {tms : Int} {frames : Nat} (fits : frames ≤ sampleRate * 3) :
    (measured sampleRate c 0 h tms).step buf (append c frames) =
      { measured sampleRate c (frames * c) h tms with having := some (frames * c) } := by
  have inside : frames * c ≤ sampleRate * c * 3 := by
    calc frames * c ≤ sampleRate * 3 * c := Nat.mul_le_mul_right c fits
      _ = sampleRate * c * 3 := by ring
  simp [step, step?, append, measured, appendPcm2_eq, inside]

/-- Less than twelve seconds after the first count. -/
theorem step_tryShrink_early (rate : 0 < sampleRate) (positive : 0 < c) {h : Nat → Nat}
    {tms : Int} (early : tms = 0 ∨ tms = 1) (frames : Nat) :
    ({ measured sampleRate c (frames * c) h tms with having := some (frames * c) } : State).step buf
        (.tryShrink 1) =
      measured sampleRate c (frames * c) (bumped h (bucket sampleRate frames)) 1 := by
  have shrunk : (measured sampleRate c (frames * c) h tms).tryShrink buf (frames * c) 1 =
      some (measured sampleRate c (frames * c) (bumped h (bucket sampleRate frames)) 1) := by
    have recorded := record_eq (s := measured sampleRate c (frames * c) h tms) rfl rfl rate
      positive frames
    simp only [State.tryShrink, recorded, Option.bind_eq_bind, Option.bind_some]
    rcases early with rfl | rfl <;> rfl
  exact congrArg (Option.getD · _) shrunk

theorem step_tryShrink_late (rate : 0 < sampleRate) (positive : 0 < c) {h : Nat → Nat}
    (frames : Nat) {shrunk : State}
    (rescan : (measured sampleRate c (frames * c) (bumped h (bucket sampleRate frames))
      12001).rescan buf = some shrunk) :
    ({ measured sampleRate c (frames * c) h 1 with having := some (frames * c) } : State).step buf
        (.tryShrink 12001) = shrunk := by
  have late : (measured sampleRate c (frames * c) h 1).tryShrink buf (frames * c) 12001 =
      some shrunk := by
    have recorded := record_eq (s := measured sampleRate c (frames * c) h 1) rfl rfl rate
      positive frames
    rw [← rescan]
    simp only [State.tryShrink, recorded, Option.bind_eq_bind, Option.bind_some]
    rfl
  exact congrArg (Option.getD · _) late

variable (c) in
/-- Frames come in, are counted, and are played. -/
def visit (frames : Nat) : List Event :=
  [append c frames, Event.tryShrink 1, Event.play (frames * c)]

theorem run_visit {h : Nat → Nat} (rate : 0 < sampleRate) (positive : 0 < c) {frames : Nat}
    (fits : frames ≤ sampleRate * 3) {tms : Int} (early : tms = 0 ∨ tms = 1) :
    Runs.run (step buf) (measured sampleRate c 0 h tms) (visit c frames) =
      measured sampleRate c 0 (bumped h (bucket sampleRate frames)) 1 := by
  simp only [visit, Runs.run_cons, Runs.run_nil, step_append fits,
    step_tryShrink_early rate positive early]
  simp [step, step?, skip_eq, measured]

variable (sampleRate c) in
/-- A little once, much three times, and then a full buffer. -/
def filled (low high : Nat) : List Event :=
  visit c low ++ visit c high ++ visit c high ++ visit c high ++ [append c (sampleRate * 3)]

theorem whole_of_mem_filled (low high : Nat) : ∀ e ∈ filled sampleRate c low high, e.Whole c := by
  have whole (frames : Nat) : ∀ e ∈ visit c frames, e.Whole c := by
    simp [visit, append, Event.Whole]
  intro e mem
  simp only [filled, List.mem_append, List.mem_singleton] at mem
  rcases mem with (((mem | mem) | mem) | mem) | rfl
  · exact whole low e mem
  · exact whole high e mem
  · exact whole high e mem
  · exact whole high e mem
  · simp [append, Event.Whole]

theorem bumped_apply (h : Nat → Nat) (b j : Nat) :
    bumped h b j = h j + if j = b then 1 else 0 := by
  unfold bumped
  split
  · rename_i eq
    rw [eq]
  · rfl

/-- The counts of `filled`. -/
def visited (low high : Nat) : Nat → Nat :=
  bumped (bumped (bumped (bumped (fun _ => 0) low) high) high) high

/-- The full buffer is counted too. -/
def counts (low high : Nat) : Nat → Nat := bumped (visited low high) 29

theorem counts_apply (low high j : Nat) : counts low high j =
    (if j = low then 1 else 0) + 3 * (if j = high then 1 else 0) + if j = 29 then 1 else 0 := by
  simp only [counts, visited, bumped_apply]
  omega

theorem scanned_counts {low high : Nat} (le : low ≤ high) (inside : high < 30) {found : Scan}
    (scanned : Scanned (counts low high) 30 found) (positive : 0 < high) :
    found.zero = low ∧ found.max = high := by
  have zero : found.zero = low := by
    have nonzero : counts low high low ≠ 0 := by simp [counts_apply]
    have below : found.zero ≤ low :=
      Nat.le_of_not_lt fun lt => nonzero (scanned.empty low lt)
    have taken := scanned.first (by omega)
    rw [counts_apply] at taken
    by_contra other
    refine taken ?_
    rw [if_neg other, if_neg (by omega), if_neg (by omega)]
  refine ⟨zero, ?_⟩
  have most := scanned.most high inside positive
  have three : 3 ≤ counts low high high := by
    rw [counts_apply, if_pos rfl]
    omega
  by_contra other
  have few : (if found.max = 0 then 0 else counts low high found.max) ≤ 2 := by
    split
    · omega
    · rw [counts_apply, if_neg other]
      split <;> split <;> omega
  omega

theorem bucket_full (rate : 0 < sampleRate) : bucket sampleRate (sampleRate * 3) = 29 := by
  have : sampleRate * 3 * 10 / sampleRate = 30 := by
    rw [show sampleRate * 3 * 10 = sampleRate * 30 by ring, Nat.mul_div_cancel_left _ rate]
  simp [bucket, this]

theorem run_filled (rate : 0 < sampleRate) (positive : 0 < c) {low high : Nat}
    (low_fits : low ≤ sampleRate * 3) (high_fits : high ≤ sampleRate * 3) :
    Runs.run (step buf) (start sampleRate c 0) (filled sampleRate c low high) =
      { measured sampleRate c (sampleRate * 3 * c)
          (visited (bucket sampleRate low) (bucket sampleRate high)) 1 with
        having := some (sampleRate * 3 * c) } := by
  rw [start_eq_measured, filled, Runs.run_append, Runs.run_append, Runs.run_append,
    Runs.run_append, run_visit rate positive low_fits (.inl rfl),
    run_visit rate positive high_fits (.inr rfl), run_visit rate positive high_fits (.inr rfl),
    run_visit rate positive high_fits (.inr rfl), Runs.run_cons, Runs.run_nil,
    step_append (Nat.le_refl _)]
  rfl

theorem rescan_counts {low high : Nat} (le : low ≤ high) (inside : high < 30) (six : 6 ≤ high)
    (n : Nat) : (measured sampleRate c n (counts low high) 12001).rescan buf =
      some ((measured sampleRate c n (fun _ => 0) 12001).shrinkTo buf (waterMark low high)) := by
  obtain ⟨found, scanned, eq⟩ :=
    rescan_eq (s := measured sampleRate c n (counts low high) 12001) rfl
  obtain ⟨zero, max⟩ := scanned_counts le inside scanned (by omega)
  have high_six : ¬ high < 6 := by omega
  simp only [zero, max, high_six, if_false] at eq
  exact eq

/-- **What `filled` leads to**: the skip that goes with the two buckets. -/
theorem step_filled (rate : 0 < sampleRate) (positive : 0 < c) {low high : Nat}
    (low_fits : low ≤ sampleRate * 3) (high_fits : high ≤ sampleRate * 3)
    (le : bucket sampleRate low ≤ bucket sampleRate high) (six : 6 ≤ bucket sampleRate high) :
    (Runs.run (step buf) (start sampleRate c 0) (filled sampleRate c low high)).step buf
        (.tryShrink 12001) =
      (measured sampleRate c (sampleRate * 3 * c) (fun _ => 0) 12001).shrinkTo buf
        (waterMark (bucket sampleRate low) (bucket sampleRate high)) := by
  rw [run_filled rate positive low_fits high_fits]
  refine step_tryShrink_late rate positive _ ?_
  rw [bucket_full rate]
  exact rescan_counts le (bucket_lt _ _) six _

/-- A skip that is not of whole frames happens. -/
theorem filled_not_aligned (rate : 0 < sampleRate) (positive : 0 < c) {low high : Nat}
    (low_fits : low ≤ sampleRate * 3) (high_fits : high ≤ sampleRate * 3)
    (le : bucket sampleRate low ≤ bucket sampleRate high) (six : 6 ≤ bucket sampleRate high)
    (room : skipOf (sampleRate * c * 3) (waterMark (bucket sampleRate low)
      (bucket sampleRate high)) * 3 < sampleRate * c * 3)
    (broken : ¬ c ∣ skipOf (sampleRate * c * 3) (waterMark (bucket sampleRate low)
      (bucket sampleRate high))) :
    ¬ Runs.Along (step buf) (Aligned buf · c) (start sampleRate c 0)
      (filled sampleRate c low high ++ [Event.tryShrink 12001]) := by
  intro aligned
  have removed := (Runs.along_snoc.mp aligned).2.removed
  rw [step_filled rate positive low_fits high_fits le six, run_filled rate positive low_fits
    high_fits] at removed
  have size : sampleRate * 3 * c = sampleRate * c * 3 := by ring
  have some' : 0 < skipOf (sampleRate * c * 3) (waterMark (bucket sampleRate low)
      (bucket sampleRate high)) :=
    Nat.pos_of_ne_zero fun none' => broken (none' ▸ dvd_zero c)
  have shrunk : ((measured sampleRate c (sampleRate * 3 * c) (fun _ => 0) 12001).shrinkTo buf
      (waterMark (bucket sampleRate low) (bucket sampleRate high))).samples.length =
        sampleRate * 3 * c - skipOf (sampleRate * c * 3) (waterMark (bucket sampleRate low)
          (bucket sampleRate high)) := by
    unfold shrinkTo
    dsimp only
    rw [if_pos ⟨by simpa [measured, size] using room, some'⟩]
    simp [skip_eq, measured]
  rw [shrunk] at removed
  simp only [pushed, List.append_nil, measured, List.length_replicate] at removed
  rw [Nat.sub_sub_self (by omega)] at removed
  exact broken removed

/-- **The buffer stays aligned in every run** with whole frames exactly if every skip is of
whole frames. -/
theorem aligned_iff (buf : RingBuf) (rate : 0 < sampleRate) (positive : 0 < c) :
    (∀ tms events, (∀ e ∈ events, Event.Whole c e) →
      Runs.Along (step buf) (Aligned buf · c) (start sampleRate c tms) events) ↔
        SkipsWhole sampleRate c := by
  refine ⟨fun aligned => ?_, fun skips tms events valid => ?_⟩
  · rintro _ _ ⟨low, low_fits, rfl⟩ ⟨high, high_fits, rfl⟩ le six skip room
    by_contra broken
    refine filled_not_aligned rate positive low_fits high_fits le six room broken
      (aligned 0 _ fun e mem => ?_)
    rcases List.mem_append.mp mem with mem | mem
    · exact whole_of_mem_filled low high e mem
    · rw [List.mem_singleton.mp mem]
      exact trivial
  · exact run_aligned rate positive skips tms valid

/-- One or two channels are always skipped together. -/
theorem skipsWhole_of_le_two (positive : 0 < c) (two : c ≤ 2) : SkipsWhole sampleRate c := by
  intro low high _ _ _ _ skip _
  have even : 2 ∣ skip := ⟨_, Nat.mul_comm _ _⟩
  rcases (by omega : c = 1 ∨ c = 2) with rfl | rfl
  · exact one_dvd _
  · exact even

/-- At 48 kHz every skip is of whole frames. -/
theorem skipsWhole_48000 : SkipsWhole 48000 c := by
  intro low high _ _ _ _ skip _
  have product : 48000 * c * 3 * waterMark low high =
      30 * 4 * (1200 * (c * waterMark low high)) := by ring
  have amount : skip = (1200 * (c * waterMark low high) + 1) / 2 * 2 := by
    simp only [skip, skipOf, product, Nat.mul_div_cancel_left _ (by omega : 0 < 30 * 4)]
  have even : skip = 1200 * (c * waterMark low high) := by omega
  exact ⟨1200 * waterMark low high, by rw [even]; ring⟩

/-- A ring buffer as `ringbuf` documents it. -/
def ringBuf : RingBuf where
  pushSliceOverwrite capacity samples buffer :=
    (samples ++ buffer).drop (samples.length + buffer.length - capacity)
  skip samples n := samples.drop n
  push_eq _ _ _ := rfl
  skip_eq _ _ := rfl

/-- Four channels at 44.1 kHz: 30870 samples are skipped. -/
theorem four_channels_not_aligned :
    ¬ ∀ c sampleRate, 1 ≤ c → c ≤ 8 → 0 < sampleRate → ∀ tms events,
      (∀ e ∈ events, Event.Whole c e) →
        Runs.Along (step ringBuf) (Aligned ringBuf · c) (start sampleRate c tms) events := by
  intro all
  have broken : ¬ Runs.Along (step ringBuf) (Aligned ringBuf · 4) (start 44100 4 0)
      (filled 44100 4 30870 30870 ++ [Event.tryShrink 12001]) :=
    filled_not_aligned (by decide) (by decide) (by decide) (by decide) (by decide) (by decide)
      (by decide) (by decide)
  refine broken (all 4 44100 (by decide) (by decide) (by decide) 0 _ fun e mem => ?_)
  rcases List.mem_append.mp mem with mem | mem
  · exact whole_of_mem_filled 30870 30870 e mem
  · rw [List.mem_singleton.mp mem]
    exact trivial

theorem stereo_aligned :
    Runs.Along (step ringBuf) (Aligned ringBuf · 2) (start 48000 2 5)
      [Event.appendPcm [1, 2, 3, 4], Event.tryShrink 9, Event.play 2, Event.tryShrink 20000] :=
  (aligned_iff ringBuf (by decide) (by decide)).mpr skipsWhole_48000 5 _ (by simp [Event.Whole])

end State
end CamelliaRemote.AudioBuffer
