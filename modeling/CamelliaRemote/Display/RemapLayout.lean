import CamelliaRemote.Lib.MachineInt
import Mathlib.Data.List.Pairwise
import Mathlib.Tactic.Linarith

/-!
Coordinates under a changed layout, `libs/scrap/src/wayland/display.rs`. A point of the layout
that the client knows is mapped into the same display of the layout there is. `none` is an
overflow of an `i32` or an `i64`.
-/

namespace CamelliaRemote.Display
open MachineInt

structure DisplayRect where
  name : String
  x : Int
  y : Int
  w : Int
  h : Int
  deriving DecidableEq

def DisplayRect.contains (r : DisplayRect) (x y : Int) : Option Bool :=
  if x < r.x then some false
  else do
    let right ← checkI32 (r.x + r.w)
    if right ≤ x ∨ y < r.y then some false
    else do
      let bottom ← checkI32 (r.y + r.h)
      some (y < bottom)

/-- `enumerate` and `find`, from an index. -/
def findContaining (x y : Int) : Nat → List DisplayRect → Option (Option (Nat × DisplayRect))
  | _, [] => some none
  | i, r :: rs => do
    let inside ← r.contains x y
    if inside then some (some (i, r)) else findContaining x y (i + 1) rs

def mapAxis (v baseOrigin baseExtent liveOrigin liveExtent : Int) : Option Int :=
  if baseExtent ≤ 1 ∨ liveExtent ≤ 1 then some liveOrigin
  else do
    let offset ← checkI32 (v - baseOrigin)
    let live ← checkI32 (liveExtent - 1)
    let product ← checkI64 (offset * live)
    let base ← checkI32 (baseExtent - 1)
    let quotient ← checkI64 (product.tdiv base)
    checkI32 (liveOrigin + asI32 quotient)

def remapToLiveLayout (x y : Int) (baseline live : List DisplayRect) : Option (Int × Int) := do
  match ← findContaining x y 0 baseline with
  | none => some (x, y)
  | some (bi, b) =>
    let matched :=
      if b.name.isEmpty then if baseline.length = live.length then live[bi]? else none
      else live.find? fun r => r.name = b.name
    match matched with
    | none => some (x, y)
    | some l =>
      let nx ← mapAxis x b.x b.w l.x l.w
      let ny ← mapAxis y b.y b.h l.y l.h
      some (nx, ny)

/-- The extents are not empty, and the edges are numbers of 32 bits. -/
structure DisplayRect.Fits (r : DisplayRect) : Prop where
  x : -2 ^ 31 ≤ r.x
  y : -2 ^ 31 ≤ r.y
  w : 1 ≤ r.w ∧ r.w < 2 ^ 31
  h : 1 ≤ r.h ∧ r.h < 2 ^ 31
  right : r.x + r.w < 2 ^ 31
  bottom : r.y + r.h < 2 ^ 31

structure Layout (rs : List DisplayRect) : Prop where
  fits : ∀ r ∈ rs, r.Fits
  names : rs.Pairwise fun r s => r.name ≠ "" → r.name ≠ s.name

def DisplayRect.Holds (r : DisplayRect) (x y : Int) : Prop :=
  (r.x ≤ x ∧ x < r.x + r.w) ∧ r.y ≤ y ∧ y < r.y + r.h

/-- The first display of the layout that the point is in. -/
structure FirstHolding (rs : List DisplayRect) (x y : Int) (bi : Nat) (b : DisplayRect) : Prop where
  found : rs[bi]? = some b
  holds : b.Holds x y
  first : ∀ j < bi, ∀ r, rs[j]? = some r → ¬ r.Holds x y

/-- The same display in the live layout, by its name, or without names by its place. -/
def SameDisplay (baseline live : List DisplayRect) (bi : Nat) (b l : DisplayRect) : Prop :=
  if b.name = "" then baseline.length = live.length ∧ live[bi]? = some l
  else l ∈ live ∧ l.name = b.name

/-- What is asked of the map of one axis, from a span to a span. -/
structure AxisMap (o e o' e' : Int) (f : Int → Int) : Prop where
  inside : ∀ v, o ≤ v → v < o + e → o' ≤ f v ∧ f v < o' + e'
  mono : ∀ v w, o ≤ v → v ≤ w → w < o + e → f v ≤ f w
  first : 1 < e → 1 < e' → f o = o'
  last : 1 < e → 1 < e' → f (o + e - 1) = o' + e' - 1
  translation : e = e' → ∀ v, o ≤ v → v < o + e → f v = v - o + o'

def scale (o e o' e' v : Int) : Int :=
  if e ≤ 1 ∨ e' ≤ 1 then o' else o' + (v - o) * (e' - 1) / (e - 1)

variable {o e o' e' v w : Int}

/-- A product of two spans and its quotient by the first. -/
theorem span_bounds (e' : Int) (he : 1 < e) (he' : 1 < e') (low : o ≤ v) (high : v < o + e) :
    0 ≤ (v - o) * (e' - 1) / (e - 1) ∧ (v - o) * (e' - 1) / (e - 1) ≤ e' - 1 ∧
      0 ≤ (v - o) * (e' - 1) ∧ (v - o) * (e' - 1) ≤ (e - 1) * (e' - 1) := by
  have product : 0 ≤ (v - o) * (e' - 1) := Int.mul_nonneg (by omega) (by omega)
  have most : (v - o) * (e' - 1) ≤ (e - 1) * (e' - 1) :=
    Int.mul_le_mul_of_nonneg_right (by omega) (by omega)
  refine ⟨Int.ediv_nonneg product (by omega), ?_, product, most⟩
  refine Int.ediv_le_of_le_mul (by omega) ?_
  rw [Int.mul_comm (e' - 1)]
  exact most

theorem axisMap_scale (o o' : Int) (he : 1 ≤ e) (he' : 1 ≤ e') :
    AxisMap o e o' e' (scale o e o' e') := by
  constructor
  · intro v low high
    unfold scale
    split
    · omega
    · obtain ⟨least, most, -⟩ := span_bounds e' (by omega) (by omega) low high
      omega
  · intro v w low le high
    unfold scale
    split
    · exact Int.le_refl _
    · refine Int.add_le_add_left (Int.ediv_le_ediv (by omega) ?_) _
      exact Int.mul_le_mul_of_nonneg_right (by omega) (by omega)
  · intro more more'
    rw [scale, if_neg (by omega), Int.sub_self, Int.zero_mul, Int.zero_ediv, Int.add_zero]
  · intro more more'
    have offset : o + e - 1 - o = e - 1 := by omega
    rw [scale, if_neg (by omega), offset, Int.mul_ediv_cancel_left _ (by omega)]
    omega
  · rintro rfl v low high
    unfold scale
    split
    · omega
    · rw [Int.mul_ediv_cancel _ (by omega)]
      omega

theorem mapAxis_eq (he : 1 ≤ e ∧ e < 2 ^ 31) (he' : 1 ≤ e' ∧ e' < 2 ^ 31) (ho' : -2 ^ 31 ≤ o')
    (edge' : o' + e' < 2 ^ 31) (low : o ≤ v) (high : v < o + e) :
    mapAxis v o e o' e' = some (scale o e o' e' v) := by
  unfold mapAxis scale
  split
  · rfl
  · obtain ⟨least, most, product, limit⟩ :=
      span_bounds e' (by omega) (by omega) low high
    have area : (e - 1) * (e' - 1) ≤ 2 ^ 31 * 2 ^ 31 :=
      Int.mul_le_mul (by omega) (by omega) (by omega) (by omega)
    have quotient : ((v - o) * (e' - 1)).tdiv (e - 1) = (v - o) * (e' - 1) / (e - 1) :=
      Int.tdiv_eq_ediv_of_nonneg product
    rw [checkI32_of_bounds (n := v - o) (by omega) (by omega),
      checkI32_of_bounds (n := e' - 1) (by omega) (by omega)]
    simp only [Option.bind_eq_bind, Option.bind_some]
    rw [checkI64_of_bounds (by omega) (by omega),
      checkI32_of_bounds (n := e - 1) (by omega) (by omega)]
    simp only [Option.bind_some, quotient]
    rw [checkI64_of_bounds (by omega) (by omega)]
    simp only [Option.bind_some]
    rw [asI32_of_bounds (by omega) (by omega), checkI32_of_bounds (by omega) (by omega)]

variable {x y : Int} {r b l : DisplayRect} {rs baseline live : List DisplayRect} {bi : Nat}

instance (r : DisplayRect) (x y : Int) : Decidable (r.Holds x y) :=
  inferInstanceAs (Decidable (_ ∧ _))

theorem contains_eq (fits : r.Fits) : r.contains x y = some (decide (r.Holds x y)) := by
  obtain ⟨lowX, lowY, extentX, extentY, right, bottom⟩ := fits
  unfold DisplayRect.contains
  by_cases left : x < r.x
  · have outside : ¬ r.Holds x y := fun holds => by
      have := holds.1.1
      omega
    rw [if_pos left, decide_eq_false outside]
  rw [if_neg left, checkI32_of_bounds (by omega) right]
  simp only [Option.bind_eq_bind, Option.bind_some]
  by_cases beyond : r.x + r.w ≤ x ∨ y < r.y
  · have outside : ¬ r.Holds x y := fun holds => by
      obtain ⟨⟨-, before⟩, below, -⟩ := holds
      omega
    rw [if_pos beyond, decide_eq_false outside]
  · rw [if_neg beyond, checkI32_of_bounds (by omega) bottom]
    have holds : r.Holds x y ↔ y < r.y + r.h := by
      rw [DisplayRect.Holds]
      omega
    simp only [Option.bind_some, holds]

theorem findContaining_none (fits : ∀ r ∈ rs, r.Fits) (outside : ∀ r ∈ rs, ¬ r.Holds x y)
    (i : Nat) : findContaining x y i rs = some none := by
  induction rs generalizing i with
  | nil => rfl
  | cons r rs ih =>
    rw [findContaining, contains_eq (fits r List.mem_cons_self),
      decide_eq_false (outside r List.mem_cons_self)]
    exact ih (fun s mem => fits s (List.mem_cons_of_mem r mem))
      (fun s mem => outside s (List.mem_cons_of_mem r mem)) (i + 1)

theorem findContaining_first (fits : ∀ r ∈ rs, r.Fits) (first : FirstHolding rs x y bi b)
    (i : Nat) : findContaining x y i rs = some (some (i + bi, b)) := by
  induction rs generalizing i bi with
  | nil => cases first.found
  | cons r rs ih =>
    rw [findContaining, contains_eq (fits r List.mem_cons_self)]
    cases bi with
    | zero =>
      obtain rfl : r = b := Option.some.inj first.found
      rw [decide_eq_true first.holds]
      rfl
    | succ bi =>
      have before := first.first 0 (Nat.succ_pos bi) r rfl
      rw [decide_eq_false before]
      have rest : FirstHolding rs x y bi b :=
        ⟨first.found, first.holds, fun j lt s found =>
          first.first (j + 1) (Nat.succ_lt_succ lt) s found⟩
      have found := ih (fun s mem => fits s (List.mem_cons_of_mem r mem)) rest (i + 1)
      rw [show i + (bi + 1) = i + 1 + bi by omega]
      exact found

theorem exists_firstHolding (mem : b ∈ rs) (holds : b.Holds x y) :
    ∃ bi c, FirstHolding rs x y bi c := by
  induction rs with
  | nil => cases mem
  | cons r rs ih =>
    by_cases here : r.Holds x y
    · exact ⟨0, r, rfl, here, fun j lt => absurd lt (Nat.not_lt_zero j)⟩
    · have later : b ∈ rs := (List.mem_cons.mp mem).resolve_left fun same => here (same ▸ holds)
      obtain ⟨bi, c, first⟩ := ih later
      refine ⟨bi + 1, c, first.found, first.holds, fun j lt s found => ?_⟩
      cases j with
      | zero =>
        obtain rfl : r = s := Option.some.inj found
        exact here
      | succ j => exact first.first j (Nat.lt_of_succ_lt_succ lt) s found

/-- What the code takes for the same display. -/
def matched (baseline live : List DisplayRect) (bi : Nat) (b : DisplayRect) : Option DisplayRect :=
  if b.name.isEmpty then if baseline.length = live.length then live[bi]? else none
  else live.find? fun r => r.name = b.name

theorem find_name {name : String} (some' : name ≠ "")
    (names : live.Pairwise fun r s => r.name ≠ "" → r.name ≠ s.name) (mem : l ∈ live)
    (same : l.name = name) : live.find? (fun r => r.name = name) = some l := by
  induction live with
  | nil => cases mem
  | cons r live ih =>
    obtain ⟨first, rest⟩ := List.pairwise_cons.mp names
    by_cases here : r = l
    · rw [List.find?_cons_of_pos (by simp [here, same]), here]
    · have later : l ∈ live := (List.mem_cons.mp mem).resolve_left (Ne.symm here)
      have differs : r.name ≠ name := by
        rintro rfl
        exact first l later some' same.symm
      rw [List.find?_cons_of_neg (by simp [differs])]
      exact ih rest later

/-- Names are not twice in a layout, so the first of a name is the only one. -/
theorem matched_eq_some (layout : Layout live) :
    matched baseline live bi b = some l ↔ SameDisplay baseline live bi b l := by
  unfold matched SameDisplay
  by_cases nameless : b.name = ""
  · rw [if_pos nameless, if_pos (by simp [nameless])]
    by_cases count : baseline.length = live.length
    · simp [count]
    · simp [count]
  · rw [if_neg nameless, if_neg (by simpa using nameless)]
    constructor
    · intro found
      exact ⟨List.mem_of_find?_eq_some found, by simpa using List.find?_some found⟩
    · rintro ⟨mem, same⟩
      exact find_name nameless layout.names mem same

theorem remap_eq (layout : Layout baseline) (first : FirstHolding baseline x y bi b) :
    remapToLiveLayout x y baseline live =
      (matched baseline live bi b).elim (some (x, y)) fun l =>
        (mapAxis x b.x b.w l.x l.w).bind fun nx =>
          (mapAxis y b.y b.h l.y l.h).bind fun ny => some (nx, ny) := by
  unfold remapToLiveLayout matched
  rw [findContaining_first layout.fits first, Nat.zero_add]
  simp only [Option.bind_eq_bind, Option.bind_some]
  generalize (if b.name.isEmpty then _ else _) = found
  cases found with
  | none => rfl
  | some l => rfl

theorem remap_matched (before : Layout baseline) (after : Layout live)
    (first : FirstHolding baseline x y bi b) (same : SameDisplay baseline live bi b l) :
    remapToLiveLayout x y baseline live =
      some (scale b.x b.w l.x l.w x, scale b.y b.h l.y l.h y) := by
  have mem : l ∈ live := by
    unfold SameDisplay at same
    split at same
    · exact List.mem_of_getElem? same.2
    · exact same.1
  have from' := before.fits b (List.mem_of_getElem? first.found)
  have to' := after.fits l mem
  obtain ⟨⟨left, right⟩, top, bottom⟩ := first.holds
  rw [remap_eq before first, (matched_eq_some after).mpr same]
  simp only [mapAxis_eq from'.w to'.w to'.x to'.right left right,
    mapAxis_eq from'.h to'.h to'.y to'.bottom top bottom, Option.elim_some, Option.bind_some]

/-- **Coordinates go where their display went**: a point of no display, or of one that has
no match, stays; from a display to its match there is a map of each axis that keeps to the
display, is monotone, takes the first and the last to the first and the last and is a shift
when the sizes are equal; so nothing moves in a layout that is the same; and nothing
overflows. -/
theorem remap_keeps_place (baseline live : List DisplayRect) (before : Layout baseline)
    (after : Layout live) :
    (∀ x y, (∀ b ∈ baseline, ¬ b.Holds x y) →
      remapToLiveLayout x y baseline live = some (x, y)) ∧
    (∀ x y bi b, FirstHolding baseline x y bi b → (∀ l, ¬ SameDisplay baseline live bi b l) →
      remapToLiveLayout x y baseline live = some (x, y)) ∧
    (∀ bi b l, baseline[bi]? = some b → SameDisplay baseline live bi b l →
      ∃ f g, AxisMap b.x b.w l.x l.w f ∧ AxisMap b.y b.h l.y l.h g ∧
        ∀ x y, FirstHolding baseline x y bi b →
          remapToLiveLayout x y baseline live = some (f x, g y) ∧ l.Holds (f x) (g y)) ∧
    ∀ x y, remapToLiveLayout x y baseline baseline = some (x, y) := by
  have outside : ∀ live x y, (∀ b ∈ baseline, ¬ b.Holds x y) →
      remapToLiveLayout x y baseline live = some (x, y) := by
    intro live x y outside
    unfold remapToLiveLayout
    rw [findContaining_none before.fits outside]
    rfl
  refine ⟨outside live, fun x y bi b first unmatched => ?_, fun bi b l found same => ?_,
    fun x y => ?_⟩
  · have none' : matched baseline live bi b = none := by
      rw [Option.eq_none_iff_forall_ne_some]
      exact fun l is => unmatched l ((matched_eq_some after).mp is)
    rw [remap_eq before first, none']
    rfl
  · have from' := before.fits b (List.mem_of_getElem? found)
    have to' : l.Fits := by
      unfold SameDisplay at same
      split at same
      · exact after.fits l (List.mem_of_getElem? same.2)
      · exact after.fits l same.1
    have across := axisMap_scale b.x l.x from'.w.1 to'.w.1
    have down := axisMap_scale b.y l.y from'.h.1 to'.h.1
    refine ⟨_, _, across, down, fun x y first => ⟨remap_matched before after first same, ?_⟩⟩
    obtain ⟨⟨left, right⟩, top, bottom⟩ := first.holds
    exact ⟨across.inside x left right, down.inside y top bottom⟩
  · by_cases somewhere : ∃ bi b, FirstHolding baseline x y bi b
    · obtain ⟨bi, b, first⟩ := somewhere
      have mem := List.mem_of_getElem? first.found
      have itself : SameDisplay baseline baseline bi b b := by
        unfold SameDisplay
        split
        · exact ⟨rfl, first.found⟩
        · exact ⟨mem, rfl⟩
      have fits := before.fits b mem
      obtain ⟨⟨left, right⟩, top, bottom⟩ := first.holds
      have across := (axisMap_scale b.x b.x fits.w.1 fits.w.1).translation rfl
      have down := (axisMap_scale b.y b.y fits.h.1 fits.h.1).translation rfl
      rw [remap_matched before before first itself, across x left right, down y top bottom]
      simp
    · exact outside baseline x y fun b mem holds => somewhere (exists_firstHolding mem holds)

def left : DisplayRect := ⟨"left", 0, 0, 4, 3⟩

def right : DisplayRect := ⟨"right", 4, 0, 2, 3⟩

def widened : DisplayRect := ⟨"left", -10, 0, 10, 5⟩

theorem remap_keeps_place_widened :
    remapToLiveLayout 5 5 [left, right] [widened] = some (5, 5) ∧
      remapToLiveLayout 4 0 [left, right] [widened] = some (4, 0) ∧
      (∃ f g, AxisMap 0 4 (-10) 10 f ∧ AxisMap 0 3 0 5 g ∧
        ∀ x y, FirstHolding [left, right] x y 0 left →
          remapToLiveLayout x y [left, right] [widened] = some (f x, g y) ∧
            widened.Holds (f x) (g y)) ∧
      remapToLiveLayout 3 2 [left, right] [left, right] = some (3, 2) := by
  have before : Layout [left, right] := by
    refine ⟨fun r mem => ?_, by decide⟩
    obtain rfl | rfl : r = left ∨ r = right := by simpa using mem
    · constructor <;> decide
    · constructor <;> decide
  have after : Layout [widened] := by
    refine ⟨fun r mem => ?_, List.pairwise_singleton _ _⟩
    obtain rfl : r = widened := by simpa using mem
    constructor <;> decide
  obtain ⟨outside, unmatched, maps, same⟩ :=
    remap_keeps_place [left, right] [widened] before after
  refine ⟨outside 5 5 (by decide), unmatched 4 0 1 right ⟨rfl, by decide, by decide⟩ ?_,
    maps 0 left widened rfl (by unfold SameDisplay; decide), same 3 2⟩
  rintro l ⟨mem, name⟩
  obtain rfl : l = widened := by simpa using mem
  exact absurd name (by decide)

end CamelliaRemote.Display
