import CamelliaRemote.Lib.Runs
import CamelliaRemote.Input.Keyboard

namespace CamelliaRemote.Input

open Runs

variable {D : Type} (p : Platform D) {s t u : Keyboard D}

/-- The physical key that the release of a record releases. -/
def recordDevice : KeysDown → Option D
  | .rdevKey raw => some (p.rdev (.rawKey raw))
  | .enigoKey key => (recordKeyToKey key).map p.enigo

/-- Some record names the key. -/
def Named (s : Keyboard D) (k : D) : Prop :=
  ∃ r ∈ s.keysDown.map Prod.fst, recordDevice p r = some k

/-- Every held key is recorded. -/
def Recorded (s : Keyboard D) : Prop := ∀ k ∈ s.held, Named p s k

/-- A key is held, and `r` is its only record. -/
def OnlyRecord (s : Keyboard D) (r : KeysDown) : Prop :=
  ∃ k ∈ s.held, recordDevice p r = some k ∧
    ∀ r' ∈ s.keysDown.map Prod.fst, recordDevice p r' = some k → r' = r

instance [DecidableEq D] (s : Keyboard D) (k : D) : Decidable (Named p s k) :=
  inferInstanceAs (Decidable (∃ r ∈ s.keysDown.map Prod.fst, recordDevice p r = some k))

instance [DecidableEq D] (s : Keyboard D) : Decidable (Recorded p s) :=
  inferInstanceAs (Decidable (∀ k ∈ s.held, Named p s k))

instance [DecidableEq D] (s : Keyboard D) (r : KeysDown) : Decidable (OnlyRecord p s r) :=
  inferInstanceAs (Decidable (∃ k ∈ s.held, recordDevice p r = some k ∧
    ∀ r' ∈ s.keysDown.map Prod.fst, recordDevice p r' = some k → r' = r))

/-! ## The events that lose track of a key -/

section Events

variable [DecidableEq D]

def isLegacy (evt : KeyEvent) : Bool := evt.mode ≠ some .map && evt.mode ≠ some .translate

/-- `press_modifiers` has a modifier to press. -/
def pressesModifier (s : Keyboard D) (modifiers : List Int) : Bool :=
  modifiers.any fun ck =>
    match controlKeyValueToKey ck with
    | some key => !getModifierState p s key && !(key = .alt && isAltgrPressed s)
    | none => false

/-- A function key goes down with a modifier that has to be pressed for it. -/
def FunctionKeyWithModifier (s : Keyboard D) (evt : KeyEvent) : Prop :=
  isLegacy evt ∧ evt.down ∧ isFunctionKey (getControlKeyValue evt) ∧
    pressesModifier p (releaseUnpressedModifiers p s evt) evt.modifiers

def sendsRawKey (evt : KeyEvent) : Bool :=
  match evt.mode, evt.union with
  | some .map, _ => true
  | some .translate, some (.chr _) => true
  | _, _ => false

/-- On Wayland, a raw keycode goes down that no record names. -/
def UnrecordedRawKey (s : Keyboard D) (evt : KeyEvent) : Prop :=
  p.isX11 = false ∧ evt.down ∧ sendsRawKey evt ∧
    ¬ Named p s (p.enigo (.raw (chr evt % 2 ^ 16)))

def typedAsKey (chr : Nat) : Bool := (charFromU32 chr).any isAsciiPrintable

/-- The record of a character that is not typed as a key is the only one of a
held key. -/
def ChrUntyped (s : Keyboard D) : Option KeyEvent.Union → Prop
  | some (.chr code) =>
    ¬ typedAsKey (code % 2 ^ 32) ∧ OnlyRecord p s (.enigoKey (recordOfChr (code % 2 ^ 32)))
  | _ => False

/-- On uinput, a character goes up that is not typed as a key, with no hotkey
modifier pressed and Shift released for it. -/
def DroppedChr (s : Keyboard D) (evt : KeyEvent) : Prop :=
  waylandUseUinput p ∧ isLegacy evt ∧ evt.down = false ∧ ¬ isHotkeyModifierPressed p s ∧
    ChrUntyped p (releaseShiftForCharInput p s) evt.union

/-- The number of a control key without an Enigo key is that of the only record of
a held key. -/
def ControlKeyUnmapped (s : Keyboard D) : Option KeyEvent.Union → Prop
  | some (.controlKey ck) =>
    ¬ isFunctionKey ck ∧ controlKeyValueToKey ck = none ∧
      OnlyRecord p s (.enigoKey (recordOfControlKey ck))
  | _ => False

/-- A control key without an Enigo key goes up. -/
def UnmappedControlKey (s : Keyboard D) (evt : KeyEvent) : Prop :=
  isLegacy evt ∧ evt.down = false ∧ ControlKeyUnmapped p s evt.union

def Defect (s : Keyboard D) (evt : KeyEvent) : Prop :=
  FunctionKeyWithModifier p s evt ∨ UnrecordedRawKey p s evt ∨ DroppedChr p s evt ∨
    UnmappedControlKey p s evt

def Tracked (s : Keyboard D) (e : Event) : Prop := s.exiting = false → ¬ Defect p s e.key

instance (s : Keyboard D) : ∀ payload, Decidable (ChrUntyped p s payload)
  | some (.chr _) => inferInstanceAs (Decidable (_ ∧ _))
  | some (.controlKey _) | some (.unicode _) | some (.seq _) | some (.win2winHotkey _) | none =>
    .isFalse id

instance (s : Keyboard D) : ∀ payload, Decidable (ControlKeyUnmapped p s payload)
  | some (.controlKey _) => inferInstanceAs (Decidable (_ ∧ _ ∧ _))
  | some (.chr _) | some (.unicode _) | some (.seq _) | some (.win2winHotkey _) | none =>
    .isFalse id

instance (s : Keyboard D) (evt : KeyEvent) : Decidable (Defect p s evt) :=
  inferInstanceAs (Decidable ((_ ∧ _ ∧ _ ∧ _) ∨ (_ ∧ _ ∧ _ ∧ ¬ _) ∨
    (_ ∧ _ ∧ _ ∧ ¬ _ ∧ ChrUntyped p (releaseShiftForCharInput p s) evt.union) ∨
      (_ ∧ _ ∧ ControlKeyUnmapped p s evt.union)))

instance (s : Keyboard D) (e : Event) : Decidable (Tracked p s e) :=
  inferInstanceAs (Decidable (s.exiting = false → ¬ Defect p s e.key))

end Events

/-! ## What only releases -/

/-- Keys may have gone up; nothing else changed. -/
structure Releases (s t : Keyboard D) : Prop where
  held : t.held ⊆ s.held
  keysDown : t.keysDown = s.keysDown

theorem Releases.refl (s : Keyboard D) : Releases s s := ⟨Finset.Subset.refl _, rfl⟩

theorem Releases.trans (first : Releases s t) (second : Releases t u) : Releases s u :=
  ⟨second.held.trans first.held, second.keysDown.trans first.keysDown⟩

@[simp] theorem clickChars_eq (s : Keyboard D) (text : String) : clickChars s text = s := by
  unfold clickChars
  induction text.toList with
  | nil => rfl
  | cons c cs ih => exact ih

@[simp] theorem LockModesHandler.drop_eq (handler : LockModesHandler) (s : Keyboard D) :
    handler.drop p s = s := by
  simp [LockModesHandler.drop, clickIf, keyClick]

section Releasing

variable [DecidableEq D]

theorem keyUp_releases (s : Keyboard D) (key : Key) : Releases s (keyUp p s key) :=
  ⟨Finset.erase_subset _ _, rfl⟩

theorem keyRelease_releases (s : Keyboard D) (key : RdevKey) : Releases s (keyRelease p s key) :=
  ⟨Finset.erase_subset _ _, rfl⟩

theorem fixOther_releases (modifiers : List Int) (ck : Int) (own key0 : ControlKey) (key1 : Key)
    (s : Keyboard D) : Releases s (fixOther p modifiers ck own key0 key1 s) := by
  unfold fixOther fixModifier
  split
  · split
    · exact keyUp_releases p s key1
    · exact .refl s
  · exact .refl s

theorem fixModifiers_releases (modifiers : List Int) (s : Keyboard D) (ck : Int) :
    Releases s (fixModifiers p modifiers s ck) := by
  unfold fixModifiers
  refine .trans ?_ (fixOther_releases p _ _ _ _ _ _)
  refine .trans ?_ (fixOther_releases p _ _ _ _ _ _)
  refine .trans ?_ (fixOther_releases p _ _ _ _ _ _)
  refine .trans ?_ (fixOther_releases p _ _ _ _ _ _)
  refine .trans ?_ (fixOther_releases p _ _ _ _ _ _)
  refine .trans ?_ (fixOther_releases p _ _ _ _ _ _)
  refine .trans ?_ (fixOther_releases p _ _ _ _ _ _)
  exact fixOther_releases p _ _ _ _ _ _

theorem releaseShift_releases (s : Keyboard D) (key : Key) (rdevKey : RdevKey) :
    Releases s (releaseShift p s key rdevKey) := by
  unfold releaseShift
  split
  · split
    · exact keyUp_releases p s key
    · exact keyRelease_releases p s rdevKey
  · exact .refl s

theorem releaseShiftForCharInput_releases (s : Keyboard D) :
    Releases s (releaseShiftForCharInput p s) := by
  unfold releaseShiftForCharInput
  split
  · exact .refl s
  · exact (releaseShift_releases p _ _ _).trans (releaseShift_releases p _ _ _)

theorem inputTextViaClipboardServer_releases (clipboardSet : Bool) (s : Keyboard D)
    (text : String) : Releases s (inputTextViaClipboardServer p clipboardSet s text) := by
  unfold inputTextViaClipboardServer
  split
  · exact .refl s
  · refine ⟨?_, rfl⟩
    intro k held
    simp only [keyUp, keyDown, Finset.mem_erase, Finset.mem_insert] at held
    obtain ⟨notShift, notInsert, rfl | rfl | held⟩ := held
    · exact absurd rfl notInsert
    · exact absurd rfl notShift
    · exact held

theorem processUnicode_releases (clipboardSet : Bool) (s : Keyboard D) (code : Nat) :
    Releases s (processUnicode p clipboardSet s code) := by
  unfold processUnicode
  split
  · exact .refl s
  · split
    · exact inputTextViaClipboardServer_releases p _ _ _
    · exact .refl s

theorem processSeq_releases (clipboardSet : Bool) (s : Keyboard D) (text : String) :
    Releases s (processSeq p clipboardSet s text) := by
  unfold processSeq
  split
  · exact inputTextViaClipboardServer_releases p _ _ _
  · exact .refl s

theorem translateSeq_releases (s : Keyboard D) (e : Event) (text : String) :
    Releases s (translateSeq p s e text) := by
  unfold translateSeq
  split
  · exact releaseShiftForCharInput_releases p s
  · split
    · split
      · rw [clickChars_eq]
        exact .refl s
      · dsimp only
        split
        · exact releaseShiftForCharInput_releases p s
        · exact (releaseShiftForCharInput_releases p s).trans
            (inputTextViaClipboardServer_releases p _ _ _)
    · rw [clickChars_eq]
      exact releaseShiftForCharInput_releases p s

end Releasing

/-! ## Covered keys -/

/-- Every held key is recorded or one of `extra`, which are released later. -/
def Covered (extra : List Key) (s : Keyboard D) : Prop :=
  ∀ k ∈ s.held, k ∈ extra.map p.enigo ∨ Named p s k

theorem covered_nil : Covered p [] s ↔ Recorded p s := by
  simp [Covered, Recorded]

variable {p} {extra : List Key}

theorem Releases.named (h : Releases s t) {k : D} : Named p t k ↔ Named p s k := by
  rw [Named, Named, h.keysDown]

theorem Covered.releases (covered : Covered p extra s) (h : Releases s t) : Covered p extra t := by
  intro k held
  rw [h.named]
  exact covered k (h.held held)

theorem named_recordPressedKey_true (r : KeysDown) (now : Nat) {k : D} :
    Named p (recordPressedKey s r true now) k ↔
      recordDevice p r = some k ∨ Named p s k := by
  simp only [Named, recordPressedKey, if_true, List.map_cons, List.mem_cons, List.mem_map,
    List.mem_filter, decide_eq_true_eq]
  constructor
  · rintro ⟨r', rfl | ⟨entry, ⟨mem, -⟩, rfl⟩, names⟩
    · exact .inl names
    · exact .inr ⟨entry.1, ⟨entry, mem, rfl⟩, names⟩
  · rintro (names | ⟨r', ⟨entry, mem, rfl⟩, names⟩)
    · exact ⟨r, .inl rfl, names⟩
    · by_cases same : entry.1 = r
      · exact ⟨r, .inl rfl, same ▸ names⟩
      · exact ⟨entry.1, .inr ⟨entry, ⟨mem, same⟩, rfl⟩, names⟩

theorem named_of_other {r r' : KeysDown} (now : Nat) {k : D} (mem : r' ∈ s.keysDown.map Prod.fst)
    (ne : r' ≠ r) (names : recordDevice p r' = some k) :
    Named p (recordPressedKey s r false now) k := by
  obtain ⟨entry, listed, rfl⟩ := List.mem_map.mp mem
  have kept : entry ∈ s.keysDown.filter (·.1 ≠ r) := by
    simpa [listed] using ne
  exact ⟨entry.1, List.mem_map.mpr ⟨entry, kept, rfl⟩, names⟩

/-- A removed record takes only its own key's name with it. -/
theorem named_recordPressedKey_false {r : KeysDown} (now : Nat) {k : D} (named : Named p s k)
    (other : recordDevice p r ≠ some k) : Named p (recordPressedKey s r false now) k := by
  obtain ⟨r', mem, names⟩ := named
  have ne : r' ≠ r := by
    rintro rfl
    exact other names
  exact named_of_other now mem ne names

theorem Covered.record (covered : Covered p extra s) (r : KeysDown) (now : Nat) :
    Covered p extra (recordPressedKey s r true now) := by
  intro k held
  rcases covered k held with later | named
  · exact .inl later
  · exact .inr ((named_recordPressedKey_true r now).mpr (.inr named))

/-- A recorded key goes down. -/
theorem Covered.press [DecidableEq D] (covered : Covered p extra s) {r : KeysDown} (now : Nat)
    {k : D} (names : recordDevice p r = some k) (keys : t.held ⊆ insert k s.held)
    (table : t.keysDown = (recordPressedKey s r true now).keysDown) : Covered p extra t := by
  intro k' held
  have same : Named p t k' ↔ Named p (recordPressedKey s r true now) k' := by
    rw [Named, Named, table]
  rw [same, named_recordPressedKey_true]
  rcases Finset.mem_insert.mp (keys held) with rfl | held
  · exact .inr (.inl names)
  · exact (covered k' held).imp_right .inr

/-- A key goes up with its record. -/
theorem Covered.release [DecidableEq D] (covered : Covered p extra s) {r : KeysDown} (now : Nat)
    {k : D} (names : recordDevice p r = some k) (keys : t.held ⊆ s.held.erase k)
    (table : t.keysDown = (recordPressedKey s r false now).keysDown) : Covered p extra t := by
  intro k' held
  obtain ⟨ne, held⟩ := Finset.mem_erase.mp (keys held)
  rcases covered k' held with later | named
  · exact .inl later
  · refine .inr ?_
    have other : recordDevice p r ≠ some k' := by
      rw [names]
      simpa using ne.symm
    rw [Named, table]
    exact named_recordPressedKey_false now named other

/-- A record goes alone, but not as the only one of a held key. -/
theorem Covered.unrecord (covered : Covered p extra s) {r : KeysDown} (now : Nat)
    (spare : ¬ OnlyRecord p s r) : Covered p extra (recordPressedKey s r false now) := by
  intro k held
  have held : k ∈ s.held := held
  rcases covered k held with later | named
  · exact .inl later
  · refine .inr ?_
    by_cases own : recordDevice p r = some k
    · have another : ∃ r' ∈ s.keysDown.map Prod.fst, recordDevice p r' = some k ∧ r' ≠ r := by
        by_contra none
        push Not at none
        exact spare ⟨k, held, own, none⟩
      obtain ⟨r', mem, names, ne⟩ := another
      exact named_of_other now mem ne names
    · exact named_recordPressedKey_false now named own

/-- Without its only record, a held key is not recorded. -/
theorem OnlyRecord.lost {r : KeysDown} (only : OnlyRecord p s r) (now : Nat) :
    ¬ Recorded p (recordPressedKey s r false now) := by
  obtain ⟨k, held, -, unique⟩ := only
  intro recorded
  obtain ⟨r', mem, names⟩ := recorded k held
  obtain ⟨entry, kept, rfl⟩ := List.mem_map.mp mem
  obtain ⟨listed, ne⟩ := List.mem_filter.mp kept
  exact absurd (unique entry.1 (List.mem_map_of_mem listed) names) (by simpa using ne)

/-- How an event should end: every held key is recorded, and what was pressed for
the event is not held. -/
def Ends (p : Platform D) (toRelease : List Key) (t : Keyboard D) : Prop :=
  Recorded p t ∧ ∀ key ∈ toRelease, p.enigo key ∉ t.held

theorem Recorded.ends (recorded : Recorded p s) : Ends p [] s :=
  ⟨recorded, fun _ mem => absurd mem List.not_mem_nil⟩

variable [DecidableEq D]

/-! ## Modifiers of one event -/

theorem pressModifiers_covered (modifiers : List Int) {toRelease : List Key}
    (covered : Covered p toRelease s) :
    Covered p (pressModifiers p modifiers s toRelease).2
      (pressModifiers p modifiers s toRelease).1 := by
  induction modifiers generalizing s toRelease with
  | nil => exact covered
  | cons ck modifiers ih =>
    rw [pressModifiers]
    split
    · exact ih covered
    · rename_i key _
      split
      · exact ih covered
      · split
        · exact ih covered
        · apply ih
          intro k held
          rcases Finset.mem_insert.mp held with rfl | held
          · exact .inl (by simp)
          · rcases covered k held with later | named
            · exact .inl (by simp only [List.map_append, List.mem_append, later, true_or])
            · exact .inr named

theorem syncModifiers_covered (evt : KeyEvent) (recorded : Recorded p s) :
    Covered p (syncModifiers p s evt).2 (syncModifiers p s evt).1 := by
  have covered := (covered_nil p).mpr recorded
  unfold syncModifiers
  split
  · exact pressModifiers_covered _ (covered.releases (fixModifiers_releases p _ _ _))
  · exact covered

/-- With every listed modifier pressed, nothing is pressed for the event. -/
theorem pressModifiers_none {modifiers : List Int}
    (none : pressesModifier p s modifiers = false) (toRelease : List Key) :
    pressModifiers p modifiers s toRelease = (s, toRelease) := by
  induction modifiers with
  | nil => rfl
  | cons ck modifiers ih =>
    simp only [pressesModifier, List.any_cons, Bool.or_eq_false_iff] at none
    obtain ⟨first, rest⟩ := none
    have ih := ih rest
    rw [pressModifiers]
    split
    · exact ih
    · rename_i key mapped
      rw [mapped] at first
      simp only [Bool.and_eq_false_iff, Bool.not_eq_false'] at first
      split
      · exact ih
      · rename_i up
        rw [if_pos (first.resolve_left up)]
        exact ih

theorem mem_releaseKeys (toRelease : List Key) {k : D} :
    k ∈ (releaseKeys p s toRelease).held ↔ k ∈ s.held ∧ k ∉ toRelease.map p.enigo := by
  induction toRelease generalizing s with
  | nil => simp [releaseKeys]
  | cons key toRelease ih =>
    rw [show releaseKeys p s (key :: toRelease) = releaseKeys p (keyUp p s key) toRelease from rfl,
      ih]
    simp only [keyUp, Finset.mem_erase, List.map_cons, List.mem_cons, not_or]
    tauto

theorem releaseKeys_keysDown (toRelease : List Key) :
    (releaseKeys p s toRelease).keysDown = s.keysDown := by
  induction toRelease generalizing s with
  | nil => rfl
  | cons key toRelease ih => exact ih

theorem Covered.ends {toRelease : List Key} (covered : Covered p toRelease s) :
    Ends p toRelease (releaseKeys p s toRelease) := by
  constructor
  · intro k held
    obtain ⟨held, kept⟩ := (mem_releaseKeys toRelease).mp held
    rw [Named, releaseKeys_keysDown]
    exact (covered k held).resolve_left kept
  · intro key mem held
    exact ((mem_releaseKeys toRelease).mp held).2 (List.mem_map_of_mem mem)

/-! ## Payloads -/

theorem isHotkeyModifierPressed_record (s : Keyboard D) (r : KeysDown) (down : Bool) (now : Nat) :
    isHotkeyModifierPressed p (recordPressedKey s r down now) = isHotkeyModifierPressed p s := rfl

/-- The key of a record goes down or up with it. -/
theorem Covered.follow (covered : Covered p extra s) {r : KeysDown} (down : Bool) (now : Nat)
    {key : Key} (names : recordDevice p r = some (p.enigo key)) :
    Covered p extra
      (if down then keyDown p (recordPressedKey s r down now) key
      else keyUp p (recordPressedKey s r down now) key) := by
  cases down with
  | true => exact covered.press now names (Finset.Subset.refl _) rfl
  | false => exact covered.release now names (Finset.Subset.refl _) rfl

theorem processControlKey_covered (covered : Covered p extra s) (ck : Int) (down : Bool) (now : Nat)
    (spare : down = false → controlKeyValueToKey ck = none →
      ¬ OnlyRecord p s (.enigoKey (recordOfControlKey ck))) :
    Covered p extra
      (processControlKey p (recordPressedKey s (.enigoKey (recordOfControlKey ck)) down now) ck
        down) := by
  unfold processControlKey
  split
  · rename_i key mapped
    have names : recordDevice p (.enigoKey (recordOfControlKey ck)) = some (p.enigo key) := by
      rw [recordDevice, recordKeyToKey_controlKey mapped, Option.map_some]
    exact covered.follow down now names
  · rename_i unmapped
    cases down with
    | true => exact covered.record _ now
    | false => exact covered.unrecord now (spare rfl unmapped)

theorem processChr_covered (covered : Covered p extra s) {chr : Nat} (u32 : chr < 2 ^ 32)
    (clipboardSet down : Bool) (now : Nat)
    (spare : down = false → waylandUseUinput p = true → isHotkeyModifierPressed p s = false →
      typedAsKey chr = false → ¬ OnlyRecord p s (.enigoKey (recordOfChr chr))) :
    Covered p extra
      (processChr p clipboardSet (recordPressedKey s (.enigoKey (recordOfChr chr)) down now) chr
        down) := by
  have names : recordDevice p (.enigoKey (recordOfChr chr)) =
      some (p.enigo (charValueToKey chr)) := by
    rw [recordDevice, recordKeyToKey_chr u32, Option.map_some]
  unfold processChr
  rw [isHotkeyModifierPressed_record]
  split
  · rename_i onUinput
    simp only [Bool.and_eq_true, Bool.not_eq_true'] at onUinput
    split
    · rename_i c valid
      have key : charValueToKey chr = .layout c := by
        rw [charValueToKey, valid, Option.getD_some]
      rw [key] at names
      split
      · exact covered.follow down now names
      · rename_i printable
        cases down with
        | true =>
          exact (covered.record _ now).releases (inputTextViaClipboardServer_releases p _ _ _)
        | false =>
          refine covered.unrecord now (spare rfl onUinput.1 onUinput.2 ?_)
          simpa [typedAsKey, valid] using printable
    · rename_i invalid
      cases down with
      | true => exact covered.record _ now
      | false =>
        refine covered.unrecord now (spare rfl onUinput.1 onUinput.2 ?_)
        simp [typedAsKey, invalid]
  · exact covered.follow down now names

/-! ## One event -/

theorem syncModifiers_up {evt : KeyEvent} (up : evt.down = false) :
    syncModifiers p s evt = (s, []) := by
  simp [syncModifiers, up]

/-- Outside the defect, a function key comes without a modifier to release. -/
theorem functionKey_ends (recorded : Recorded p s) {evt : KeyEvent} (legacy : isLegacy evt = true)
    (function : isFunctionKey (getControlKeyValue evt) = true)
    (sound : ¬ FunctionKeyWithModifier p s evt) :
    Ends p (syncModifiers p s evt).2 (syncModifiers p s evt).1 := by
  have covered := syncModifiers_covered evt recorded
  have nothing : (syncModifiers p s evt).2 = [] := by
    cases up : evt.down with
    | false => rw [syncModifiers_up up]
    | true =>
      have none : pressesModifier p (releaseUnpressedModifiers p s evt) evt.modifiers = false := by
        rw [Bool.eq_false_iff]
        intro presses
        exact sound ⟨legacy, up, function, presses⟩
      rw [syncModifiers, if_pos up, pressModifiers_none none]
  rw [nothing] at covered ⊢
  exact ((covered_nil p).mp covered).ends

theorem isHotkeyModifierPressed_of_release
    (pressed : isHotkeyModifierPressed p (releaseShiftForCharInput p s) = false) :
    isHotkeyModifierPressed p s = false := by
  rw [Bool.eq_false_iff]
  intro before
  rw [releaseShiftForCharInput, if_pos before, before] at pressed
  exact absurd pressed (by decide)

theorem legacyKeyboardMode_ends {e : Event} (recorded : Recorded p s)
    (legacy : isLegacy e.key = true) (sound : ¬ Defect p s e.key) :
    Ends p (syncModifiers p s e.key).2 (legacyKeyboardMode p s e) := by
  have covered := syncModifiers_covered e.key recorded
  simp only [Defect, not_or] at sound
  obtain ⟨noFunction, -, noDropped, noUnmapped⟩ := sound
  unfold legacyKeyboardMode
  dsimp only
  split
  · rename_i ck payload
    split
    · rename_i function
      refine functionKey_ends recorded legacy ?_ noFunction
      rw [getControlKeyValue, payload]
      exact function
    · rename_i function
      refine (processControlKey_covered covered ck e.key.down e.now ?_).ends
      intro up unmapped only
      rw [syncModifiers_up up] at only
      refine noUnmapped ⟨legacy, up, ?_⟩
      rw [payload]
      exact ⟨function, unmapped, only⟩
  · rename_i code payload
    have u32 : code % 2 ^ 32 < 2 ^ 32 := Nat.mod_lt _ (by decide)
    have shift := releaseShiftForCharInput_releases p (syncModifiers p s e.key).1
    refine (processChr_covered (covered.releases shift) u32 _ _ _ ?_).ends
    intro up uinput pressed typed only
    rw [syncModifiers_up up] at pressed only
    refine noDropped ⟨uinput, legacy, up, ?_, ?_⟩
    · rw [isHotkeyModifierPressed_of_release pressed]
      exact Bool.false_ne_true
    · rw [payload]
      refine ⟨?_, only⟩
      rw [typed]
      exact Bool.false_ne_true
  · have shift := releaseShiftForCharInput_releases p (syncModifiers p s e.key).1
    exact (covered.releases (shift.trans (processUnicode_releases p _ _ _))).ends
  · exact (covered.releases (processSeq_releases p _ _ _)).ends
  · exact covered.ends
  · exact covered.ends

theorem sendRawKey_recorded {e : Event} (recorded : Recorded p s)
    (raw : sendsRawKey e.key = true) (sound : ¬ Defect p s e.key) :
    Recorded p (sendRawKey p s e) := by
  have covered := (covered_nil p).mpr recorded
  rw [← covered_nil]
  unfold sendRawKey
  cases x11 : p.isX11 with
  | false =>
    rw [if_pos (by decide), waylandSendRawKey]
    split
    · rename_i down
      have named : Named p s (p.enigo (.raw (chr e.key % 2 ^ 16))) := by
        by_contra unnamed
        exact sound (.inr (.inl ⟨x11, down, raw, unnamed⟩))
      intro k held
      rcases Finset.mem_insert.mp held with rfl | held
      · exact .inr named
      · exact covered k held
    · exact covered.releases (keyUp_releases p s _)
  | true =>
    rw [if_neg (by decide), simRdevRawkeyPosition]
    cases e.key.down with
    | true =>
      exact covered.press (r := .rdevKey (.linuxXorgKeycode (chr e.key))) e.now rfl
        (Finset.Subset.refl _) rfl
    | false =>
      exact covered.release (r := .rdevKey (.linuxXorgKeycode (chr e.key))) e.now rfl
        (Finset.Subset.refl _) rfl

theorem translateKeyboardMode_recorded {e : Event} (recorded : Recorded p s)
    (translate : e.key.mode = some .translate) (sound : ¬ Defect p s e.key) :
    Recorded p (translateKeyboardMode p s e) := by
  have covered := (covered_nil p).mpr recorded
  unfold translateKeyboardMode
  split
  · exact (covered_nil p).mp (covered.releases (translateSeq_releases p s e _))
  · rename_i code payload
    refine sendRawKey_recorded recorded ?_ sound
    rw [sendsRawKey, translate, payload]
  all_goals exact recorded

@[simp] theorem LockModesHandler.new_fst (s : Keyboard D) (evt : KeyEvent) (isNumpadKey : Bool) :
    (LockModesHandler.new p s evt isNumpadKey).1 = s := by
  simp [LockModesHandler.new, clickIf, keyClick]

theorem handleKey_eq (s : Keyboard D) (e : Event) :
    handleKey p s e = if s.exiting then s else keyboardMode p s e := by
  unfold handleKey
  split
  · rfl
  · split
    · rfl
    · simp

theorem keyboardMode_legacy {e : Event} (legacy : isLegacy e.key = true) :
    keyboardMode p s e = legacyKeyboardMode p s e := by
  simp only [isLegacy, Bool.and_eq_true, decide_eq_true_eq] at legacy
  unfold keyboardMode
  split
  · exact absurd ‹_› legacy.1
  · exact absurd ‹_› legacy.2
  · rfl

/-- What `press_modifiers` presses while `e` is handled. -/
def pressedModifiers (p : Platform D) (s : Keyboard D) (e : Event) : List Key :=
  if s.exiting || !isLegacy e.key then [] else (syncModifiers p s e.key).2

/-- An event outside the defect ends as it should. -/
theorem handleKey_ends {e : Event} (recorded : Recorded p s) (tracked : Tracked p s e) :
    Ends p (pressedModifiers p s e) (handleKey p s e) := by
  rw [handleKey_eq, pressedModifiers]
  cases exiting : s.exiting with
  | true =>
    simp only [Bool.true_or, if_true]
    exact recorded.ends
  | false =>
    have sound := tracked exiting
    simp only [Bool.false_or, Bool.false_eq_true, if_false, Bool.not_eq_true']
    by_cases map : e.key.mode = some .map
    · have legacy : isLegacy e.key = false := by simp [isLegacy, map]
      have raw : sendsRawKey e.key = true := by rw [sendsRawKey, map]
      rw [if_pos legacy, keyboardMode, map]
      exact (sendRawKey_recorded recorded raw sound).ends
    by_cases translate : e.key.mode = some .translate
    · have legacy : isLegacy e.key = false := by simp [isLegacy, translate]
      rw [if_pos legacy, keyboardMode, translate]
      exact (translateKeyboardMode_recorded recorded translate sound).ends
    have legacy : isLegacy e.key = true := by simp [isLegacy, map, translate]
    rw [if_neg (by simp [legacy]), keyboardMode_legacy legacy]
    exact legacyKeyboardMode_ends recorded legacy sound

/-! ## The defect loses a key -/

theorem pressModifiers_pressed (modifiers : List Int) {toRelease : List Key}
    (pressed : ∀ key ∈ toRelease, p.enigo key ∈ s.held) :
    ∀ key ∈ (pressModifiers p modifiers s toRelease).2,
      p.enigo key ∈ (pressModifiers p modifiers s toRelease).1.held := by
  induction modifiers generalizing s toRelease with
  | nil => exact pressed
  | cons ck modifiers ih =>
    rw [pressModifiers]
    split
    · exact ih pressed
    · rename_i key _
      split
      · exact ih pressed
      · split
        · exact ih pressed
        · apply ih
          intro key' mem
          rcases List.mem_append.mp mem with mem | mem
          · exact Finset.mem_insert_of_mem (pressed key' mem)
          · rw [List.mem_singleton.mp mem]
            exact Finset.mem_insert_self _ _

theorem pressModifiers_extends (modifiers : List Int) (toRelease : List Key) :
    toRelease <+: (pressModifiers p modifiers s toRelease).2 := by
  induction modifiers generalizing s toRelease with
  | nil => exact List.prefix_rfl
  | cons ck modifiers ih =>
    rw [pressModifiers]
    split
    · exact ih toRelease
    · split
      · exact ih toRelease
      · split
        · exact ih toRelease
        · exact (List.prefix_append _ _).trans (ih _)

theorem pressModifiers_some {modifiers : List Int}
    (presses : pressesModifier p s modifiers = true) (toRelease : List Key) :
    toRelease.length < (pressModifiers p modifiers s toRelease).2.length := by
  induction modifiers with
  | nil => simp [pressesModifier] at presses
  | cons ck modifiers ih =>
    simp only [pressesModifier, List.any_cons, Bool.or_eq_true] at presses
    rw [pressModifiers]
    split
    · rename_i unmapped
      exact ih (presses.resolve_left (by simp [unmapped]))
    · rename_i key mapped
      rw [mapped] at presses
      simp only [Bool.and_eq_true, Bool.not_eq_true'] at presses
      split
      · rename_i down
        exact ih (presses.resolve_left (by simp [down]))
      · split
        · rename_i altgr
          exact ih (presses.resolve_left (by simp [altgr]))
        · have extends_ := (pressModifiers_extends (p := p) (s := keyDown p s key) modifiers
            (toRelease ++ [key])).length_le
          rw [List.length_append, List.length_singleton] at extends_
          omega

theorem functionKey_stuck {e : Event} (defect : FunctionKeyWithModifier p s e.key) :
    ¬ Ends p (syncModifiers p s e.key).2 (legacyKeyboardMode p s e) := by
  obtain ⟨-, down, function, presses⟩ := defect
  have sync : syncModifiers p s e.key =
      pressModifiers p e.key.modifiers (releaseUnpressedModifiers p s e.key) [] := by
    rw [syncModifiers, if_pos down]
  have some := pressModifiers_some presses []
  have pressed := pressModifiers_pressed (p := p) (s := releaseUnpressedModifiers p s e.key)
    e.key.modifiers (fun _ mem => absurd mem List.not_mem_nil)
  rw [← sync] at some pressed
  have returned : legacyKeyboardMode p s e = (syncModifiers p s e.key).1 := by
    unfold legacyKeyboardMode
    dsimp only
    cases payload : e.key.union with
    | none => simp [getControlKeyValue, payload, isFunctionKey, ControlKey.value] at function
    | some payload' =>
      cases payload' with
      | controlKey ck =>
        rw [getControlKeyValue, payload] at function
        exact if_pos function
      | _ => simp [getControlKeyValue, payload, isFunctionKey, ControlKey.value] at function
  rintro ⟨-, released⟩
  obtain ⟨key, mem⟩ := List.exists_mem_of_length_pos some
  rw [returned] at released
  exact released key mem (pressed key mem)

theorem rawKey_stuck {e : Event} (defect : UnrecordedRawKey p s e.key) :
    ¬ Recorded p (keyboardMode p s e) := by
  obtain ⟨wayland, down, raw, unnamed⟩ := defect
  have sent : keyboardMode p s e = keyDown p s (.raw (chr e.key % 2 ^ 16)) := by
    have send : sendRawKey p s e = keyDown p s (.raw (chr e.key % 2 ^ 16)) := by
      rw [sendRawKey, if_pos (by simp [wayland]), waylandSendRawKey, if_pos down]
    rw [← send]
    unfold sendsRawKey at raw
    unfold keyboardMode
    split at raw
    · rename_i map
      rw [map]
      rfl
    · rename_i translate payload
      rw [translate]
      dsimp only
      rw [translateKeyboardMode, payload]
    · exact absurd raw (by decide)
  intro recorded
  rw [sent] at recorded
  exact unnamed (recorded _ (Finset.mem_insert_self _ _))

theorem Releases.getModifierState {s t : Keyboard D} (h : Releases s t) {key : Key}
    (up : getModifierState p s key = false) : getModifierState p t key = false := by
  have read : ∀ key, getKeyState p s key = false → getKeyState p t key = false := by
    intro key up
    simp only [getKeyState, decide_eq_false_iff_not] at up ⊢
    exact fun held => up (h.held held)
  unfold Input.getModifierState at up ⊢
  cases key <;> simp only [Bool.or_eq_false_iff] at up ⊢ <;>
    first
    | exact ⟨read _ up.1, read _ up.2⟩
    | exact read _ up

theorem Releases.isHotkeyModifierPressed {s t : Keyboard D} (h : Releases s t)
    (up : isHotkeyModifierPressed p s = false) : isHotkeyModifierPressed p t = false := by
  simp only [Input.isHotkeyModifierPressed, Bool.or_eq_false_iff] at up ⊢
  obtain ⟨⟨⟨⟨⟨control, rightControl⟩, alt⟩, rightAlt⟩, metaKey⟩, rWin⟩ := up
  exact ⟨⟨⟨⟨⟨h.getModifierState control, h.getModifierState rightControl⟩,
    h.getModifierState alt⟩, h.getModifierState rightAlt⟩, h.getModifierState metaKey⟩,
    h.getModifierState rWin⟩

theorem chr_stuck {e : Event} (defect : DroppedChr p s e.key) :
    ¬ Recorded p (legacyKeyboardMode p s e) := by
  obtain ⟨uinput, -, up, unpressed, untyped⟩ := defect
  cases payload : e.key.union with
  | none =>
    rw [payload] at untyped
    exact untyped.elim
  | some payload' =>
    rw [payload] at untyped
    cases payload' with
    | chr code =>
      obtain ⟨untyped, only⟩ := untyped
      have unpressed := (releaseShiftForCharInput_releases p s).isHotkeyModifierPressed
        (by simpa using unpressed)
      have dropped : legacyKeyboardMode p s e =
          recordPressedKey (releaseShiftForCharInput p s)
            (.enigoKey (recordOfChr (code % 2 ^ 32))) false e.now := by
        unfold legacyKeyboardMode
        rw [syncModifiers_up up, payload, up]
        dsimp only [releaseKeys, List.foldl_nil]
        rw [processChr, isHotkeyModifierPressed_record, unpressed, uinput, if_pos (by decide)]
        unfold typedAsKey at untyped
        split
        · rename_i c valid
          rw [valid, Option.any_some] at untyped
          rw [if_neg untyped, if_neg (by decide)]
        · rfl
      rw [dropped]
      exact only.lost e.now
    | _ => exact untyped.elim

theorem controlKey_stuck {e : Event} (defect : UnmappedControlKey p s e.key) :
    ¬ Recorded p (legacyKeyboardMode p s e) := by
  obtain ⟨-, up, unmapped⟩ := defect
  cases payload : e.key.union with
  | none =>
    rw [payload] at unmapped
    exact unmapped.elim
  | some payload' =>
    rw [payload] at unmapped
    cases payload' with
    | controlKey ck =>
      obtain ⟨function, unmapped, only⟩ := unmapped
      have dropped : legacyKeyboardMode p s e =
          recordPressedKey s (.enigoKey (recordOfControlKey ck)) false e.now := by
        unfold legacyKeyboardMode
        rw [syncModifiers_up up, payload, up]
        dsimp only [releaseKeys, List.foldl_nil]
        rw [if_neg function, processControlKey, unmapped]
      rw [dropped]
      exact only.lost e.now
    | _ => exact unmapped.elim

/-- An event of the defect does not end as it should. -/
theorem defect_stuck {e : Event} (exiting : s.exiting = false) (defect : Defect p s e.key) :
    ¬ Ends p (pressedModifiers p s e) (handleKey p s e) := by
  rw [handleKey_eq, exiting, if_neg (by decide)]
  rcases defect with defect | defect | defect | defect
  · have legacy := defect.1
    rw [keyboardMode_legacy legacy, pressedModifiers, exiting, legacy, if_neg (by decide)]
    exact functionKey_stuck defect
  · exact fun ends => rawKey_stuck defect ends.1
  · rw [keyboardMode_legacy defect.2.1]
    exact fun ends => chr_stuck defect ends.1
  · rw [keyboardMode_legacy defect.1]
    exact fun ends => controlKey_stuck defect ends.1

/-! ## Reset -/

/-- A record's release takes its key up and changes nothing else. -/
theorem mem_releaseRecordKey (r : KeysDown) {k : D} :
    k ∈ (releaseRecordKey p s r).held ↔ k ∈ s.held ∧ recordDevice p r ≠ some k := by
  cases r with
  | rdevKey raw =>
    simp only [releaseRecordKey, keyRelease, Finset.mem_erase, recordDevice, ne_eq,
      Option.some.injEq]
    tauto
  | enigoKey key =>
    cases named : recordKeyToKey key with
    | none => simp [releaseRecordKey, recordDevice, named]
    | some key =>
      simp only [releaseRecordKey, keyUp, recordDevice, named, Finset.mem_erase, Option.map_some,
        ne_eq, Option.some.injEq]
      tauto

theorem mem_fixKeyDownTimeout (now : Nat) (cloned : List (KeysDown × Nat)) {k : D} :
    k ∈ (fixKeyDownTimeout p true now cloned s).held ↔
      k ∈ s.held ∧ ∀ r ∈ cloned.map Prod.fst, recordDevice p r ≠ some k := by
  induction cloned generalizing s with
  | nil => simp [fixKeyDownTimeout]
  | cons entry cloned ih =>
    have step : fixKeyDownTimeout p true now (entry :: cloned) s =
        fixKeyDownTimeout p true now cloned
          (releaseRecordKey p (recordPressedKey s entry.1 false now) entry.1) := rfl
    rw [step, ih, mem_releaseRecordKey]
    simp only [recordPressedKey, List.map_cons, List.forall_mem_cons]
    tauto

/-- A reset in any order of the table leaves no recorded key held. -/
theorem Recorded.reset (recorded : Recorded p s) (now : Nat) {cloned : List (KeysDown × Nat)}
    (order : cloned.Perm s.keysDown) : (fixKeyDownTimeout p true now cloned s).held = ∅ := by
  rw [Finset.eq_empty_iff_forall_notMem]
  intro k held
  obtain ⟨held, unnamed⟩ := (mem_fixKeyDownTimeout now cloned).mp held
  obtain ⟨r, mem, names⟩ := recorded k held
  exact unnamed r ((order.map Prod.fst).mem_iff.mpr mem) names

/-! ## Runs -/

/-- What is asked of a run, and of a reset after it. -/
structure NoKeyStuck (p : Platform D) (s : Keyboard D) (es : List Event) : Prop where
  recorded : Recorded p (run (handleKey p) s es)
  released : Along (handleKey p)
    (fun s e => ∀ key ∈ pressedModifiers p s e, p.enigo key ∉ (handleKey p s e).held) s es
  reset : ∀ now cloned, cloned.Perm (run (handleKey p) s es).keysDown →
    (fixKeyDownTimeout p true now cloned (run (handleKey p) s es)).held = ∅

theorem noKeyStuck_of_tracked {es : List Event} (start : s.held = ∅)
    (tracked : Along (handleKey p) (Tracked p) s es) : NoKeyStuck p s es := by
  have initial : Recorded p s := by
    intro k held
    rw [start] at held
    exact absurd held (Finset.notMem_empty k)
  have keep : ∀ s e, Recorded p s → Tracked p s e → Recorded p (handleKey p s e) :=
    fun s e recorded tracked => (handleKey_ends recorded tracked).1
  have recorded := invariant keep initial tracked
  exact {
    recorded := recorded
    released := along_of_invariant keep
      (fun s e recorded tracked => (handleKey_ends recorded tracked).2) initial tracked
    reset := fun now cloned order => recorded.reset now order }

/-- **No key stays stuck.** From a keyboard with nothing held: at every moment of
a run every held key is recorded, no modifier is held after the event it was
pressed for, and a reset leaves no key held, if and only if every event of the
run is outside the defect. -/
theorem no_key_stuck_iff (p : Platform D) {s : Keyboard D} (start : s.held = ∅)
    (es : List Event) :
    (∀ past, past <+: es → NoKeyStuck p s past) ↔ Along (handleKey p) (Tracked p) s es := by
  constructor
  · intro good
    induction es using List.reverseRecOn with
    | nil => trivial
    | append_singleton es e ih =>
      have earlier := ih fun past inside => good past (inside.trans (List.prefix_append es [e]))
      have last := good (es ++ [e]) List.prefix_rfl
      refine along_snoc.mpr ⟨earlier, fun exiting defect => ?_⟩
      have recorded := last.recorded
      rw [run_append] at recorded
      exact defect_stuck exiting defect ⟨recorded, (along_snoc.mp last.released).2⟩
  · rintro tracked past ⟨rest, rfl⟩
    exact noKeyStuck_of_tracked start (along_append.mp tracked).1

/-! Concrete keyboards, on which every name is a key of its own. -/

def keyboardOn (isX11 : Bool) : Platform (Key ⊕ RdevKey) where
  enigo := .inl
  rdev := .inr
  isX11 := isX11
  isServer := true
  linuxKeyFromCode := .other

def idle : Keyboard (Key ⊕ RdevKey) := ⟨∅, [], false⟩

def controlKeyEvent (down : Bool) (ck : Int) (modifiers : List Int) : Event where
  key := { down := down, union := some (.controlKey ck), modifiers := modifiers }
  now := 0
  clipboardSet := true

def chrEvent (mode : KeyboardMode) (down : Bool) (chr : Nat) (modifiers : List Int) : Event where
  key := { down := down, union := some (.chr chr), modifiers := modifiers, mode := some mode }
  now := 0
  clipboardSet := true

/-- Alt+F4 with Alt pressed for it, a held Control and a held raw key. -/
theorem no_key_stuck_shortcut :
    let es := [controlKeyEvent true 15 [1], controlKeyEvent false 15 [], chrEvent .map true 38 [],
      controlKeyEvent true 4 []]
    pressedModifiers (keyboardOn true) idle (controlKeyEvent true 15 [1]) = [.alt] ∧
      (run (handleKey (keyboardOn true)) idle es).held =
        {.inl .control, .inr (.rawKey (.linuxXorgKeycode 38))} ∧
      ∀ past, past <+: es → NoKeyStuck (keyboardOn true) idle past :=
  ⟨by decide +kernel, by decide +kernel,
    (no_key_stuck_iff (keyboardOn true) rfl _).mpr (by decide +kernel)⟩

/-- Each kind of defect leaves a key stuck: Ctrl+Alt+Del with Control pressed for
it, a raw key on Wayland, a character pressed with Control and released without
it, and an unknown control key with the number of a held character's record. -/
theorem defects_leave_a_key_stuck :
    ¬ NoKeyStuck (keyboardOn true) idle [controlKeyEvent true 100 [4]] ∧
      ¬ NoKeyStuck (keyboardOn false) idle [chrEvent .map true 38 []] ∧
      ¬ NoKeyStuck (keyboardOn false) idle [controlKeyEvent true 4 [],
        chrEvent .legacy true 233 [4], controlKeyEvent false 4 [], chrEvent .legacy false 233 []] ∧
      ¬ NoKeyStuck (keyboardOn true) idle [chrEvent .legacy true 97 [],
        controlKeyEvent false (97 + 9999) []] := by
  refine ⟨fun h => ?_, fun h => ?_, fun h => ?_, fun h => ?_⟩
  · exact absurd h.released (by decide +kernel)
  · exact absurd h.recorded (by decide +kernel)
  · exact absurd h.recorded (by decide +kernel)
  · exact absurd h.recorded (by decide +kernel)

end CamelliaRemote.Input
