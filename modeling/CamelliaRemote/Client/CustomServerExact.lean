import CamelliaRemote.Client.NameFields
import Mathlib.Tactic.IntervalCases

namespace CamelliaRemote.Custom
open Lowercase

variable {t : Tables} {f : Formats} {s w p z b : List Char}

def exeEnding : List Char := ".exe".toList

theorem split_of_suffix (h : w <:+ s.map Char.toLower) :
    ∃ b e, s = b ++ e ∧ e.map Char.toLower = w := by
  obtain ⟨front, whole⟩ := h
  obtain ⟨b, e, rfl, -, same⟩ := List.map_eq_append_iff.mp whole.symm
  exact ⟨b, e, rfl, same⟩

/-- Text that is ASCII in lowercase has as many bytes as characters. -/
theorem byteLen_of_map (ascii : ∀ c ∈ w, c.toNat < 128) (same : s.map Char.toLower = w) :
    byteLen s = w.length := by
  rw [byteLen_ascii, ← same, List.length_map]
  intro c mem
  exact ascii_of_toLower (ascii _ (same ▸ List.mem_map_of_mem mem))

theorem exe_suffix (t : Tables) (s : List Char) :
    ".exe".toList <:+ toLowercase t s ↔ exeEnding <:+ s.map Char.toLower :=
  (lowers_toLowercase t s).suffix_iff (by decide)

theorem exeExe_suffix (t : Tables) (s : List Char) :
    ".exe.exe".toList <:+ toLowercase t s ↔ exeEnding ++ exeEnding <:+ s.map Char.toLower :=
  (lowers_toLowercase t s).suffix_iff (by decide)

theorem stem_kept (noEnding : ¬ exeEnding <:+ s.map Char.toLower) : stem t s = some s := by
  have notTwice : ¬ exeEnding ++ exeEnding <:+ s.map Char.toLower :=
    fun twice => noEnding ((List.suffix_append _ _).trans twice)
  unfold stem
  rw [if_neg (mt (exeExe_suffix t s).mp notTwice), if_neg (mt (exe_suffix t s).mp noEnding)]

theorem stem_once {e : List Char} (isExe : e.map Char.toLower = exeEnding)
    (noEnding : ¬ exeEnding <:+ b.map Char.toLower) : stem t (b ++ e) = some b := by
  have once : exeEnding <:+ (b ++ e).map Char.toLower := by
    rw [List.map_append, isExe]
    exact List.suffix_append _ _
  have notTwice : ¬ exeEnding ++ exeEnding <:+ (b ++ e).map Char.toLower := by
    rw [List.map_append, isExe, List.suffix_append_self_iff]
    exact noEnding
  have len : byteLen e = 4 := byteLen_of_map (by decide) isExe
  unfold stem
  rw [if_neg (mt (exeExe_suffix t _).mp notTwice), if_pos ((exe_suffix t _).mpr once),
    byteLen_append, len, Nat.add_sub_cancel, takeBytes_append]

theorem stem_twice {e : List Char} (isExe : e.map Char.toLower = exeEnding ++ exeEnding) :
    stem t (b ++ e) = some b := by
  have twice : exeEnding ++ exeEnding <:+ (b ++ e).map Char.toLower := by
    rw [List.map_append, isExe]
    exact List.suffix_append _ _
  have len : byteLen e = 8 := byteLen_of_map (by decide) isExe
  unfold stem
  rw [if_pos ((exeExe_suffix t _).mpr twice), byteLen_append, len, Nat.add_sub_cancel,
    takeBytes_append]

theorem exists_stem (t : Tables) (s : List Char) : ∃ b, stem t s = some b := by
  by_cases once : exeEnding <:+ s.map Char.toLower
  · obtain ⟨b, e, rfl, isExe⟩ := split_of_suffix once
    by_cases twice : exeEnding <:+ b.map Char.toLower
    · obtain ⟨b, e', rfl, isExe'⟩ := split_of_suffix twice
      refine ⟨b, ?_⟩
      rw [List.append_assoc]
      apply stem_twice
      rw [List.map_append, isExe, isExe']
    · exact ⟨b, stem_once isExe twice⟩
  · exact ⟨s, stem_kept once⟩

theorem find_host (t : Tables) (s : List Char) :
    find hostLabel (toLowercase t s) =
      (splitFirst hostLabel s).map fun cut => byteLen (toLowercase t cut.1) :=
  find_toLowercase (by decide) (by decide) s

theorem get_eq (stemmed : stem t s = some b) :
    getCustomServerFromString t f s =
      match splitFirst hostLabel b with
      | some cut =>
        (dropBytes b (byteLen (toLowercase t cut.1))).map fun r => .ok (parseFields t r)
      | none => some (searchConfig f b) := by
  unfold getCustomServerFromString
  simp only [stemmed, find_host]
  cases splitFirst hostLabel b with
  | none => rfl
  | some cut => rfl

/-- The offset in the lowercase name is one of the name too. -/
def Safe (t : Tables) (s : List Char) : Prop :=
  ∀ b p r, stem t s = some b → splitFirst hostLabel b = some (p, r) →
    (dropBytes b (byteLen (toLowercase t p))).isSome = true

theorem isSome_iff (t : Tables) (f : Formats) (s : List Char) :
    (getCustomServerFromString t f s).isSome = true ↔ Safe t s := by
  obtain ⟨b, stemmed⟩ := exists_stem t s
  rw [get_eq stemmed]
  constructor
  · intro returns b' p r stemmed' first
    cases stemmed.symm.trans stemmed'
    rw [first] at returns
    simpa using returns
  · intro safe
    cases first : splitFirst hostLabel b with
    | none => rfl
    | some cut =>
      have here := safe b cut.1 cut.2 stemmed first
      simpa using here

/-- A label does not begin in the text before it. -/
theorem not_starts (some' : z ≠ []) (absent : ¬ hostLabel <:+: z.map Char.toLower)
    (host : Starts hostLabel s) : ¬ Starts hostLabel (z ++ s) := by
  intro pre
  obtain ⟨rest, isHost⟩ := host
  unfold Starts at pre
  rw [List.map_append, ← isHost] at pre
  have front := List.prefix_append (z.map Char.toLower) (hostLabel ++ rest)
  by_cases long : hostLabel.length ≤ (z.map Char.toLower).length
  · exact absent (List.prefix_of_prefix_length_le pre front long).isInfix
  · have short := List.prefix_of_prefix_length_le front pre (by omega)
    have pos : 0 < (z.map Char.toLower).length := by
      rw [List.length_map]
      exact List.length_pos_of_ne_nil some'
    have five : hostLabel.length = 5 := by decide
    rw [five] at long
    rw [List.prefix_iff_eq_take.mp short] at pre
    generalize (z.map Char.toLower).length = n at *
    interval_cases n <;> simp [hostLabel] at pre long pos

/-- The four fields, each behind its label in some case. -/
structure Fields where
  host : Entry
  key : Entry
  api : Entry
  relay : Entry
  isHost : host.label = hostLabel
  isKey : key.label = keyLabel
  isApi : api.label = apiLabel
  isRelay : relay.label = relayLabel

def Fields.entries (x : Fields) : List Entry := [x.host, x.key, x.api, x.relay]

def Fields.server (x : Fields) : CustomServer :=
  ⟨x.key.value, x.host.value, x.api.value, x.relay.value⟩

variable {x : Fields} {r : List Char}

theorem Fields.distinct (x : Fields) : Distinct x.entries := by
  simp only [Distinct, Fields.entries, List.map_cons, List.map_nil, x.isHost, x.isKey, x.isApi,
    x.isRelay]
  decide

theorem parseFields_iff (x : Fields) (r : List Char) :
    parseFields t r = x.server ↔ Exactly t x.entries (r.splitOn ',') := by
  rw [parseFields_eq, Fields.server, CustomServer.mk.injEq]
  simp only [Exactly, Fields.entries, List.forall_mem_cons, List.not_mem_nil, false_implies,
    implies_true, and_true, x.isHost, x.isKey, x.isApi, x.isRelay]
  tauto

theorem Fields.starts (x : Fields) : Starts hostLabel x.host.text := by
  unfold Starts
  rw [Entry.text, List.map_append, x.host.cased, x.isHost]
  exact List.prefix_append _ _

theorem Fields.text_eq (x : Fields) : ∃ rest, text x.entries = x.host.text ++ rest := by
  obtain ⟨rest, whole, -⟩ := exists_text_cons x.host [x.key, x.api, x.relay]
  exact ⟨rest, whole⟩

/-- A prefix without `host=` in any case. -/
def NoHost (p : List Char) : Prop := ¬ hostLabel <:+: p.map Char.toLower

theorem NoHost.of_infix (h : NoHost p) (inside : z <:+: p) : NoHost z :=
  fun host => h (host.trans (inside.map Char.toLower))

theorem NoHost.begins (h : NoHost p) (inside : z <:+: p) : ¬ hostLabel <+: toLowercase t z := by
  intro begins
  have starts := ((lowers_toLowercase t z).prefix_iff (by decide)).mp begins
  exact h.of_infix inside starts.isInfix

theorem NoHost.joins (h : NoHost p) (some' : z ≠ []) (suffix : z <:+ p)
    (host : Starts hostLabel s) : ¬ hostLabel <+: toLowercase t (z ++ s) := by
  intro begins
  have starts := ((lowers_toLowercase t (z ++ s)).prefix_iff (by decide)).mp begins
  exact not_starts some' (h.of_infix suffix.isInfix) host starts

/-- The fields are what is first found. -/
theorem NoHost.first (h : NoHost p) (x : Fields) :
    splitFirst hostLabel (p ++ text x.entries) = some (p, text x.entries) := by
  have host : Starts hostLabel (text x.entries) := by
    obtain ⟨rest, whole⟩ := x.text_eq
    unfold Starts
    rw [whole, List.map_append]
    exact x.starts.trans (List.prefix_append _ _)
  apply splitFirst_append host (by decide)
  intro z some' suffix
  exact not_starts some' (h.of_infix suffix.isInfix) host

theorem get_fields (h : NoHost p) (stemmed : stem t s = some (p ++ text x.entries))
    (server : CustomServer) :
    getCustomServerFromString t f s = some (.ok server) ↔
      ∃ r, dropBytes (p ++ text x.entries) (byteLen (toLowercase t p)) = some r ∧
        parseFields t r = server := by
  rw [get_eq stemmed, h.first x]
  simp only [Option.map_eq_some_iff, Except.ok.injEq]

/-- **What the shift of the offset leaves of the fields.** -/
def Shift (t : Tables) (p : List Char) (fields : List (Nat × List Char)) (host : List Char) :
    Prop :=
  let offset := byteLen (toLowercase t p)
  if offset < byteLen p then
    ∃ q, dropBytes p offset = some q ∧ (q.getLast? = some ',' ∨ host = [])
  else CutEmpty fields (offset - byteLen p)

theorem exactly_iff_shift (h : NoHost p) (x : Fields) :
    (∃ r, dropBytes (p ++ text x.entries) (byteLen (toLowercase t p)) = some r ∧
      parseFields t r = x.server) ↔
    Shift t p (x.entries.map Entry.shape) x.host.value := by
  unfold Shift
  simp only
  split
  · rename_i early
    rw [dropBytes_append_of_le _ _ (by omega)]
    have read : ∀ q, dropBytes p (byteLen (toLowercase t p)) = some q →
        (parseFields t (q ++ text x.entries) = x.server ↔
          q.getLast? = some ',' ∨ x.host.value = []) := by
      intro q cut
      obtain ⟨front, whole, len⟩ := dropBytes_spec cut
      have suffix : q <:+ p := ⟨front, whole.symm⟩
      have some' : q ≠ [] := by
        rintro rfl
        have same := congrArg byteLen whole
        rw [byteLen_append, byteLen_nil, len] at same
        omega
      rw [parseFields_iff, Fields.entries, exactly_front x.distinct]
      · simp only [some', false_or]
      · intro z inside
        rw [x.isHost]
        exact h.begins (inside.trans suffix.isInfix)
      · intro z some'' suffix'
        rw [x.isHost]
        exact h.joins some'' (suffix'.trans suffix) x.starts
    constructor
    · rintro ⟨r, cut, parsed⟩
      obtain ⟨q, cut', rfl⟩ := Option.map_eq_some_iff.mp cut
      exact ⟨q, cut', (read q cut').mp parsed⟩
    · rintro ⟨q, cut, fits⟩
      exact ⟨q ++ text x.entries, by rw [cut]; rfl, (read q cut).mpr fits⟩
  · rename_i late
    have whole : byteLen (toLowercase t p) =
        byteLen p + (byteLen (toLowercase t p) - byteLen p) := by omega
    rw [whole, dropBytes_append, Nat.add_sub_cancel_left]
    constructor
    · rintro ⟨r, cut, parsed⟩
      exact cutEmpty_of_exactly x.distinct (List.cons_ne_nil _ _) cut
        ((parseFields_iff x r).mp parsed)
    · intro empty
      obtain ⟨r, cut, exactly, -⟩ := exactly_of_cutEmpty (t := t) x.distinct empty
      exact ⟨r, cut, (parseFields_iff x r).mpr exactly⟩

/-- The relay is never read longer than it is written. -/
theorem length_relay (x : Fields) (offset : Nat)
    (cut : dropBytes (p ++ text x.entries) offset = some r) :
    (parseFields t r).relay.length ≤ x.relay.value.length := by
  rw [parseFields_eq]
  simp only
  rw [← x.isRelay]
  by_cases early : offset ≤ byteLen p
  · rw [dropBytes_append_of_le _ _ early] at cut
    obtain ⟨q, -, rfl⟩ := Option.map_eq_some_iff.mp cut
    have read := exactly_tail (t := t) q x.distinct x.relay (by simp)
    exact (congrArg List.length read).le
  · rw [show offset = byteLen p + (offset - byteLen p) by omega, dropBytes_append] at cut
    have distinct : Distinct ([x.host, x.key, x.api] ++ [x.relay]) := x.distinct
    exact length_value_last distinct cut

def Fields.withRelay (x : Fields) (value : List Char) (noComma : ',' ∉ value) : Fields :=
  { x with relay := { x.relay with value, noComma } }

/-- The text up to the relay. -/
def Fields.front (x : Fields) : List Char :=
  x.host.text ++ ',' :: (x.key.text ++ ',' :: (x.api.text ++ ',' :: x.relay.written))

theorem text_withRelay (x : Fields) (value : List Char) (noComma : ',' ∉ value) :
    text (x.withRelay value noComma).entries = x.front ++ value := by
  simp [text, Fields.entries, Fields.withRelay, Fields.front, List.intercalate, Entry.text]

theorem text_relay (x : Fields) : text x.entries = x.front ++ x.relay.value :=
  text_withRelay x x.relay.value x.relay.noComma

/-- The text up to the relay ends in `=`. -/
theorem Fields.front_marked (x : Fields) : ∃ u, x.front.map Char.toLower = u ++ ['='] := by
  have label : relayLabel = "relay".toList ++ ['='] := by decide
  have written : x.relay.written.map Char.toLower = "relay".toList ++ ['='] := by
    rw [x.relay.cased, x.isRelay, label]
  refine ⟨(x.host.text ++ ',' :: (x.key.text ++ ',' :: (x.api.text ++ [',']))).map Char.toLower ++
    "relay".toList, ?_⟩
  simp only [Fields.front, List.map_append, List.map_cons, List.map_nil, written,
    List.append_assoc, List.cons_append, List.nil_append]

/-- An ending of the text is one of the relay. -/
theorem ending_iff (p : List Char) (x : Fields) :
    exeEnding <:+ (p ++ text x.entries).map Char.toLower ↔
      exeEnding <:+ x.relay.value.map Char.toLower := by
  obtain ⟨u, marked⟩ := x.front_marked
  rw [text_relay, List.map_append, List.map_append, marked, List.append_assoc,
    List.singleton_append]
  generalize x.relay.value.map Char.toLower = v
  have inside : '=' :: v <:+ p.map Char.toLower ++ (u ++ '=' :: v) := by
    rw [← List.append_assoc]
    exact List.suffix_append _ _
  constructor
  · intro ending
    by_cases long : exeEnding.length ≤ v.length
    · exact List.suffix_of_suffix_length_le ending ((List.suffix_cons _ v).trans inside) long
    · have short : ('=' :: v).length ≤ exeEnding.length := by
        rw [List.length_cons]
        omega
      have all := List.suffix_of_suffix_length_le inside ending short
      have none' : '=' ∉ exeEnding := by decide
      exact absurd (all.subset List.mem_cons_self) none'
  · intro ending
    exact ending.trans ((List.suffix_cons _ v).trans inside)

/-- The relay without its ending. -/
theorem exists_shorter (x : Fields) (ending : exeEnding <:+ x.relay.value.map Char.toLower) :
    ∃ (y : Fields) (e : List Char), e.map Char.toLower = exeEnding ∧
      text x.entries = text y.entries ++ e ∧ y.relay.value.length < x.relay.value.length := by
  obtain ⟨v, e, whole, isExe⟩ := split_of_suffix ending
  have noComma : ',' ∉ v := by
    intro mem
    exact x.relay.noComma (whole ▸ List.mem_append_left _ mem)
  refine ⟨x.withRelay v noComma, e, isExe, ?_, ?_⟩
  · rw [text_withRelay, text_relay, whole, List.append_assoc]
  · have four : e.length = 4 := by
      rw [← List.length_map Char.toLower, isExe]
      decide
    change v.length < x.relay.value.length
    rw [whole, List.length_append, four]
    omega

/-- What is left of a name that may end in `.exe`. -/
theorem stem_fields (p : List Char) (x : Fields) {e : List Char}
    (ending : e = [] ∨ e.map Char.toLower = exeEnding) :
    (¬ exeEnding <:+ x.relay.value.map Char.toLower ∧
      stem t (p ++ text x.entries ++ e) = some (p ++ text x.entries)) ∨
    (exeEnding <:+ x.relay.value.map Char.toLower ∧
      ∃ y : Fields, stem t (p ++ text x.entries ++ e) = some (p ++ text y.entries) ∧
        y.relay.value.length < x.relay.value.length) := by
  by_cases own : exeEnding <:+ x.relay.value.map Char.toLower
  · right
    refine ⟨own, ?_⟩
    obtain ⟨y, e', isExe, whole, shorter⟩ := exists_shorter x own
    rw [whole, ← List.append_assoc]
    rcases ending with rfl | isExe'
    · rw [List.append_nil]
      by_cases again : exeEnding <:+ y.relay.value.map Char.toLower
      · obtain ⟨z, e'', isExe'', whole', shorter'⟩ := exists_shorter y again
        refine ⟨z, ?_, Nat.lt_trans shorter' shorter⟩
        rw [whole', ← List.append_assoc, List.append_assoc]
        apply stem_twice
        rw [List.map_append, isExe, isExe'']
      · exact ⟨y, stem_once isExe (mt (ending_iff p y).mp again), shorter⟩
    · refine ⟨y, ?_, shorter⟩
      rw [List.append_assoc]
      apply stem_twice
      rw [List.map_append, isExe, isExe']
  · left
    refine ⟨own, ?_⟩
    rcases ending with rfl | isExe
    · rw [List.append_nil]
      exact stem_kept (mt (ending_iff p x).mp own)
    · exact stem_once isExe (mt (ending_iff p x).mp own)

/-- **When a name gives its server.** The name of the program does not make the function
panic exactly when the offset in the lowercase name is one of the name. And behind a prefix
without `host=` the four fields are read as they are exactly when the relay does not end
as a program does and the prefix has as many bytes in lowercase, or fewer and the text
before `host=` then ends in a comma or the host is empty, or more and the fields cut into
are empty. -/
theorem custom_server_iff (t : Tables) (f : Formats) :
    (∀ s, (getCustomServerFromString t f s).isSome = true ↔ Safe t s) ∧
    ∀ p h host k key a api r relay e : List Char, NoHost p →
      h.map Char.toLower = hostLabel → k.map Char.toLower = keyLabel →
      a.map Char.toLower = apiLabel → r.map Char.toLower = relayLabel →
      (∀ field ∈ [host, key, api, relay], ',' ∉ field) →
      (e = [] ∨ e.map Char.toLower = exeEnding) →
      (getCustomServerFromString t f
          (p ++ [','].intercalate [h ++ host, k ++ key, a ++ api, r ++ relay] ++ e) =
          some (.ok { host, key, api, relay }) ↔
        ¬ exeEnding <:+ relay.map Char.toLower ∧
          Shift t p [(5, host), (4, key), (4, api), (6, relay)] host) := by
  refine ⟨isSome_iff t f, ?_⟩
  intro p h host k key a api r relay e noHost isHost isKey isApi isRelay noComma ending
  simp only [List.forall_mem_cons, List.not_mem_nil, false_implies, implies_true,
    and_true] at noComma
  let x : Fields :=
    { host := ⟨hostLabel, h, host, by decide, isHost, noComma.1⟩
      key := ⟨keyLabel, k, key, by decide, isKey, noComma.2.1⟩
      api := ⟨apiLabel, a, api, by decide, isApi, noComma.2.2.1⟩
      relay := ⟨relayLabel, r, relay, by decide, isRelay, noComma.2.2.2⟩
      isHost := rfl, isKey := rfl, isApi := rfl, isRelay := rfl }
  change getCustomServerFromString t f (p ++ text x.entries ++ e) = some (.ok x.server) ↔ _
  rcases stem_fields (t := t) p x ending with ⟨noEnding, stemmed⟩ | ⟨twice, y, stemmed, shorter⟩
  · rw [get_fields noHost stemmed, exactly_iff_shift noHost x]
    exact (and_iff_right noEnding).symm
  · rw [get_fields noHost stemmed]
    constructor
    · rintro ⟨rest, cut, parsed⟩
      have bound := length_relay (t := t) y _ cut
      rw [parsed] at bound
      exact absurd bound (Nat.not_le_of_lt shorter)
    · intro fits
      exact absurd twice fits.1

def noFormats : Formats := ⟨fun _ => .error "", fun _ => .error "", fun _ _ => none⟩

theorem custom_server_iff_remote :
    getCustomServerFromString .sample noFormats
        "remote-Host=h,Key=k,api=a,RELAY=r.exe".toList =
      some (.ok ⟨"k".toList, "h".toList, "a".toList, "r".toList⟩) := by
  have fits : Shift .sample "remote-".toList
      [(5, "h".toList), (4, "k".toList), (4, "a".toList), (6, "r".toList)] "h".toList := by
    unfold Shift
    rw [if_neg (by decide)]
    exact .inl (by decide)
  exact ((custom_server_iff .sample noFormats).2 "remote-".toList "Host=".toList "h".toList
    "Key=".toList "k".toList "api=".toList "a".toList "RELAY=".toList "r".toList ".exe".toList
    (by unfold NoHost; decide) (by decide) (by decide) (by decide) (by decide) (by decide)
    (.inr (by decide))).mpr ⟨by decide, fits⟩

/-- The Kelvin sign has three bytes and its lowercase one. -/
theorem kelvin_shifts :
    getCustomServerFromString .sample noFormats "\u212ahost=h".toList = none ∧
    getCustomServerFromString .sample noFormats
        "\u212a\u212a\u212ahost=h,key=k,api=a,relay=r".toList ≠
      some (.ok ⟨"k".toList, "h".toList, "a".toList, "r".toList⟩) := by
  refine ⟨by rfl, ?_⟩
  have read : getCustomServerFromString .sample noFormats
      "\u212a\u212a\u212ahost=h,key=k,api=a,relay=r".toList =
        some (.ok ⟨"k".toList, [], "a".toList, "r".toList⟩) := by rfl
  rw [read]
  decide

end CamelliaRemote.Custom
