import CamelliaRemote.Client.CustomServer

namespace CamelliaRemote.Custom
open Lowercase

def labels : List (List Char) := [hostLabel, keyLabel, apiLabel, relayLabel]

/-- What the parts of a text make of the field with the label. -/
def pick (t : Tables) (label v el : List Char) : List Char :=
  if label <+: toLowercase t el then el.drop label.length else v

def value (t : Tables) (label : List Char) (pieces : List (List Char)) : List Char :=
  pieces.foldl (pick t label) []

variable {t : Tables} {label w v x rest : List Char} {pieces : List (List Char)} {n d : Nat}

theorem setField_eq (t : Tables) (server : CustomServer) (el : List Char) :
    setField t server el =
      ⟨pick t keyLabel server.key el, pick t hostLabel server.host el,
        pick t apiLabel server.api el, pick t relayLabel server.relay el⟩ := by
  have lengths : hostLabel.length = 5 ∧ keyLabel.length = 4 ∧ apiLabel.length = 4 ∧
      relayLabel.length = 6 := by decide
  obtain ⟨host, key, api, relay⟩ := lengths
  simp only [setField, pick, host, key, api, relay]
  split_ifs <;> rfl

theorem foldl_setField (t : Tables) (pieces : List (List Char)) (server : CustomServer) :
    pieces.foldl (setField t) server =
      { key := pieces.foldl (pick t keyLabel) server.key
        host := pieces.foldl (pick t hostLabel) server.host
        api := pieces.foldl (pick t apiLabel) server.api
        relay := pieces.foldl (pick t relayLabel) server.relay } := by
  induction pieces generalizing server with
  | nil => rfl
  | cons el pieces ih => rw [List.foldl_cons, ih, setField_eq]; rfl

theorem parseFields_eq (t : Tables) (stripped : List Char) :
    parseFields t stripped =
      ⟨value t keyLabel (stripped.splitOn ','), value t hostLabel (stripped.splitOn ','),
        value t apiLabel (stripped.splitOn ','), value t relayLabel (stripped.splitOn ',')⟩ :=
  foldl_setField t _ {}

theorem foldl_pick_of_none (none' : ∀ el ∈ pieces, ¬ label <+: toLowercase t el) :
    pieces.foldl (pick t label) v = v := by
  induction pieces with
  | nil => rfl
  | cons el pieces ih =>
    rw [List.foldl_cons, pick, if_neg (none' el List.mem_cons_self)]
    exact ih fun e mem => none' e (List.mem_cons_of_mem _ mem)

/-- The last part that begins with the label has the say. -/
theorem value_of_last {front back : List (List Char)} {el : List Char}
    (begins : label <+: toLowercase t el) (none' : ∀ e ∈ back, ¬ label <+: toLowercase t e) :
    value t label (front ++ el :: back) = el.drop label.length := by
  rw [value, List.foldl_append, List.foldl_cons, foldl_pick_of_none none', pick, if_pos begins]

theorem value_of_none (none' : ∀ el ∈ pieces, ¬ label <+: toLowercase t el) :
    value t label pieces = [] :=
  foldl_pick_of_none none'

/-- A field as it stands in the text: its label in some case, and what follows it. -/
structure Entry where
  label : List Char
  written : List Char
  value : List Char
  known : label ∈ labels
  cased : written.map Char.toLower = label
  noComma : ',' ∉ value

def Entry.text (e : Entry) : List Char := e.written ++ e.value

def text (es : List Entry) : List Char := [','].intercalate (es.map Entry.text)

variable {e : Entry} {es : List Entry}

theorem label_ascii (known : label ∈ labels) : ∀ c ∈ label, c.toNat < 128 := by
  revert label
  decide

theorem Entry.written_ascii (e : Entry) : ∀ c ∈ e.written, c.toNat < 128 := by
  intro c mem
  apply ascii_of_toLower
  exact label_ascii e.known _ (e.cased ▸ List.mem_map_of_mem mem)

theorem Entry.written_length (e : Entry) : e.written.length = e.label.length := by
  rw [← e.cased, List.length_map]

theorem Entry.comma_notMem (e : Entry) : ',' ∉ e.text := by
  intro mem
  rcases List.mem_append.mp mem with mem | mem
  · have inLabel : ',' ∈ e.label := e.cased ▸ List.mem_map.mpr ⟨',', mem, by decide⟩
    have none' : ∀ label ∈ labels, ',' ∉ label := by decide
    exact none' _ e.known inLabel
  · exact e.noComma mem

/-- An entry begins with its label. -/
theorem Entry.begins (e : Entry) : e.label <+: toLowercase t e.text := by
  rw [Entry.text, toLowercase_append e.written_ascii, e.cased]
  exact List.prefix_append _ _

theorem Entry.drop_label (e : Entry) : e.text.drop e.label.length = e.value := by
  rw [Entry.text, ← e.written_length, List.drop_left]

/-- And with no other. -/
theorem Entry.begins_other (e : Entry) (known : label ∈ labels) (other : label ≠ e.label) :
    ¬ label <+: toLowercase t e.text := by
  have heads : ∀ a ∈ labels, ∀ b ∈ labels, a.head? = b.head? → a = b := by decide
  have some' : ∀ a ∈ labels, a ≠ [] := by decide
  intro pre
  rw [Entry.text, toLowercase_append e.written_ascii, e.cased] at pre
  apply other
  apply heads label known e.label e.known
  have own := e.known
  generalize e.label = own' at pre own
  cases label with
  | nil => exact absurd rfl (some' [] known)
  | cons a label =>
    cases own' with
    | nil => exact absurd rfl (some' [] own)
    | cons b own' =>
      rw [List.cons_append, List.cons_prefix_cons] at pre
      rw [List.head?_cons, List.head?_cons, pre.1]

theorem splitOn_text (some' : es ≠ []) : (text es).splitOn ',' = es.map Entry.text := by
  apply List.splitOn_intercalate
  · intro l mem
    obtain ⟨e, -, rfl⟩ := List.mem_map.mp mem
    exact e.comma_notMem
  · simpa using some'

theorem text_cons (e : Entry) (some' : es ≠ []) : text (e :: es) = e.text ++ ',' :: text es := by
  obtain ⟨f, es, rfl⟩ := List.exists_cons_of_ne_nil some'
  simp [text, List.intercalate]

/-- What follows the first entry. -/
theorem exists_text_cons (e : Entry) (es : List Entry) :
    ∃ rest, text (e :: es) = e.text ++ rest ∧
      ∀ x : List Char, ',' ∉ x → (x ++ rest).splitOn ',' = x :: es.map Entry.text := by
  by_cases some' : es = []
  · subst some'
    refine ⟨[], by simp [text], fun x noComma => ?_⟩
    rw [List.append_nil, List.splitOn_eq_singleton noComma]
    rfl
  · refine ⟨',' :: text es, text_cons e some', fun x noComma => ?_⟩
    rw [List.splitOn_append_cons_self_of_not_mem noComma, splitOn_text some']

/-- Every field has its value. -/
def Exactly (t : Tables) (es : List Entry) (pieces : List (List Char)) : Prop :=
  ∀ e ∈ es, value t e.label pieces = e.value

def Distinct (es : List Entry) : Prop := (es.map Entry.label).Nodup

theorem Distinct.tail (h : Distinct (e :: es)) : Distinct es := (List.nodup_cons.mp h).2

/-- No entry begins with a label that none of them has. -/
theorem begins_none (known : label ∈ labels) (absent : label ∉ es.map Entry.label) :
    ∀ el ∈ es.map Entry.text, ¬ label <+: toLowercase t el := by
  intro el mem
  obtain ⟨e, inside, rfl⟩ := List.mem_map.mp mem
  refine e.begins_other known ?_
  rintro rfl
  exact absent (List.mem_map_of_mem inside)

/-- The entries behind any parts keep their values. -/
theorem exactly_behind (distinct : Distinct es) (front : List (List Char)) :
    Exactly t es (front ++ es.map Entry.text) := by
  induction es generalizing front with
  | nil =>
    intro e mem
    cases mem
  | cons e es ih =>
    intro f mem
    rw [List.map_cons]
    rcases List.mem_cons.mp mem with rfl | later
    · rw [value_of_last f.begins (begins_none f.known (List.nodup_cons.mp distinct).1),
        f.drop_label]
    · rw [show front ++ e.text :: es.map Entry.text =
        (front ++ [e.text]) ++ es.map Entry.text by simp]
      exact ih distinct.tail (front ++ [e.text]) f later

/-- A field of none of the entries, behind a part that does not begin with its label. -/
theorem value_absent (known : label ∈ labels) (absent : label ∉ es.map Entry.label)
    (quiet : ¬ label <+: toLowercase t x) : value t label (x :: es.map Entry.text) = [] := by
  apply value_of_none
  intro el mem
  rcases List.mem_cons.mp mem with rfl | mem
  · exact quiet
  · exact begins_none known absent el mem

/-- The fields before the cut and the one it goes through are empty. -/
def CutEmpty : List (Nat × List Char) → Nat → Prop
  | [], _ => False
  | (len, v) :: fields, d => d = 0 ∨ v = [] ∧ (d ≤ len ∨ CutEmpty fields (d - len - 1))

def Entry.shape (e : Entry) : Nat × List Char := (e.label.length, e.value)

/-- A label without its beginning begins with no label. -/
theorem Entry.cut_quiet (e : Entry) (known : label ∈ labels) (pos : 0 < n) :
    ¬ label <+: toLowercase t (e.written.drop n) := by
  have ascii : ∀ c ∈ e.written.drop n, c.toNat < 128 :=
    fun c mem => e.written_ascii c (List.mem_of_mem_drop mem)
  have quiet : ∀ a ∈ labels, ∀ b ∈ labels, ∀ n < 7, 0 < n → ¬ a <+: b.drop n := by decide
  have short : ∀ b ∈ labels, b.length ≤ 6 := by decide
  rw [toLowercase_ascii ascii, List.map_drop, e.cased]
  by_cases small : n < 7
  · exact quiet label known e.label e.known n small pos
  · have none' : e.label.drop n = e.label.drop 6 := by
      have len := short e.label e.known
      rw [List.drop_of_length_le (by omega), List.drop_of_length_le (by omega)]
    rw [none']
    exact quiet label known e.label e.known 6 (by decide) (by decide)

theorem Entry.text_of_empty (e : Entry) (empty : e.value = []) : e.text = e.written := by
  rw [Entry.text, empty, List.append_nil]

theorem Entry.byteLen_of_empty (e : Entry) (empty : e.value = []) :
    byteLen e.text = e.label.length := by
  rw [e.text_of_empty empty, byteLen_ascii e.written_ascii, e.written_length]

/-- A cut behind the first entry. -/
theorem dropBytes_behind (e : Entry) (behind : byteLen e.text < d) :
    dropBytes (text (e :: es)) d =
      if es = [] then none else dropBytes (text es) (d - byteLen e.text - 1) := by
  split
  · rename_i none'
    subst none'
    apply dropBytes_of_lt
    simpa [text] using behind
  · rename_i some'
    have whole : text (e :: es) = (e.text ++ [',']) ++ text es := by
      rw [text_cons e some', List.append_assoc]
      rfl
    have len : byteLen (e.text ++ [',']) = byteLen e.text + 1 := by
      rw [byteLen_append]
      rfl
    rw [whole, show d = byteLen (e.text ++ [',']) + (d - byteLen e.text - 1) by omega,
      dropBytes_append, len]
    congr 1
    omega

/-- When what is cut off was empty, every field is read, and no other. -/
theorem exactly_of_cutEmpty (distinct : Distinct es) (empty : CutEmpty (es.map Entry.shape) d) :
    ∃ r, dropBytes (text es) d = some r ∧ Exactly t es (r.splitOn ',') ∧
      ∀ label ∈ labels, label ∉ es.map Entry.label → value t label (r.splitOn ',') = [] := by
  induction es generalizing d with
  | nil => cases empty
  | cons e es ih =>
    have own : e.label ∉ es.map Entry.label := (List.nodup_cons.mp distinct).1
    by_cases zero : d = 0
    · refine ⟨text (e :: es), zero ▸ dropBytes_zero _, ?_, fun label known absent => ?_⟩
      · rw [splitOn_text (List.cons_ne_nil e es)]
        exact exactly_behind distinct []
      · rw [splitOn_text (List.cons_ne_nil e es)]
        exact value_of_none (begins_none known absent)
    obtain ⟨none', reach⟩ := Or.resolve_left empty zero
    have len := e.byteLen_of_empty none'
    by_cases near : d ≤ e.label.length
    · obtain ⟨rest, whole, pieces⟩ := exists_text_cons e es
      have quiet : ∀ label ∈ labels, ¬ label <+: toLowercase t (e.written.drop d) :=
        fun label known => e.cut_quiet known (Nat.pos_of_ne_zero zero)
      have noComma : ',' ∉ e.written.drop d := by
        intro mem
        exact e.comma_notMem (List.mem_append_left _ (List.mem_of_mem_drop mem))
      refine ⟨e.written.drop d ++ rest, ?_, ?_, fun label known absent => ?_⟩
      · rw [whole, dropBytes_append_of_le _ _ (by omega), e.text_of_empty none',
          dropBytes_ascii e.written_ascii (by rw [e.written_length]; exact near), Option.map_some]
      · rw [pieces _ noComma]
        intro f mem
        rcases List.mem_cons.mp mem with rfl | later
        · rw [value_absent f.known own (quiet _ f.known), none']
        · exact exactly_behind distinct.tail [e.written.drop d] f later
      · rw [pieces _ noComma]
        exact value_absent known (fun mem => absent (List.mem_cons_of_mem _ mem)) (quiet _ known)
    · have later := reach.resolve_left near
      have some' : es ≠ [] := by
        rintro rfl
        exact later
      obtain ⟨r, cut, exactly, others⟩ := ih distinct.tail later
      refine ⟨r, ?_, fun f mem => ?_, fun label known absent => ?_⟩
      · rw [dropBytes_behind e (by omega), if_neg some', len]
        exact cut
      · rcases List.mem_cons.mp mem with rfl | inside
        · rw [others _ f.known own, none']
        · exact exactly f inside
      · exact others label known fun mem => absent (List.mem_cons_of_mem _ mem)

/-- A field that is read behind a cut through its own entry is empty. -/
theorem Entry.empty_of_cut (e : Entry) (own : e.label ∉ es.map Entry.label) {p : List Char}
    (cut : e.text = p ++ x) (some' : p ≠ [])
    (read : Custom.value t e.label (x :: es.map Entry.text) = e.value) : e.value = [] := by
  by_cases begins : e.label <+: toLowercase t x
  · have shorter : x.drop e.label.length = e.value := by
      have last : Custom.value t e.label ([] ++ x :: es.map Entry.text) = _ :=
        value_of_last begins (begins_none e.known own)
      exact last.symm.trans read
    have whole := congrArg List.length cut
    have left := congrArg List.length shorter
    have pos := List.length_pos_of_ne_nil some'
    rw [Entry.text, List.length_append, List.length_append, e.written_length] at whole
    rw [List.length_drop] at left
    apply List.eq_nil_of_length_eq_zero
    omega
  · rw [← read, value_absent e.known own begins]

/-- And only then. -/
theorem cutEmpty_of_exactly (distinct : Distinct es) (some' : es ≠ []) {r : List Char}
    (cut : dropBytes (text es) d = some r) (exactly : Exactly t es (r.splitOn ',')) :
    CutEmpty (es.map Entry.shape) d := by
  induction es generalizing d with
  | nil => exact absurd rfl some'
  | cons e es ih =>
    have own : e.label ∉ es.map Entry.label := (List.nodup_cons.mp distinct).1
    have read := exactly e List.mem_cons_self
    by_cases zero : d = 0
    · exact .inl zero
    by_cases inside : d ≤ byteLen e.text
    · obtain ⟨rest, whole, pieces⟩ := exists_text_cons e es
      rw [whole, dropBytes_append_of_le _ _ inside] at cut
      obtain ⟨x, cut', rfl⟩ := Option.map_eq_some_iff.mp cut
      obtain ⟨p, isText, len⟩ := dropBytes_spec cut'
      have noComma : ',' ∉ x := by
        intro mem
        exact e.comma_notMem (isText ▸ List.mem_append_right _ mem)
      rw [pieces x noComma] at read
      have empty := e.empty_of_cut own isText (by rintro rfl; exact zero len.symm) read
      rw [e.byteLen_of_empty empty] at inside
      exact .inr ⟨empty, .inl inside⟩
    · rw [dropBytes_behind e (by omega)] at cut
      split at cut
      · cases cut
      rename_i more
      have later := ih distinct.tail more cut fun f mem => exactly f (List.mem_cons_of_mem _ mem)
      obtain ⟨r', cut', -, others⟩ := exactly_of_cutEmpty (t := t) distinct.tail later
      cases cut.symm.trans cut'
      have empty : e.value = [] := by rw [← read, others _ e.known own]
      rw [e.byteLen_of_empty empty] at later
      exact .inr ⟨empty, .inr later⟩

/-- The last field is never read longer than it is. -/
theorem length_value_last (distinct : Distinct (es ++ [e])) {r : List Char}
    (cut : dropBytes (text (es ++ [e])) d = some r) :
    (value t e.label (r.splitOn ',')).length ≤ e.value.length := by
  induction es generalizing d with
  | nil =>
    obtain ⟨rest, whole, pieces⟩ := exists_text_cons e []
    rw [List.nil_append] at cut
    have alone : text [e] = e.text := by simp [text]
    rw [alone] at cut
    obtain ⟨p, isText, -⟩ := dropBytes_spec cut
    have noComma : ',' ∉ r := by
      intro mem
      exact e.comma_notMem (isText ▸ List.mem_append_right _ mem)
    rw [List.splitOn_eq_singleton noComma, value, List.foldl_cons, List.foldl_nil, pick]
    split
    · have len := congrArg List.length isText
      rw [Entry.text, List.length_append, List.length_append, e.written_length] at len
      rw [List.length_drop]
      omega
    · exact Nat.zero_le _
  | cons f es ih =>
    by_cases inside : d ≤ byteLen f.text
    · obtain ⟨rest, whole, pieces⟩ := exists_text_cons f (es ++ [e])
      rw [List.cons_append, whole, dropBytes_append_of_le _ _ inside] at cut
      obtain ⟨x, cut', rfl⟩ := Option.map_eq_some_iff.mp cut
      obtain ⟨p, isText, -⟩ := dropBytes_spec cut'
      have noComma : ',' ∉ x := by
        intro mem
        exact f.comma_notMem (isText ▸ List.mem_append_right _ mem)
      rw [pieces x noComma]
      have whole' := exactly_behind (t := t) distinct.tail [x]
      exact (congrArg List.length (whole' e (by simp))).le
    · rw [List.cons_append, dropBytes_behind f (by omega), if_neg (by simp)] at cut
      exact ih distinct.tail cut

theorem infix_of_mem_splitOn {s piece : List Char} (mem : piece ∈ s.splitOn ',') :
    piece <:+: s := by
  have whole : [','].intercalate (s.splitOn ',') = s := List.intercalate_splitOn ','
  obtain ⟨i, found⟩ := List.getElem?_of_mem mem
  have inside : piece ∈ (s.splitOn ',').intersperse [','] :=
    List.mem_of_getElem? (List.getElem?_intersperse_two_mul.trans found)
  have infix' := List.infix_of_mem_flatten inside
  rwa [← List.intercalate, whole] at infix'

/-- The parts of a text in front of another, and what of it runs into that. -/
theorem splitOn_front (q : List Char) :
    ∃ front z, (∀ s : List Char, (q ++ s).splitOn ',' = front ++ (z ++ s).splitOn ',') ∧
      (∀ piece ∈ front, piece <:+: q) ∧ z <:+ q ∧ ',' ∉ z ∧
        (z = [] ↔ q = [] ∨ q.getLast? = some ',') := by
  by_cases comma : ',' ∈ q
  · obtain ⟨as, bs, reversed, noComma⟩ := List.eq_append_cons_of_mem (List.mem_reverse.mpr comma)
    have whole : q = bs.reverse ++ ',' :: as.reverse := by
      have := congrArg List.reverse reversed
      simpa using this
    refine ⟨bs.reverse.splitOn ',', as.reverse, fun s => ?_, fun piece mem => ?_, ?_, ?_, ?_⟩
    · rw [whole, List.append_assoc, List.cons_append, List.splitOn_append_cons_self]
    · exact (infix_of_mem_splitOn mem).trans (whole ▸ (List.prefix_append _ _).isInfix)
    · exact whole ▸ List.suffix_append_of_suffix (List.suffix_cons _ _)
    · simpa using noComma
    · constructor
      · intro none'
        right
        rw [whole, none']
        simp
      · intro ends
        rcases ends with rfl | ends
        · cases comma
        · rcases List.eq_nil_or_concat as.reverse with none' | ⟨z, c, some'⟩
          · exact none'
          · rw [whole, some', List.concat_eq_append, ← List.cons_append, ← List.append_assoc,
              List.getLast?_concat] at ends
            have isComma : c = ',' := Option.some.inj ends
            have last : c ∈ as := by
              rw [← List.mem_reverse, some']
              simp
            exact absurd (isComma ▸ last) noComma
  · refine ⟨[], q, fun s => rfl, by simp, List.suffix_rfl, comma, ?_⟩
    constructor
    · exact .inl
    · intro ends
      rcases ends with none' | ends
      · exact none'
      · exact absurd (List.mem_of_getLast? ends) comma

/-- The entries but the first are read, whatever stands before them. -/
theorem exactly_tail (q : List Char) (distinct : Distinct (e :: es)) :
    Exactly t es ((q ++ text (e :: es)).splitOn ',') := by
  obtain ⟨front, z, pieces, -, -, noComma, -⟩ := splitOn_front q
  obtain ⟨rest, whole, split⟩ := exists_text_cons e es
  have noComma' : ',' ∉ z ++ e.text := by
    intro mem
    exact (List.mem_append.mp mem).elim noComma e.comma_notMem
  rw [pieces, whole, ← List.append_assoc, split _ noComma']
  have behind := exactly_behind (t := t) distinct.tail (front ++ [z ++ e.text])
  rwa [List.append_assoc] at behind

/-- What stands before the entries hides the first of them, unless a comma ends it. -/
theorem exactly_front {q : List Char} (distinct : Distinct (e :: es))
    (part : ∀ z, z <:+: q → ¬ e.label <+: toLowercase t z)
    (join : ∀ z, z ≠ [] → z <:+ q → ¬ e.label <+: toLowercase t (z ++ e.text)) :
    Exactly t (e :: es) ((q ++ text (e :: es)).splitOn ',') ↔
      (q = [] ∨ q.getLast? = some ',') ∨ e.value = [] := by
  have later := exactly_tail (t := t) q distinct
  obtain ⟨front, z, pieces, inside, suffix, noComma, ends⟩ := splitOn_front q
  obtain ⟨rest, whole, split⟩ := exists_text_cons e es
  have noComma' : ',' ∉ z ++ e.text := by
    intro mem
    exact (List.mem_append.mp mem).elim noComma e.comma_notMem
  rw [pieces, whole, ← List.append_assoc, split _ noComma'] at later ⊢
  rw [← ends]
  by_cases none' : z = []
  · subst none'
    simp only [true_or, iff_true]
    exact exactly_behind distinct front
  simp only [none', false_or]
  have quiet : value t e.label (front ++ (z ++ e.text) :: es.map Entry.text) = [] := by
    apply value_of_none
    intro el mem
    rcases List.mem_append.mp mem with mem | mem
    · exact part el (inside el mem)
    · rcases List.mem_cons.mp mem with rfl | mem
      · exact join z none' suffix
      · exact begins_none e.known (List.nodup_cons.mp distinct).1 el mem
  constructor
  · intro exactly
    rw [← exactly e List.mem_cons_self, quiet]
  · intro empty f mem
    rcases List.mem_cons.mp mem with rfl | mem
    · rw [quiet, empty]
    · exact later f mem

end CamelliaRemote.Custom
