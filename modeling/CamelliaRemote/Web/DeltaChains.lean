import CamelliaRemote.Web.DecoderRegistry

namespace CamelliaRemote.Web.VideoWorker

/-! ## What is meant -/

/-- What came in and what became of it; `overtaken` are chunks that came while a creation of
their decoder was on for which they did not wait. -/
structure History where
  overtaken : List Nat
  arrivals : List DecoderKey
  log : List Entry

def timestamps (log : List Entry) (decoder : Nat) : List Int :=
  log.filterMap fun
    | .passed _ _ _ i timestamp _ => if i = decoder then some timestamp else none
    | _ => none

/-- The drops that leave it to the next chunk whether there is need of a key chunk. -/
def Reason.Unarmed : Reason → Prop
  | .noSurface | .inactive | .empty | .firstOverflow => True
  | _ => False

def Excused (h : History) (key : DecoderKey) (chunk : Nat) : Prop :=
  chunk ∈ h.overtaken ∨ ∃ reason : Reason, reason.Unarmed ∧ .dropped chunk key reason ∈ h.log

def Decoded (h : History) (key : DecoderKey) (decoder chunk : Nat) : Prop :=
  ∃ isKey timestamp, .passed chunk key isKey decoder timestamp true ∈ h.log

/-- The decoder got a key chunk, with no error since, and `fine` is so for the later chunks. -/
def FollowsKey (h : History) (key : DecoderKey) (decoder : Nat) (fine : Nat → Prop) : Prop :=
  ∃ before number timestamp later,
    h.log = before ++ .passed number key true decoder timestamp true :: later ∧
    .error decoder ∉ later ∧
    ∀ chunk, number < chunk → h.arrivals[chunk]? = some key → fine chunk

/-- Each delta chunk that a decoder got follows a key chunk, and `fine` is so, by then, for the
chunks between them. -/
def DeltasFollow (h : History) (fine : History → DecoderKey → Nat → Nat → Prop) : Prop :=
  ∀ before number key decoder timestamp ok later,
    h.log = before ++ .passed number key false decoder timestamp ok :: later →
    FollowsKey { h with log := before } key decoder fun chunk =>
      number ≤ chunk ∨ fine { h with log := before } key decoder chunk

def DecodedOrExcused (h : History) (key : DecoderKey) (decoder chunk : Nat) : Prop :=
  Decoded h key decoder chunk ∨ Excused h key chunk

def NotDropped (h : History) (key : DecoderKey) (_decoder chunk : Nat) : Prop :=
  ∀ reason, .dropped chunk key reason ∉ h.log

/-- There is a creation for the key that a chunk, coming now, would not wait for. -/
def Worker.beside (s : Worker) (key : DecoderKey) : Bool :=
  s.creations.any fun c => c.key = key &&
    ((EntryList.get s.decoders key).isSome || s.decoderBooting key ≠ some c.number)

def overtakes (s : Worker) : Event → List Nat
  | .decode codec display _ _ _ _ =>
    if !s.isClosed && s.beside ⟨display, codec⟩ then [s.arrivals.length] else []
  | _ => []

def Worker.history (s : Worker) (overtaken : List Nat) : History := ⟨overtaken, s.arrivals, s.log⟩

def history (events : List Event) : History :=
  (after events).history (Runs.collect Worker.step overtakes {} events)

/-! ## Histories that grow -/

variable {h : History} {key key' : DecoderKey} {decoder : Nat} {more : List Entry}
  {fine fine' : Nat → Prop}

def History.write (h : History) (more : List Entry) : History :=
  { h with log := h.log ++ more }

def History.arrive (h : History) (key : DecoderKey) (overtaken : List Nat) : History :=
  { h with overtaken := h.overtaken ++ overtaken, arrivals := h.arrivals ++ [key] }

theorem excused_write {chunk : Nat} (excused : Excused h key chunk) :
    Excused (h.write more) key chunk := by
  obtain passedBy | ⟨reason, unarmed, dropped⟩ := excused
  · exact .inl passedBy
  · exact .inr ⟨reason, unarmed, List.mem_append_left _ dropped⟩

theorem excused_arrive {chunk : Nat} {overtaken : List Nat} (excused : Excused h key chunk) :
    Excused (h.arrive key' overtaken) key chunk := by
  obtain passedBy | dropped := excused
  · exact .inl (List.mem_append_left _ passedBy)
  · exact .inr dropped

theorem decodedOrExcused_write {chunk : Nat} (fine : DecodedOrExcused h key decoder chunk) :
    DecodedOrExcused (h.write more) key decoder chunk := by
  obtain ⟨isKey, timestamp, passed⟩ | excused := fine
  · exact .inl ⟨isKey, timestamp, List.mem_append_left _ passed⟩
  · exact .inr (excused_write excused)

theorem decodedOrExcused_arrive {chunk : Nat} {overtaken : List Nat}
    (fine : DecodedOrExcused h key decoder chunk) :
    DecodedOrExcused (h.arrive key' overtaken) key decoder chunk := by
  obtain decoded | excused := fine
  · exact .inl decoded
  · exact .inr (excused_arrive excused)

theorem followsKey_mono (follows : FollowsKey h key decoder fine)
    (imp : ∀ chunk, fine chunk → fine' chunk) : FollowsKey h key decoder fine' := by
  obtain ⟨before, number, timestamp, later, split, noError, all⟩ := follows
  exact ⟨before, number, timestamp, later, split, noError,
    fun chunk above came => imp chunk (all chunk above came)⟩

theorem followsKey_write (follows : FollowsKey h key decoder fine)
    (noError : .error decoder ∉ more) : FollowsKey (h.write more) key decoder fine := by
  obtain ⟨before, number, timestamp, later, split, noErrorYet, all⟩ := follows
  refine ⟨before, number, timestamp, later ++ more, ?_, ?_, all⟩
  · simp [History.write, split]
  · exact fun error => (List.mem_append.mp error).elim noErrorYet noError

theorem followsKey_arrive {overtaken : List Nat} (follows : FollowsKey h key decoder fine)
    (new : key' = key → fine h.arrivals.length) :
    FollowsKey (h.arrive key' overtaken) key decoder fine := by
  obtain ⟨before, number, timestamp, later, split, noError, all⟩ := follows
  refine ⟨before, number, timestamp, later, split, noError, fun chunk above came => ?_⟩
  obtain older | ⟨rfl, same⟩ := getElem?_snoc.mp came
  · exact all chunk above older
  · exact new same.symm

/-! ## Chunks that wait -/

/-- The chunks are in order, and all that came since the first of them are among them, but for
excused ones. -/
structure Waiting (h : History) (key : DecoderKey) (chunks : List Chunk) : Prop where
  sorted : (chunks.map Chunk.number).Pairwise (· < ·)
  arrived : ∀ chunk ∈ chunks, h.arrivals[chunk.number]? = some key
  covers : ∀ chunk ∈ chunks, ∀ number, chunk.number ≤ number → h.arrivals[number]? = some key →
    number ∈ chunks.map Chunk.number ∨ Excused h key number

variable {chunk : Chunk} {chunks : List Chunk}

theorem waiting_tail (waiting : Waiting h key (chunk :: chunks)) : Waiting h key chunks := by
  obtain ⟨first, sorted⟩ := List.pairwise_cons.mp waiting.sorted
  refine ⟨sorted, fun other mem => waiting.arrived other (List.mem_cons_of_mem _ mem), ?_⟩
  intro other mem number above came
  obtain among | excused := waiting.covers other (List.mem_cons_of_mem _ mem) number above came
  · have later : chunk.number < other.number := first _ (List.mem_map_of_mem mem)
    rw [List.map_cons, List.mem_cons] at among
    exact .inl (among.resolve_left (by omega))
  · exact .inr excused

theorem waiting_write (waiting : Waiting h key chunks) : Waiting (h.write more) key chunks := by
  refine ⟨waiting.sorted, waiting.arrived, fun other mem number above came => ?_⟩
  exact (waiting.covers other mem number above came).imp id excused_write

theorem waiting_arrive {overtaken : List Nat} (waiting : Waiting h key chunks)
    (new : key' = key → Excused (h.arrive key' overtaken) key h.arrivals.length) :
    Waiting (h.arrive key' overtaken) key chunks := by
  refine ⟨waiting.sorted, ?_, ?_⟩
  · exact fun other mem => getElem?_snoc.mpr (.inl (waiting.arrived other mem))
  · intro other mem number above came
    obtain older | ⟨rfl, same⟩ := getElem?_snoc.mp came
    · exact (waiting.covers other mem number above older).imp id excused_arrive
    · exact .inr (new same.symm)

theorem waiting_snoc {overtaken : List Nat} (waiting : Waiting h key chunks)
    (last : chunk.number = h.arrivals.length) :
    Waiting (h.arrive key overtaken) key (chunks ++ [chunk]) := by
  have below : ∀ other ∈ chunks, other.number < h.arrivals.length := fun other mem =>
    (List.getElem?_eq_some_iff.mp (waiting.arrived other mem)).1
  refine ⟨?_, ?_, ?_⟩
  · rw [List.map_append, List.pairwise_append]
    refine ⟨waiting.sorted, List.pairwise_singleton _ _, ?_⟩
    rintro _ old _ new
    obtain ⟨other, mem, rfl⟩ := List.mem_map.mp old
    rw [List.mem_singleton.mp new, last]
    exact below other mem
  · intro other mem
    obtain old | new := List.mem_append.mp mem
    · exact getElem?_snoc.mpr (.inl (waiting.arrived other old))
    · rw [List.mem_singleton.mp new]
      exact getElem?_snoc.mpr (.inr ⟨last, rfl⟩)
  · intro other mem number above came
    rw [List.map_append, List.mem_append]
    obtain older | ⟨rfl, -⟩ := getElem?_snoc.mp came
    · obtain old | new := List.mem_append.mp mem
      · exact (waiting.covers other old number above older).imp .inl excused_arrive
      · have inside := (List.getElem?_eq_some_iff.mp older).1
        rw [List.mem_singleton.mp new, last] at above
        exact absurd inside (Nat.not_lt.mpr above)
    · exact .inl (.inr (List.mem_singleton.mpr last.symm))

theorem waiting_nil : Waiting h key [] :=
  ⟨.nil, nofun, nofun⟩

/-! ## One chunk -/

variable {s t : Worker} {meets : Meets} {entry : Entry}

/-- What `decodeVideo` makes of a chunk for a decoder. -/
inductive Made (s t : Worker) (key : DecoderKey) (decoder : Nat) (chunk : Chunk) :
    Entry → Prop where
  | unarmed (reason : Reason) (unarmed : reason.Unarmed)
      (needs : t.decoderNeedsKeyFrame key = s.decoderNeedsKeyFrame key)
      (last : t.decoderLastPts key = s.decoderLastPts key) :
      Made s t key decoder chunk (.dropped chunk.number key reason)
  | armed (reason : Reason) (needs : t.decoderNeedsKeyFrame key ≠ some false)
      (last : t.decoderLastPts key = s.decoderLastPts key) :
      Made s t key decoder chunk (.dropped chunk.number key reason)
  | unbuilt (timestamp : Int) (last : t.decoderLastPts key = some timestamp)
      (beyond : maxTimestamp < timestamp)
      (above : ∀ before, s.decoderLastPts key = some before → before < timestamp) :
      Made s t key decoder chunk (.dropped chunk.number key .unbuilt)
  | passed (timestamp : Int) (ok : Bool) (last : t.decoderLastPts key = some timestamp)
      (within : timestamp ≤ maxTimestamp)
      (above : ∀ before, s.decoderLastPts key = some before → before < timestamp)
      (may : chunk.isKey = false → s.decoderNeedsKeyFrame key = some false)
      (failed : ok = false → t.decoderNeedsKeyFrame key = some true) :
      Made s t key decoder chunk (.passed chunk.number key chunk.isKey decoder timestamp ok)

/-- Only the tables of one key change. -/
def OthersKept (s t : Worker) (key : DecoderKey) : Prop :=
  ∀ other, other ≠ key → t.decoderNeedsKeyFrame other = s.decoderNeedsKeyFrame other ∧
    t.decoderLastPts other = s.decoderLastPts other

theorem normalizeTimestamp_above {pts : Option Rat} {before : Int}
    (last : s.decoderLastPts key = some before) :
    before < (s.normalizeTimestamp key pts).2 := by
  simp only [Worker.normalizeTimestamp, last]
  split <;> omega

theorem coolDownBackpressureState_eq {now : Int} : ∃ overflowState,
    s.coolDownBackpressureState key now = { s with overflowState } := by
  unfold Worker.coolDownBackpressureState
  split
  · exact ⟨_, rfl⟩
  · split <;> exact ⟨_, rfl⟩

theorem checkQueue_kept {u : Worker} {reason : Option Reason}
    (checked : s.checkQueue key meets = (u, reason)) :
    u.log = s.log ∧ u.decoderLastPts = s.decoderLastPts ∧
    (∀ other, other ≠ key → u.decoderNeedsKeyFrame other = s.decoderNeedsKeyFrame other) ∧
    ∀ why, reason = some why → why.Unarmed ∧
      u.decoderNeedsKeyFrame key = s.decoderNeedsKeyFrame key ∨
      u.decoderNeedsKeyFrame key ≠ some false := by
  unfold Worker.checkQueue at checked
  dsimp only at checked
  split at checked
  · obtain ⟨overflowState, same⟩ : ∃ overflowState,
        s.coolDownBackpressureState key meets.now = { s with overflowState } :=
      coolDownBackpressureState_eq
    rw [same] at checked
    obtain ⟨rfl, rfl⟩ := Prod.mk.inj checked
    exact ⟨rfl, rfl, fun _ _ => rfl, nofun⟩
  · split at checked
    · obtain ⟨rfl, rfl⟩ := Prod.mk.inj checked
      refine ⟨rfl, rfl, fun _ _ => rfl, ?_⟩
      rintro _ ⟨⟩
      exact .inl ⟨trivial, rfl⟩
    · obtain ⟨rfl, rfl⟩ := Prod.mk.inj checked
      refine ⟨rfl, rfl, fun other differs => Function.update_of_ne differs .., ?_⟩
      rintro _ ⟨⟩
      right
      simp [Worker.setNeedsKeyFrame]

theorem shouldDropFrame_kept {u : Worker} {isKey : Bool} {reason : Option Reason}
    (asked : s.shouldDropFrame key isKey meets = (u, reason)) :
    u.log = s.log ∧ u.decoderLastPts = s.decoderLastPts ∧
    (∀ other, other ≠ key → u.decoderNeedsKeyFrame other = s.decoderNeedsKeyFrame other) ∧
    (reason = none → isKey = false → s.decoderNeedsKeyFrame key = some false) ∧
    ∀ why, reason = some why → why.Unarmed ∧
      u.decoderNeedsKeyFrame key = s.decoderNeedsKeyFrame key ∨
      u.decoderNeedsKeyFrame key ≠ some false := by
  unfold Worker.shouldDropFrame at asked
  split at asked
  · rename_i needed
    split at asked
    · obtain ⟨rfl, rfl⟩ := Prod.mk.inj asked
      exact ⟨rfl, rfl, fun _ _ => rfl, nofun, fun _ _ => .inr needed⟩
    · rename_i delta
      obtain ⟨rfl, rfl⟩ := Prod.mk.inj asked
      refine ⟨rfl, rfl, fun other differs => Function.update_of_ne differs .., ?_, nofun⟩
      rintro - rfl
      exact absurd rfl delta
  · rename_i armed
    have sure : s.decoderNeedsKeyFrame key = some false := not_not.mp armed
    split at asked
    · obtain ⟨rfl, rfl⟩ := Prod.mk.inj asked
      exact ⟨rfl, rfl, fun _ _ => rfl, fun _ _ => sure, nofun⟩
    · obtain ⟨log, last, others, dropped⟩ := checkQueue_kept asked
      exact ⟨log, last, others, fun _ _ => sure, dropped⟩

theorem made_pass {u : Worker} (decoder : Nat) (meets : Meets)
    (last : u.decoderLastPts key = s.decoderLastPts key)
    (may : chunk.isKey = false → s.decoderNeedsKeyFrame key = some false) :
    ∃ entry, (u.pass key decoder chunk meets).log = u.log ++ [entry] ∧
      OthersKept u (u.pass key decoder chunk meets) key ∧
      Made s (u.pass key decoder chunk meets) key decoder chunk entry := by
  have above : ∀ before, s.decoderLastPts key = some before →
      before < (u.normalizeTimestamp key chunk.pts).2 := fun before same =>
    normalizeTimestamp_above (last.trans same)
  have others : ∀ other, other ≠ key → (u.normalizeTimestamp key chunk.pts).1.decoderLastPts other =
      u.decoderLastPts other := fun other differs => Function.update_of_ne differs ..
  have here : (u.normalizeTimestamp key chunk.pts).1.decoderLastPts key =
      some (u.normalizeTimestamp key chunk.pts).2 := Function.update_self ..
  unfold Worker.pass
  dsimp only
  split
  · rename_i beyond
    exact ⟨_, rfl, fun other differs => ⟨rfl, others other differs⟩, .unbuilt _ here beyond above⟩
  · rename_i within
    split
    · refine ⟨_, rfl, fun other differs => ⟨?_, others other differs⟩,
        .passed _ false here (Int.not_lt.mp within) above may fun _ => ?_⟩
      · exact Function.update_of_ne differs ..
      · exact Function.update_self ..
    · exact ⟨_, rfl, fun other differs => ⟨rfl, others other differs⟩,
        .passed _ true here (Int.not_lt.mp within) above may nofun⟩

theorem made_decodeChunk (s : Worker) (key : DecoderKey) (decoder : Nat) (chunk : Chunk)
    (meets : Meets) : ∃ entry,
    (s.decodeChunk key decoder chunk meets).log = s.log ++ [entry] ∧
    OthersKept s (s.decodeChunk key decoder chunk meets) key ∧
    Made s (s.decodeChunk key decoder chunk meets) key decoder chunk entry := by
  unfold Worker.decodeChunk
  split
  · exact ⟨_, rfl, fun _ _ => ⟨rfl, rfl⟩, .unarmed .empty trivial rfl rfl⟩
  · split
    · rename_i u reason asked
      obtain ⟨log, last, others, -, dropped⟩ := shouldDropFrame_kept asked
      refine ⟨.dropped chunk.number key reason, congrArg (· ++ _) log,
        fun other differs => ⟨others other differs, congrFun last other⟩, ?_⟩
      obtain ⟨unarmed, needs⟩ | needs := dropped reason rfl
      · exact .unarmed reason unarmed needs (congrFun last key)
      · exact .armed reason needs (congrFun last key)
    · rename_i u asked
      obtain ⟨log, last, others, may, -⟩ := shouldDropFrame_kept asked
      obtain ⟨entry, written, othersToo, made⟩ := made_pass decoder meets (congrFun last key)
        (may rfl)
      refine ⟨entry, written.trans (congrArg (· ++ _) log), fun other differs => ?_, made⟩
      obtain ⟨needs', last'⟩ := othersToo other differs
      exact ⟨needs'.trans (others other differs), last'.trans (congrFun last other)⟩

/-! ## What a decoder got -/

theorem mem_timestamps {log : List Entry} {timestamp : Int} :
    timestamp ∈ timestamps log decoder ↔
      ∃ chunk key isKey ok, .passed chunk key isKey decoder timestamp ok ∈ log := by
  rw [timestamps, List.mem_filterMap]
  constructor
  · rintro ⟨entry, mem, got⟩
    cases entry with
    | passed chunk key isKey i given ok =>
      dsimp only at got
      split at got
      · rename_i same
        subst same
        obtain rfl := Option.some.inj got
        exact ⟨chunk, key, isKey, ok, mem⟩
      · cases got
    | dropped => cases got
    | error => cases got
  · rintro ⟨chunk, key, isKey, ok, mem⟩
    exact ⟨_, mem, if_pos rfl⟩

theorem timestamps_append {log : List Entry} :
    timestamps (log ++ more) decoder = timestamps log decoder ++ timestamps more decoder :=
  List.filterMap_append

theorem timestamps_write_silent (silent : timestamps more decoder = []) :
    timestamps (h.write more).log decoder = timestamps h.log decoder := by
  rw [History.write, timestamps_append, silent, List.append_nil]

/-- The chunks of the key go to the decoder, and `rest` of them are still to come: a delta chunk
that may pass follows a key chunk, unless no chunk can be made any more. -/
structure Fed (h : History) (key : DecoderKey) (decoder : Nat) (needs : Option Bool)
    (last : Option Int) (rest : List Chunk) : Prop where
  follows : needs = some false → (∃ timestamp, last = some timestamp ∧ maxTimestamp < timestamp) ∨
    FollowsKey h key decoder fun chunk =>
      chunk ∈ rest.map Chunk.number ∨ DecodedOrExcused h key decoder chunk
  past : ∀ timestamp ∈ timestamps h.log decoder, ∃ latest, last = some latest ∧ timestamp ≤ latest

variable {needs : Option Bool} {last : Option Int} {rest : List Chunk}

theorem fed_write (fed : Fed h key decoder needs last rest) (noError : .error decoder ∉ more)
    (noChunk : timestamps more decoder = []) :
    Fed (h.write more) key decoder needs last rest := by
  refine ⟨fun sure => (fed.follows sure).imp id fun follows => ?_, fun timestamp got => ?_⟩
  · exact followsKey_mono (followsKey_write follows noError) fun chunk fine =>
      fine.imp id decodedOrExcused_write
  · refine fed.past timestamp ?_
    rw [timestamps_write_silent noChunk] at got
    exact got

theorem fed_arrive {overtaken : List Nat} (fed : Fed h key decoder needs last [])
    (new : key' = key → h.arrivals.length ∈ rest.map Chunk.number ∨
      DecodedOrExcused (h.arrive key' overtaken) key decoder h.arrivals.length) :
    Fed (h.arrive key' overtaken) key decoder needs last rest := by
  refine ⟨fun sure => (fed.follows sure).imp id fun follows => ?_, fed.past⟩
  obtain ⟨before, number, timestamp, later, split, noError, all⟩ := follows
  refine ⟨before, number, timestamp, later, split, noError, fun chunk above came => ?_⟩
  obtain older | ⟨rfl, same⟩ := getElem?_snoc.mp came
  · obtain none' | fine := all chunk above older
    · cases none'
    · exact .inr (decodedOrExcused_arrive fine)
  · exact new same.symm

/-- A decoder that is new, and needs a key chunk. -/
theorem fed_new (unknown : timestamps h.log decoder = []) :
    Fed h key decoder (some true) last rest := by
  refine ⟨nofun, fun timestamp got => ?_⟩
  rw [unknown] at got
  cases got

theorem follows_next (follows : FollowsKey h key decoder fun number =>
      number ∈ (chunk :: rest).map Chunk.number ∨ DecodedOrExcused h key decoder number)
    (noError : .error decoder ∉ [entry])
    (here : DecodedOrExcused (h.write [entry]) key decoder chunk.number) :
    FollowsKey (h.write [entry]) key decoder fun number =>
      number ∈ rest.map Chunk.number ∨ DecodedOrExcused (h.write [entry]) key decoder number := by
  refine followsKey_mono (followsKey_write follows noError) fun number fine => ?_
  obtain among | fine := fine
  · rw [List.map_cons, List.mem_cons] at among
    obtain rfl | later := among
    · exact .inr here
    · exact .inl later
  · exact .inr (decodedOrExcused_write fine)

/-- A key chunk that is decoded is followed by the chunks that wait behind it. -/
theorem follows_key {timestamp : Int} (waiting : Waiting h key (chunk :: rest)) :
    FollowsKey (h.write [.passed chunk.number key true decoder timestamp true]) key decoder
      fun number => number ∈ rest.map Chunk.number ∨ DecodedOrExcused
        (h.write [.passed chunk.number key true decoder timestamp true]) key decoder number := by
  refine ⟨h.log, chunk.number, timestamp, [], rfl, List.not_mem_nil, fun number above came => ?_⟩
  obtain among | excused :=
    waiting.covers chunk List.mem_cons_self number (Nat.le_of_lt above) came
  · rw [List.map_cons, List.mem_cons] at among
    exact .inl (among.resolve_left (Nat.ne_of_gt above))
  · exact .inr (.inr (excused_write excused))

theorem fed_made (made : Made s t key decoder chunk entry)
    (fed : Fed h key decoder (s.decoderNeedsKeyFrame key) (s.decoderLastPts key) (chunk :: rest))
    (waiting : Waiting h key (chunk :: rest)) :
    Fed (h.write [entry]) key decoder (t.decoderNeedsKeyFrame key) (t.decoderLastPts key) rest := by
  cases made with
  | unarmed reason unarmed needs last =>
    rw [needs, last]
    refine ⟨fun sure => (fed.follows sure).imp id fun follows => ?_, ?_⟩
    · exact follows_next follows (by simp)
        (.inr (.inr ⟨reason, unarmed, List.mem_append_right _ List.mem_cons_self⟩))
    · rw [timestamps_write_silent rfl]
      exact fed.past
  | armed reason needs last =>
    refine ⟨fun sure => absurd sure needs, ?_⟩
    rw [last, timestamps_write_silent rfl]
    exact fed.past
  | unbuilt timestamp last beyond above =>
    refine ⟨fun _ => .inl ⟨timestamp, last, beyond⟩, fun old got => ⟨timestamp, last, ?_⟩⟩
    rw [timestamps_write_silent rfl] at got
    obtain ⟨latest, before, atMost⟩ := fed.past old got
    exact Int.le_of_lt (Int.lt_of_le_of_lt atMost (above latest before))
  | passed timestamp ok last within above may failed =>
    refine ⟨fun sure => .inr ?_, fun old got => ⟨timestamp, last, ?_⟩⟩
    · cases ok with
      | false => rw [failed rfl] at sure; cases sure
      | true =>
        cases isKey : chunk.isKey with
        | true => exact follows_key waiting
        | false =>
          obtain ⟨latest, before, beyond⟩ | follows := fed.follows (may isKey)
          · have := above latest before
            omega
          · exact follows_next follows (by simp)
              (.inl ⟨false, timestamp, List.mem_append_right _ List.mem_cons_self⟩)
    · rw [History.write, timestamps_append, List.mem_append] at got
      obtain older | new := got
      · obtain ⟨latest, before, atMost⟩ := fed.past old older
        exact Int.le_of_lt (Int.lt_of_le_of_lt atMost (above latest before))
      · have same : old = timestamp := by simpa [timestamps] using new
        exact Int.le_of_eq same

/-- The property of deltas and timestamps holds of a history, which names only decoders below
`created` and chunks that came. -/
structure Told (h : History) (created : Nat) : Prop where
  deltas : DeltasFollow h DecodedOrExcused
  increasing : ∀ decoder, (timestamps h.log decoder).Pairwise (· < ·)
  known : ∀ chunk key isKey decoder timestamp ok,
    .passed chunk key isKey decoder timestamp ok ∈ h.log →
    decoder < created ∧ chunk < h.arrivals.length

variable {created : Nat}

theorem told_mono {created' : Nat} (told : Told h created) (more : created ≤ created') :
    Told h created' := by
  refine ⟨told.deltas, told.increasing, fun chunk key isKey decoder timestamp ok mem => ?_⟩
  obtain ⟨below, came⟩ := told.known _ _ _ _ _ _ mem
  exact ⟨Nat.lt_of_lt_of_le below more, came⟩

theorem told_unknown (told : Told h created) : timestamps h.log created = [] := by
  refine List.eq_nil_iff_forall_not_mem.mpr fun timestamp got => ?_
  obtain ⟨chunk, key, isKey, ok, mem⟩ := mem_timestamps.mp got
  exact Nat.lt_irrefl _ (told.known _ _ _ _ _ _ mem).1

theorem deltas_write_one (deltas : DeltasFollow h DecodedOrExcused)
    (new : ∀ number key decoder timestamp ok,
      entry = .passed number key false decoder timestamp ok →
      FollowsKey h key decoder fun chunk =>
        number ≤ chunk ∨ DecodedOrExcused h key decoder chunk) :
    DeltasFollow (h.write [entry]) DecodedOrExcused := by
  intro before number key decoder timestamp ok later split
  obtain ⟨-, rfl, same⟩ | ⟨later', -, older⟩ := Runs.snoc_eq_split.mp split
  · exact new number key decoder timestamp ok same
  · exact deltas before number key decoder timestamp ok later' older

theorem told_write (told : Told h created) (silent : ∀ decoder, timestamps more decoder = []) :
    Told (h.write more) created := by
  have none' : ∀ chunk key isKey decoder timestamp ok,
      Entry.passed chunk key isKey decoder timestamp ok ∉ more := by
    intro chunk key isKey decoder timestamp ok mem
    have got := mem_timestamps.mpr ⟨chunk, key, isKey, ok, mem⟩
    rw [silent] at got
    cases got
  constructor
  · induction more using List.reverseRecOn with
    | nil => simpa [History.write] using told.deltas
    | append_singleton more entry ih =>
      have deltas : DeltasFollow (h.write more) DecodedOrExcused := by
        refine ih (fun decoder => ?_) fun chunk key isKey decoder timestamp ok mem =>
          none' chunk key isKey decoder timestamp ok (List.mem_append_left _ mem)
        have both := silent decoder
        rw [timestamps_append] at both
        exact (List.append_eq_nil_iff.mp both).1
      have next : DeltasFollow ((h.write more).write [entry]) DecodedOrExcused :=
        deltas_write_one deltas fun number key decoder timestamp ok same => absurd
          (List.mem_append_right _ (List.mem_singleton.mpr same.symm))
          (none' number key false decoder timestamp ok)
      simpa [History.write] using next
  · intro decoder
    rw [timestamps_write_silent (silent decoder)]
    exact told.increasing decoder
  · intro chunk key isKey decoder timestamp ok mem
    exact told.known _ _ _ _ _ _ ((List.mem_append.mp mem).resolve_right (none' _ _ _ _ _ _))

theorem told_arrive {overtaken : List Nat} (told : Told h created) :
    Told (h.arrive key overtaken) created := by
  refine ⟨?_, told.increasing, ?_⟩
  · intro before number key' decoder timestamp ok later split
    have mem : Entry.passed number key' false decoder timestamp ok ∈ h.log :=
      split ▸ List.mem_append_right before List.mem_cons_self
    obtain ⟨-, came⟩ := told.known _ _ _ _ _ _ mem
    have follows := told.deltas before number key' decoder timestamp ok later split
    have later' : FollowsKey (History.arrive { h with log := before } key overtaken) key' decoder
        fun chunk => number ≤ chunk ∨ DecodedOrExcused
          (History.arrive { h with log := before } key overtaken) key' decoder chunk :=
      followsKey_arrive (followsKey_mono follows fun chunk fine =>
        fine.imp id decodedOrExcused_arrive) fun _ => .inl (Nat.le_of_lt came)
    exact later'
  · intro chunk key' isKey decoder timestamp ok mem
    obtain ⟨below, came⟩ := told.known _ _ _ _ _ _ mem
    refine ⟨below, Nat.lt_of_lt_of_le came ?_⟩
    simp [History.arrive]

theorem told_made (told : Told h created) (made : Made s t key decoder chunk entry)
    (fed : Fed h key decoder (s.decoderNeedsKeyFrame key) (s.decoderLastPts key) (chunk :: rest))
    (waiting : Waiting h key (chunk :: rest)) (below : decoder < created) :
    Told (h.write [entry]) created := by
  have came := (List.getElem?_eq_some_iff.mp (waiting.arrived chunk List.mem_cons_self)).1
  cases made with
  | unarmed => exact told_write told fun _ => rfl
  | armed => exact told_write told fun _ => rfl
  | unbuilt => exact told_write told fun _ => rfl
  | passed timestamp ok last within above may failed =>
    constructor
    · refine deltas_write_one told.deltas ?_
      intro number key' decoder' timestamp' ok' same
      obtain ⟨rfl, rfl, isKey, rfl, rfl, rfl⟩ := Entry.passed.inj same
      obtain ⟨latest, before, beyond⟩ | follows := fed.follows (may isKey)
      · have := above latest before
        omega
      · refine followsKey_mono follows fun number fine => fine.imp (fun among => ?_) id
        obtain ⟨first, -⟩ := List.pairwise_cons.mp waiting.sorted
        rw [List.map_cons, List.mem_cons] at among
        obtain rfl | later := among
        · exact Nat.le_refl _
        · exact Nat.le_of_lt (first number later)
    · intro decoder'
      rw [History.write, timestamps_append, List.pairwise_append]
      refine ⟨told.increasing decoder', ?_, ?_⟩
      · by_cases same : decoder = decoder' <;> simp [timestamps, same]
      · intro old older new newer
        obtain ⟨_, _, _, _, mem⟩ := mem_timestamps.mp newer
        obtain ⟨-, -, -, rfl, rfl, -⟩ := Entry.passed.inj (List.mem_singleton.mp mem)
        obtain ⟨latest, before, atMost⟩ := fed.past old older
        exact Int.lt_of_le_of_lt atMost (above latest before)
    · intro number key' isKey decoder' timestamp' ok' mem
      obtain older | new := List.mem_append.mp mem
      · exact told.known _ _ _ _ _ _ older
      · obtain ⟨rfl, -, -, rfl, -, -⟩ := Entry.passed.inj (List.mem_singleton.mp new)
        exact ⟨below, came⟩

/-! ## The worker -/

/-- The invariant, for the registered decoders whose keys `p` names. -/
structure Sound (overtaken : List Nat) (s : Worker) (p : DecoderKey → Prop) : Prop where
  told : Told (s.history overtaken) s.created.length
  made : ∀ key decoder, p key → EntryList.get s.decoders key = some decoder →
    ∃ isOpen, s.created[decoder]? = some ⟨key, isOpen⟩
  rendered : ∀ key decoder, p key → EntryList.get s.decoders key = some decoder →
    s.shouldRenderDisplay key.display
  fed : ∀ key decoder, p key → EntryList.get s.decoders key = some decoder →
    Fed (s.history overtaken) key decoder (s.decoderNeedsKeyFrame key) (s.decoderLastPts key) []
  begun : ∀ c ∈ s.creations, c.number < s.started
  waiting : ∀ c ∈ s.creations, Waiting (s.history overtaken) c.key c.chunks
  booting : ∀ key number, s.decoderBooting key = some number → number < s.started ∧
    ∀ c ∈ s.creations, c.number = number → c.key = key

/-- Tables are cleared, and decoders closed. -/
structure Forgets (s t : Worker) : Prop where
  arrivals : t.arrivals = s.arrivals
  log : t.log = s.log
  started : t.started = s.started
  creations : t.creations ⊆ s.creations
  length : t.created.length = s.created.length
  created : ∀ (decoder : Nat) (key : DecoderKey) (isOpen : Bool),
    s.created[decoder]? = some ⟨key, isOpen⟩ → ∃ isOpen', t.created[decoder]? = some ⟨key, isOpen'⟩
  booting : ∀ key number, t.decoderBooting key = some number →
    s.decoderBooting key = some number
  kept : ∀ key decoder, EntryList.get t.decoders key = some decoder →
    EntryList.get s.decoders key = some decoder ∧
    t.decoderNeedsKeyFrame key = s.decoderNeedsKeyFrame key ∧
    t.decoderLastPts key = s.decoderLastPts key

variable {overtaken : List Nat} {p q : DecoderKey → Prop} {u : Worker}

theorem Forgets.trans (first : Forgets s t) (second : Forgets t u) : Forgets s u := by
  constructor
  · exact second.arrivals.trans first.arrivals
  · exact second.log.trans first.log
  · exact second.started.trans first.started
  · exact List.Subset.trans second.creations first.creations
  · exact second.length.trans first.length
  · intro decoder key isOpen found
    obtain ⟨isOpen', found'⟩ := first.created decoder key isOpen found
    exact second.created decoder key isOpen' found'
  · exact fun key number boots => first.booting key number (second.booting key number boots)
  · intro key decoder found
    obtain ⟨found', needs', last'⟩ := second.kept key decoder found
    obtain ⟨found'', needs, last⟩ := first.kept key decoder found'
    exact ⟨found'', needs'.trans needs, last'.trans last⟩

theorem sound_forgets (sound : Sound overtaken s p) (forgets : Forgets s t)
    (rendered : ∀ key decoder, EntryList.get t.decoders key = some decoder →
      s.shouldRenderDisplay key.display → t.shouldRenderDisplay key.display) :
    Sound overtaken t p := by
  have same : t.history overtaken = s.history overtaken := by
    rw [Worker.history, forgets.arrivals, forgets.log, Worker.history]
  constructor
  · rw [same, forgets.length]
    exact sound.told
  · intro key decoder named found
    obtain ⟨isOpen, made⟩ := sound.made key decoder named (forgets.kept key decoder found).1
    exact forgets.created decoder key isOpen made
  · intro key decoder named found
    exact rendered key decoder found
      (sound.rendered key decoder named (forgets.kept key decoder found).1)
  · intro key decoder named found
    obtain ⟨found', needs, last⟩ := forgets.kept key decoder found
    rw [same, needs, last]
    exact sound.fed key decoder named found'
  · intro c mem
    rw [forgets.started]
    exact sound.begun c (forgets.creations mem)
  · intro c mem
    rw [same]
    exact sound.waiting c (forgets.creations mem)
  · intro key number boots
    obtain ⟨below, keys⟩ := sound.booting key number (forgets.booting key number boots)
    rw [forgets.started]
    exact ⟨below, fun c mem => keys c (forgets.creations mem)⟩

/-- One more key is named. -/
theorem sound_add (sound : Sound overtaken s (· ≠ key))
    (made : ∀ decoder, EntryList.get s.decoders key = some decoder →
      (∃ isOpen, s.created[decoder]? = some ⟨key, isOpen⟩) ∧
      s.shouldRenderDisplay key.display ∧
      Fed (s.history overtaken) key decoder (s.decoderNeedsKeyFrame key)
        (s.decoderLastPts key) []) : Sound overtaken s fun _ => True := by
  refine ⟨sound.told, fun other decoder _ found => ?_, fun other decoder _ found => ?_,
    fun other decoder _ found => ?_, sound.begun, sound.waiting, sound.booting⟩ <;>
    by_cases same : other = key
  · subst same
    exact (made decoder found).1
  · exact sound.made other decoder same found
  · subst same
    exact (made decoder found).2.1
  · exact sound.rendered other decoder same found
  · subst same
    exact (made decoder found).2.2
  · exact sound.fed other decoder same found

theorem sound_mono (sound : Sound overtaken s p) (imp : ∀ key, q key → p key) :
    Sound overtaken s q := by
  refine ⟨sound.told, fun key decoder named => ?_, fun key decoder named => ?_,
    fun key decoder named => ?_, sound.begun, sound.waiting, sound.booting⟩
  · exact sound.made key decoder (imp key named)
  · exact sound.rendered key decoder (imp key named)
  · exact sound.fed key decoder (imp key named)

theorem sound_decodeChunk (meets : Meets) (sound : Sound overtaken s (· ≠ key))
    (made : ∃ isOpen, s.created[decoder]? = some ⟨key, isOpen⟩)
    (fed : Fed (s.history overtaken) key decoder (s.decoderNeedsKeyFrame key)
      (s.decoderLastPts key) (chunk :: chunks))
    (waiting : Waiting (s.history overtaken) key (chunk :: chunks))
    (same : s.decodeChunk key decoder chunk meets = t) :
    Sound overtaken t (· ≠ key) ∧
    Fed (t.history overtaken) key decoder (t.decoderNeedsKeyFrame key) (t.decoderLastPts key)
      chunks ∧
    Waiting (t.history overtaken) key chunks := by
  have only : ChunksOnly s t := same ▸ chunksOnly_decodeChunk
  obtain ⟨entry, log, others, became⟩ := made_decodeChunk s key decoder chunk meets
  rw [same] at log others became
  have arrivals : t.arrivals = s.arrivals := by rw [only]
  have decoders : t.decoders = s.decoders := by rw [only]
  have created : t.created = s.created := by rw [only]
  have grown : t.history overtaken = (s.history overtaken).write [entry] := by
    rw [Worker.history, arrivals, log]
    rfl
  obtain ⟨isOpen, found⟩ := made
  have below := (List.getElem?_eq_some_iff.mp found).1
  have noError : ∀ i, .error i ∉ [entry] := by
    intro i error
    cases List.mem_singleton.mp error
    cases became
  have noChunk : ∀ i, i ≠ decoder → timestamps [entry] i = [] := by
    intro i differs
    cases became with
    | passed => exact List.filterMap_cons_none (if_neg differs.symm)
    | _ => rfl
  rw [grown]
  refine ⟨⟨?_, ?_, ?_, ?_, ?_, ?_, ?_⟩, fed_made became fed waiting, waiting_write
    (waiting_tail waiting)⟩
  · rw [grown, created]
    exact told_made sound.told became fed waiting below
  · rw [decoders, created]
    exact sound.made
  · rw [decoders]
    intro other i differs is
    rw [only]
    exact sound.rendered other i differs is
  · rw [decoders, grown]
    intro other i differs is
    obtain ⟨needs, last⟩ := others other differs
    obtain ⟨isOpen', found'⟩ := sound.made other i differs is
    rw [needs, last]
    refine fed_write (sound.fed other i differs is) (noError i) (noChunk i ?_)
    rintro rfl
    rw [found] at found'
    exact differs (VideoDecoder.mk.inj (Option.some.inj found')).1.symm
  · rw [only]
    exact sound.begun
  · rw [grown]
    intro c mem
    rw [only] at mem
    exact waiting_write (sound.waiting c mem)
  · rw [only]
    exact sound.booting

theorem sound_decodeAll (meets : Nat → Meets) (sound : Sound overtaken s (· ≠ key))
    (made : ∃ isOpen, s.created[decoder]? = some ⟨key, isOpen⟩)
    (fed : Fed (s.history overtaken) key decoder (s.decoderNeedsKeyFrame key)
      (s.decoderLastPts key) chunks)
    (waiting : Waiting (s.history overtaken) key chunks)
    (same : Worker.decodeAll key decoder meets s chunks = t) :
    Sound overtaken t (· ≠ key) ∧
    Fed (t.history overtaken) key decoder (t.decoderNeedsKeyFrame key) (t.decoderLastPts key)
      [] := by
  induction chunks generalizing s with
  | nil =>
    subst same
    exact ⟨sound, fed⟩
  | cons chunk chunks ih =>
    obtain ⟨sound', fed', waiting'⟩ := sound_decodeChunk (meets chunk.number) sound made fed
      waiting rfl
    refine ih sound' ?_ fed' waiting' same
    rw [show (s.decodeChunk key decoder chunk (meets chunk.number)).created = s.created by
      rw [chunksOnly_decodeChunk (s := s)]]
    exact made

/-! ## Tables that are cleared -/

theorem forgets_closeDecoders (s : Worker) (decoders : List Nat) :
    Forgets s (s.closeDecoders decoders) := by
  refine ⟨rfl, rfl, rfl, List.Subset.refl _, List.length_mapIdx, ?_, fun _ _ => id,
    fun _ _ found => ⟨found, rfl, rfl⟩⟩
  intro decoder key isOpen found
  refine ⟨if decoder ∈ decoders then false else isOpen, ?_⟩
  rw [Worker.closeDecoders, List.getElem?_mapIdx, found]
  by_cases closes : decoder ∈ decoders <;> simp [closes]

theorem forgets_clearKeys {p : DecoderKey → Bool} : Forgets s (s.clearKeys p) := by
  refine (forgets_closeDecoders s _).trans ⟨rfl, rfl, rfl, List.Subset.refl _, rfl,
    fun _ _ isOpen found => ⟨isOpen, found⟩, ?_, ?_⟩
  · intro key number boots
    simp only [Worker.clearKeys, deleteWhere] at boots
    split at boots
    · cases boots
    · exact boots
  · intro key decoder found
    rw [Worker.clearKeys, EntryList.get_delete] at found
    split at found
    · cases found
    · rename_i kept
      exact ⟨found, if_neg kept, if_neg kept⟩

/-- Nothing that matters changes. -/
theorem forgets_same (arrivals : t.arrivals = s.arrivals) (log : t.log = s.log)
    (started : t.started = s.started) (creations : t.creations = s.creations)
    (created : t.created = s.created) (booting : t.decoderBooting = s.decoderBooting)
    (decoders : t.decoders = s.decoders)
    (needs : t.decoderNeedsKeyFrame = s.decoderNeedsKeyFrame)
    (last : t.decoderLastPts = s.decoderLastPts) : Forgets s t := by
  refine ⟨arrivals, log, started, creations ▸ List.Subset.refl _, congrArg _ created, ?_, ?_, ?_⟩
  · intro decoder key isOpen found
    exact ⟨isOpen, created ▸ found⟩
  · rw [booting]
    exact fun _ _ => id
  · rw [decoders, needs, last]
    exact fun _ _ found => ⟨found, rfl, rfl⟩

theorem forgets_clearDisplayCodecState {display : Int} {keepCodec : Option CodecType} :
    Forgets s (s.clearDisplayCodecState display keepCodec) := forgets_clearKeys

theorem forgets_clearInactiveDisplayState {display : Int} :
    Forgets s (s.clearInactiveDisplayState display) := by
  have cleared : Forgets s (s.clearPendingFrames (· ≠ display)) :=
    forgets_same rfl rfl rfl rfl rfl rfl rfl rfl rfl
  exact cleared.trans forgets_clearKeys

theorem forgets_resetDisplayState {display : Int} : Forgets s (s.resetDisplayState display) := by
  have cleared : Forgets s (s.clearPendingFrame display) :=
    forgets_same rfl rfl rfl rfl rfl rfl rfl rfl rfl
  exact cleared.trans forgets_clearKeys

theorem sound_setActiveDisplay {display : Int} {reset : Bool}
    (sound : Sound overtaken s fun _ => True) :
    Sound overtaken (s.setActiveDisplay display reset) fun _ => True := by
  have shown : Forgets s { s with activeDisplay := normalizeDisplay display } :=
    forgets_same rfl rfl rfl rfl rfl rfl rfl rfl rfl
  unfold Worker.setActiveDisplay
  dsimp only
  split
  · rename_i none'
    refine sound_forgets sound shown fun key decoder found _ => ?_
    simp [Worker.shouldRenderDisplay, none']
  rename_i normalized active
  have normal : normalizeDisplay normalized = some normalized := by
    unfold normalizeDisplay at active ⊢
    split at active
    · cases active
    · obtain rfl := Option.some.inj active
      exact if_neg ‹_›
  have inactive : Forgets s (Worker.clearInactiveDisplayState
      { s with activeDisplay := normalizeDisplay display } normalized) :=
    shown.trans forgets_clearInactiveDisplayState
  have only : ∀ key decoder, EntryList.get (Worker.clearInactiveDisplayState
      { s with activeDisplay := normalizeDisplay display } normalized).decoders key =
      some decoder → key.display = normalized := by
    intro key decoder found
    by_contra other
    rw [Worker.clearInactiveDisplayState, Worker.clearKeys, EntryList.get_delete,
      if_pos (by simpa using other)] at found
    cases found
  have rendered : ∀ {t : Worker} (key : DecoderKey), t.activeDisplay = normalizeDisplay display →
      key.display = normalized → t.shouldRenderDisplay key.display := by
    intro t key shows same
    simp [Worker.shouldRenderDisplay, shows, active, same, normal]
  split
  · refine sound_forgets sound (inactive.trans forgets_resetDisplayState)
      fun key decoder found _ => rendered key rfl ?_
    exact only key decoder (forgets_resetDisplayState.kept key decoder found).1
  · exact sound_forgets sound inactive fun key decoder found _ =>
      rendered key rfl (only key decoder found)

theorem sound_closeWorker (sound : Sound overtaken s fun _ => True) :
    Sound overtaken s.closeWorker fun _ => True := by
  have closed : Forgets s s.closeWorker :=
    (forgets_closeDecoders s _).trans ⟨rfl, rfl, rfl, List.Subset.refl _, rfl,
      fun _ _ isOpen found => ⟨isOpen, found⟩, nofun, nofun⟩
  exact sound_forgets sound closed nofun

theorem forgets_handleFrame {display : Int} : Forgets s (s.handleFrame display) := by
  unfold Worker.handleFrame
  dsimp only
  split
  · exact forgets_same rfl rfl rfl rfl rfl rfl rfl rfl rfl
  · rw [schedule_eq]
    exact forgets_same rfl rfl rfl rfl rfl rfl rfl rfl rfl

theorem forgets_render {callback : Nat} : Forgets s (s.render callback) := by
  unfold Worker.render
  split
  · dsimp only
    split <;> exact forgets_same rfl rfl rfl rfl rfl rfl rfl rfl rfl
  · exact forgets_same rfl rfl rfl rfl rfl rfl rfl rfl rfl

theorem handleFrame_activeDisplay {display : Int} :
    (s.handleFrame display).activeDisplay = s.activeDisplay := by
  unfold Worker.handleFrame
  dsimp only
  split
  · rfl
  · rw [schedule_eq]
    rfl

theorem render_activeDisplay {callback : Nat} :
    (s.render callback).activeDisplay = s.activeDisplay := by
  unfold Worker.render
  split
  · dsimp only
    split <;> rfl
  · rfl

/-! ## A chunk that comes -/

/-- A chunk that is dropped as it comes. -/
theorem sound_dropped (reason : Reason) (unarmed : reason.Unarmed) {flag : List Nat}
    (sound : Sound overtaken s fun _ => True) :
    Sound (overtaken ++ flag)
      ((s.arrive key).write (.dropped s.arrivals.length key reason)) fun _ => True := by
  have grown : ((s.arrive key).write (.dropped s.arrivals.length key reason)).history
      (overtaken ++ flag) =
      ((s.history overtaken).write [.dropped s.arrivals.length key reason]).arrive key flag := rfl
  have excused : ∀ other, key = other → Excused
      (((s.history overtaken).write [.dropped s.arrivals.length key reason]).arrive key flag) other
      s.arrivals.length := by
    rintro _ rfl
    exact .inr ⟨reason, unarmed, List.mem_append_right _ List.mem_cons_self⟩
  refine ⟨?_, sound.made, sound.rendered, ?_, sound.begun, ?_, sound.booting⟩
  · exact told_arrive (told_write sound.told fun _ => rfl)
  · intro other decoder named found
    rw [grown]
    exact fed_arrive (fed_write (sound.fed other decoder named found) (by simp) rfl)
      fun same => .inr (.inr (excused other same))
  · intro c mem
    rw [grown]
    exact waiting_arrive (waiting_write (sound.waiting c mem)) (excused c.key)

/-- A chunk that comes while it waits for none of the creations. -/
theorem sound_arrive {flag : List Nat} (sound : Sound overtaken s fun _ => True)
    (flagged : ∀ c ∈ s.creations, c.key = key → s.arrivals.length ∈ flag) :
    Sound (overtaken ++ flag) (s.arrive key) (· ≠ key) := by
  refine ⟨told_arrive sound.told, fun other decoder _ => sound.made other decoder trivial,
    fun other decoder _ => sound.rendered other decoder trivial, ?_, sound.begun, ?_,
    sound.booting⟩
  · intro other decoder differs found
    exact fed_arrive (sound.fed other decoder trivial found) fun same => absurd same.symm differs
  · intro c mem
    exact waiting_arrive (sound.waiting c mem) fun same =>
      .inl (List.mem_append_right _ (flagged c mem same.symm))

theorem sound_wait {flag : List Nat} {number : Nat} (sound : Sound overtaken s fun _ => True)
    (absent : EntryList.get s.decoders key = none) (boots : s.decoderBooting key = some number)
    (last : chunk.number = s.arrivals.length)
    (flagged : ∀ c ∈ s.creations, c.key = key → c.number ≠ number → s.arrivals.length ∈ flag) :
    Sound (overtaken ++ flag) ((s.arrive key).wait number chunk) fun _ => True := by
  have grown : ((s.arrive key).wait number chunk).history (overtaken ++ flag) =
      (s.history overtaken).arrive key flag := rfl
  have waits : ∀ c' ∈ ((s.arrive key).wait number chunk).creations, ∃ c ∈ s.creations,
      c' = if c.number = number then { c with chunks := c.chunks ++ [chunk] } else c := by
    intro c' mem
    obtain ⟨c, was, rfl⟩ := List.mem_map.mp mem
    exact ⟨c, was, rfl⟩
  obtain ⟨-, keys⟩ := sound.booting key number boots
  refine ⟨told_arrive sound.told, sound.made, sound.rendered, ?_, ?_, ?_, ?_⟩
  · intro other decoder named found
    refine fed_arrive (sound.fed other decoder named found) fun same => ?_
    rw [← same, show EntryList.get ((s.arrive key).wait number chunk).decoders key = none from
      absent] at found
    cases found
  · intro c' mem
    obtain ⟨c, was, rfl⟩ := waits c' mem
    split <;> exact sound.begun c was
  · intro c' mem
    obtain ⟨c, was, rfl⟩ := waits c' mem
    have before := sound.waiting c was
    rw [grown]
    split
    · rename_i here
      obtain rfl : c.key = key := keys c was here
      exact waiting_snoc before last
    · rename_i elsewhere
      exact waiting_arrive before fun same =>
        .inl (List.mem_append_right _ (flagged c was same.symm elsewhere))
  · intro other number' boots'
    obtain ⟨below, keys'⟩ := sound.booting other number' boots'
    refine ⟨below, fun c' mem => ?_⟩
    obtain ⟨c, was, rfl⟩ := waits c' mem
    split <;> exact keys' c was

/-- A creation begins. -/
theorem sound_begin (sound : Sound overtaken s fun _ => True)
    (waiting : Waiting (s.history overtaken) key [chunk]) :
    Sound overtaken { s with
      decoderBooting := Function.update s.decoderBooting key (some s.started)
      started := s.started + 1
      creations := s.creations ++ [⟨s.started, key, [chunk]⟩] } fun _ => True := by
  refine ⟨sound.told, sound.made, sound.rendered, sound.fed, ?_, ?_, ?_⟩
  · intro c mem
    obtain old | new := List.mem_append.mp mem
    · exact Nat.lt_succ_of_lt (sound.begun c old)
    · rw [List.mem_singleton.mp new]
      exact Nat.lt_succ_self _
  · intro c mem
    obtain old | new := List.mem_append.mp mem
    · exact sound.waiting c old
    · rw [List.mem_singleton.mp new]
      exact waiting
  · intro other number boots
    by_cases same : other = key
    · subst same
      obtain rfl : s.started = number := by simpa using boots
      refine ⟨Nat.lt_succ_self _, fun c mem numbered => ?_⟩
      obtain old | new := List.mem_append.mp mem
      · exact absurd numbered (Nat.ne_of_lt (sound.begun c old))
      · rw [List.mem_singleton.mp new]
    · have boots : s.decoderBooting other = some number := by simpa [same] using boots
      obtain ⟨below, keys⟩ := sound.booting other number boots
      refine ⟨Nat.lt_succ_of_lt below, fun c mem numbered => ?_⟩
      obtain old | new := List.mem_append.mp mem
      · exact keys c old numbered
      · rw [List.mem_singleton.mp new] at numbered
        exact absurd numbered (Nat.ne_of_gt below)

theorem sound_start {flag : List Nat} (sound : Sound overtaken s fun _ => True)
    (absent : EntryList.get s.decoders key = none) (last : chunk.number = s.arrivals.length)
    (flagged : ∀ c ∈ s.creations, c.key = key → s.arrivals.length ∈ flag) :
    Sound (overtaken ++ flag) ((s.arrive key).start key chunk) fun _ => True := by
  have cleared : Sound overtaken (s.clearDisplayCodecState key.display (some key.codec))
      fun _ => True := sound_forgets sound forgets_clearKeys fun _ _ _ shows => shows
  have arrived : Sound (overtaken ++ flag)
      ((s.clearDisplayCodecState key.display (some key.codec)).arrive key) fun _ => True := by
    refine sound_add (sound_arrive cleared flagged) fun decoder found => ?_
    rw [(forgets_clearDisplayCodecState.kept key decoder found).1] at absent
    cases absent
  have alone : Waiting ((s.history overtaken).arrive key flag) key ([] ++ [chunk]) :=
    waiting_snoc waiting_nil last
  exact sound_begin arrived alone

/-- A chunk that comes when its decoder is there. -/
theorem sound_decode {flag : List Nat} (sound : Sound overtaken s fun _ => True)
    (found : EntryList.get s.decoders key = some decoder) (last : chunk.number = s.arrivals.length)
    (flagged : ∀ c ∈ s.creations, c.key = key → s.arrivals.length ∈ flag) :
    Sound (overtaken ++ flag) ((s.arrive key).decodeChunk key decoder chunk meets)
      fun _ => True := by
  have arrived : Sound (overtaken ++ flag) (s.arrive key) (· ≠ key) := sound_arrive sound flagged
  have fed : Fed ((s.history overtaken).arrive key flag) key decoder (s.decoderNeedsKeyFrame key)
      (s.decoderLastPts key) [chunk] :=
    fed_arrive (sound.fed key decoder trivial found) fun _ => .inl (by simp [last, Worker.history])
  have alone : Waiting ((s.history overtaken).arrive key flag) key ([] ++ [chunk]) :=
    waiting_snoc waiting_nil last
  obtain ⟨sound', fed', -⟩ := sound_decodeChunk meets arrived
    (sound.made key decoder trivial found) fed alone rfl
  have only : ChunksOnly (s.arrive key) ((s.arrive key).decodeChunk key decoder chunk meets) :=
    chunksOnly_decodeChunk
  refine sound_add sound' fun decoder' found' => ?_
  have same : decoder' = decoder := by
    rw [only] at found'
    exact Option.some.inj (found'.symm.trans found)
  subst same
  refine ⟨?_, ?_, fed'⟩
  · rw [only]
    exact sound.made key decoder' trivial found
  · rw [only]
    exact sound.rendered key decoder' trivial found

theorem sound_decodeVideo {codec : CodecType} {display : Int} {data : List UInt8} {isKey : Bool}
    {pts : Option Rat} (sound : Sound overtaken s fun _ => True) :
    Sound (overtaken ++ if s.beside ⟨display, codec⟩ then [s.arrivals.length] else [])
      (s.decodeVideo codec display data isKey pts meets) fun _ => True := by
  have flagged : ∀ c ∈ s.creations, c.key = ⟨display, codec⟩ →
      (EntryList.get s.decoders ⟨display, codec⟩).isSome ∨
        s.decoderBooting ⟨display, codec⟩ ≠ some c.number →
      s.arrivals.length ∈ if s.beside ⟨display, codec⟩ then [s.arrivals.length] else [] := by
    intro c mem same elsewhere
    have beside : s.beside ⟨display, codec⟩ := by
      refine List.any_eq_true.mpr ⟨c, mem, ?_⟩
      simpa [same] using elsewhere
    rw [if_pos beside]
    exact List.mem_cons_self
  generalize (if s.beside ⟨display, codec⟩ then [s.arrivals.length] else []) = flag at flagged ⊢
  unfold Worker.decodeVideo
  dsimp only
  split
  · exact sound_dropped .noSurface trivial sound
  split
  · exact sound_dropped .inactive trivial sound
  split
  · rename_i decoder found
    refine sound_decode sound found rfl fun c mem same => flagged c mem same (.inl ?_)
    exact Option.isSome_iff_exists.mpr ⟨decoder, found⟩
  rename_i absent
  split
  · rename_i number boots
    refine sound_wait sound absent boots rfl fun c mem same other => flagged c mem same (.inr ?_)
    rw [show s.decoderBooting ⟨display, codec⟩ = some number from boots]
    exact fun equal => other (Option.some.inj equal).symm
  · rename_i idle
    refine sound_start sound absent rfl fun c mem same => flagged c mem same (.inr ?_)
    rw [show s.decoderBooting ⟨display, codec⟩ = none from idle]
    exact fun equal => by cases equal

/-! ## A creation that ends -/

theorem sound_finishCreation {c : Creation} (sound : Sound overtaken s p) :
    Sound overtaken (s.finishCreation c) p := by
  have finished : Forgets s (s.finishCreation c) := by
    refine ⟨rfl, rfl, rfl, List.filter_subset_self _, rfl,
      fun _ _ isOpen found => ⟨isOpen, found⟩, ?_,
      fun _ _ found => ⟨found, rfl, rfl⟩⟩
    intro key number boots
    by_cases same : key = c.key
    · simp [Worker.finishCreation, same] at boots
    · simpa [Worker.finishCreation, same] using boots
  exact sound_forgets sound finished fun _ _ _ shows => shows

theorem timestamps_dropped {reason : Reason} :
    timestamps (chunks.map fun chunk => .dropped chunk.number key reason) decoder = [] := by
  simp [timestamps]

theorem sound_dropAll (sound : Sound overtaken s p) : Sound overtaken (s.dropAll key chunks) p := by
  refine ⟨told_write sound.told fun _ => timestamps_dropped, sound.made, sound.rendered,
    fun other decoder named found => ?_, sound.begun, fun c mem => ?_, sound.booting⟩
  · exact fed_write (sound.fed other decoder named found) (by simp) timestamps_dropped
  · exact waiting_write (sound.waiting c mem)

theorem sound_addDecoder {isOpen : Bool} (sound : Sound overtaken s p) :
    Sound overtaken (s.addDecoder key isOpen) p := by
  refine ⟨told_mono sound.told (by simp [Worker.addDecoder]), ?_, sound.rendered, sound.fed,
    sound.begun, sound.waiting, sound.booting⟩
  intro other decoder named found
  obtain ⟨isOpen', made⟩ := sound.made other decoder named found
  exact ⟨isOpen', getElem?_snoc.mpr (.inl made)⟩

theorem sound_configured (sound : Sound overtaken s p) (only : ∀ other, q other → p other)
    (others : ¬ q key) : Sound overtaken (s.configured key) q := by
  have added : Sound overtaken (s.addDecoder key true) q := sound_mono (sound_addDecoder sound) only
  refine ⟨added.told, added.made, added.rendered, fun other decoder named found => ?_,
    added.begun, added.waiting, added.booting⟩
  have differs : other ≠ key := by
    rintro rfl
    exact others named
  have fed := added.fed other decoder named found
  have needs : (s.configured key).decoderNeedsKeyFrame other = s.decoderNeedsKeyFrame other :=
    Function.update_of_ne differs ..
  have last : (s.configured key).decoderLastPts other = s.decoderLastPts other :=
    Function.update_of_ne differs ..
  rw [needs, last]
  exact fed

theorem sound_register (sound : Sound overtaken s (· ≠ key)) :
    Sound overtaken (s.register key decoder) (· ≠ key) := by
  have older : ∀ other i, other ≠ key →
      EntryList.get (s.register key decoder).decoders other = some i →
      EntryList.get s.decoders other = some i := by
    intro other i differs found
    rw [Worker.register, EntryList.get_set, if_neg differs] at found
    exact found
  exact ⟨sound.told, fun other i differs found => sound.made other i differs
      (older other i differs found), fun other i differs found => sound.rendered other i differs
      (older other i differs found), fun other i differs found => sound.fed other i differs
      (older other i differs found), sound.begun, sound.waiting, sound.booting⟩

theorem waiting_drop (waiting : Waiting h key chunks) : Waiting h key (chunks.drop 1) := by
  cases chunks with
  | nil => exact waiting
  | cons chunk chunks => exact waiting_tail waiting

/-- The chunks that waited go to a decoder that is new. -/
theorem sound_created {isOpen : Bool} {meets : Nat → Meets} (sound : Sound overtaken s (· ≠ key))
    (made : s.created[decoder]? = some ⟨key, isOpen⟩)
    (needs : s.decoderNeedsKeyFrame key = some true) (unknown : timestamps s.log decoder = [])
    (waiting : Waiting (s.history overtaken) key chunks)
    (registered : ∀ i, EntryList.get s.decoders key = some i →
      i = decoder ∧ s.shouldRenderDisplay key.display) :
    Sound overtaken (Worker.decodeAll key decoder meets s chunks) fun _ => True := by
  have fed : Fed (s.history overtaken) key decoder (s.decoderNeedsKeyFrame key)
      (s.decoderLastPts key) chunks := by
    rw [needs]
    exact fed_new unknown
  obtain ⟨sound', fed'⟩ := sound_decodeAll meets sound ⟨isOpen, made⟩ fed waiting rfl
  have only : ChunksOnly s (Worker.decodeAll key decoder meets s chunks) :=
    chunksOnly_decodeAll chunks
  refine sound_add sound' fun i found => ?_
  obtain ⟨rfl, rendered⟩ := registered i (by rw [only] at found; exact found)
  refine ⟨⟨isOpen, ?_⟩, ?_, fed'⟩
  · rw [only]
    exact made
  · rw [only]
    exact rendered

theorem sound_endCreation {c : Creation} {outcome : Outcome} {meets : Nat → Meets}
    (mem : c ∈ s.creations) (sound : Sound overtaken s fun _ => True) :
    Sound overtaken (s.endCreation c outcome meets) fun _ => True := by
  have finished : Sound overtaken (s.finishCreation c) fun _ => True := sound_finishCreation sound
  cases outcome with
  | noConfig => exact sound_dropAll finished
  | configureFailed => exact sound_dropAll (sound_addDecoder finished)
  | decoder =>
    have configured : Sound overtaken ((s.finishCreation c).configured c.key) (· ≠ c.key) :=
      sound_configured finished (fun _ _ => trivial) fun differs => differs rfl
    have made : ((s.finishCreation c).configured c.key).created[s.created.length]? =
        some ⟨c.key, true⟩ := getElem?_snoc.mpr (.inr ⟨rfl, rfl⟩)
    have needs : ((s.finishCreation c).configured c.key).decoderNeedsKeyFrame c.key = some true :=
      Function.update_self ..
    have unknown : timestamps s.log s.created.length = [] := told_unknown sound.told
    by_cases rendered : s.shouldRenderDisplay c.key.display
    · rw [endCreation_rendered rendered]
      refine sound_created (sound_register configured) made needs unknown (sound.waiting c mem)
        fun i found => ⟨?_, rendered⟩
      rw [Worker.register, EntryList.get_set, if_pos rfl] at found
      exact (Option.some.inj found).symm
    · rw [endCreation_inactive rendered]
      have closes := forgets_closeDecoders ((s.finishCreation c).configured c.key)
        [s.created.length]
      obtain ⟨isOpen, closed⟩ := closes.created s.created.length c.key true made
      have after := sound_forgets configured closes fun _ _ _ shows => shows
      refine sound_created (sound_dropAll after) closed needs ?_
        (waiting_drop (waiting_write (sound.waiting c mem))) fun i found => ?_
      · exact (timestamps_append.trans (congrArg₂ _ unknown timestamps_dropped))
      · exact absurd (sound.rendered c.key i trivial found) rendered

theorem sound_decoderError (sound : Sound overtaken s fun _ => True) :
    Sound overtaken (s.decoderError decoder) fun _ => True := by
  unfold Worker.decoderError
  split
  · rename_i d failed
    have closed : Sound overtaken (s.closeDecoders [decoder]) fun _ => True :=
      sound_forgets sound (forgets_closeDecoders s _) fun _ _ _ shows => shows
    refine ⟨told_write closed.told fun _ => rfl, closed.made, closed.rendered,
      fun key i _ found => ?_, closed.begun, fun c mem => waiting_write (closed.waiting c mem),
      closed.booting⟩
    have before := closed.fed key i trivial found
    by_cases same : key = d.key
    · have needs : (((s.closeDecoders [decoder]).setNeedsKeyFrame d.key true).write
          (.error decoder)).decoderNeedsKeyFrame key = some true := by
        rw [same]
        exact Function.update_self ..
      rw [needs]
      refine ⟨nofun, fun timestamp got => before.past timestamp ?_⟩
      have both : timestamp ∈ timestamps (s.log ++ [Entry.error decoder]) i := got
      rw [timestamps_append] at both
      exact (List.mem_append.mp both).resolve_right (List.not_mem_nil)
    · have needs : (((s.closeDecoders [decoder]).setNeedsKeyFrame d.key true).write
          (.error decoder)).decoderNeedsKeyFrame key = s.decoderNeedsKeyFrame key :=
        Function.update_of_ne same ..
      rw [needs]
      refine fed_write before ?_ rfl
      rw [List.mem_singleton, Entry.error.injEq]
      rintro rfl
      obtain ⟨isOpen, made⟩ := sound.made key i trivial found
      rw [made] at failed
      exact same (congrArg VideoDecoder.key (Option.some.inj failed))
  · exact sound

/-! ## Runs -/

theorem sound_step (event : Event) (sound : Sound overtaken s fun _ => True) :
    Sound (overtaken ++ overtakes s event) (s.step event) fun _ => True := by
  have quiet : overtakes s event = [] → ∀ {t}, Sound overtaken t (fun _ => True) →
      Sound (overtaken ++ overtakes s event) t fun _ => True := by
    intro none' t fine
    rw [none', List.append_nil]
    exact fine
  have message : ∀ {handled}, Sound overtaken handled (fun _ => True) →
      Sound overtaken (s.message handled) fun _ => True := by
    intro handled fine
    unfold Worker.message
    split
    · exact sound
    · exact fine
  have same : ∀ {t}, Forgets s t → t.activeDisplay = s.activeDisplay →
      Sound overtaken t fun _ => True := by
    intro t forgets shows
    refine sound_forgets sound forgets fun key decoder _ rendered => ?_
    rw [Worker.shouldRenderDisplay, shows]
    exact rendered
  cases event with
  | attachSurface context =>
    exact quiet rfl (message (same (forgets_same rfl rfl rfl rfl rfl rfl rfl rfl rfl) rfl))
  | detachSurface =>
    exact quiet rfl (message (same (forgets_same rfl rfl rfl rfl rfl rfl rfl rfl rfl) rfl))
  | setPolicy renderQuality customQuality customFps =>
    exact quiet rfl (message (same (forgets_same rfl rfl rfl rfl rfl rfl rfl rfl rfl) rfl))
  | setActiveDisplay display reset => exact quiet rfl (message (sound_setActiveDisplay sound))
  | decode codec display data isKey pts meets =>
    change Sound _ (s.message (s.decodeVideo codec display data isKey pts meets)) _
    unfold Worker.message
    split
    · rename_i closed
      exact quiet (by simp [overtakes, closed]) sound
    · rename_i running
      have flag : overtakes s (.decode codec display data isKey pts meets) =
          if s.beside ⟨display, codec⟩ then [s.arrivals.length] else [] := by
        simp [overtakes, running]
      rw [flag]
      exact sound_decodeVideo sound
  | close => exact quiet rfl (message (sound_closeWorker sound))
  | creation number outcome meets =>
    refine quiet rfl ?_
    change Sound _ (s.creation number outcome meets) _
    unfold Worker.creation
    split
    · rename_i c found
      exact sound_endCreation (List.mem_of_find?_eq_some found) sound
    · exact sound
  | decoderError decoder => exact quiet rfl (sound_decoderError sound)
  | output decoder =>
    refine quiet rfl ?_
    change Sound _ (s.output decoder) _
    unfold Worker.output
    split
    · exact same forgets_handleFrame handleFrame_activeDisplay
    · exact sound
  | render callback => exact quiet rfl (same forgets_render render_activeDisplay)

theorem sound_initial : Sound [] {} fun _ => True := by
  refine ⟨⟨?_, fun _ => .nil, nofun⟩, nofun, nofun, nofun, nofun, nofun, nofun⟩
  intro before number key decoder timestamp ok later split
  exact absurd split.symm (List.append_ne_nil_of_right_ne_nil _ (List.cons_ne_nil _ _))

theorem sound_after (events : List Event) :
    Sound (Runs.collect Worker.step overtakes {} events) (after events) fun _ => True := by
  induction events using List.reverseRecOn with
  | nil => exact sound_initial
  | append_singleton events event ih =>
    have next := sound_step event ih
    rw [after] at next
    rw [Runs.collect_append, after, Runs.run_append]
    simpa [Runs.collect] using next

/-- **A decoder gets a delta chunk behind a key chunk**: in every run a delta chunk that a decoder
got comes after a key chunk that this decoder decoded, with no error of it since; each chunk of
that display and codec that came between them was decoded by it before the delta, but for those
dropped as there was no surface, the display was not rendered, there was no data or the queue was
too long for the first time, and those that came while a creation was on for which they did not
wait. The timestamps that a decoder got increase. -/
theorem deltas_follow_keys (events : List Event) :
    DeltasFollow (history events) DecodedOrExcused ∧
    ∀ decoder, (timestamps (after events).log decoder).Pairwise (· < ·) :=
  ⟨(sound_after events).told.deltas, (sound_after events).told.increasing⟩

/-- A delta that meets a long queue for the first time, and the one behind it. -/
def overflowed : List Event :=
  [.attachSurface true, keyChunk, .creation 0 .decoder fun _ => calm,
    .decode .vp9 0 [1] false (some 1) ⟨17, 0, false⟩, .decode .vp9 0 [1] false (some 2) calm]

theorem delta_after_drop : ¬ DeltasFollow (history overflowed) NotDropped := by
  have log : (after overflowed).log = [Entry.passed 0 ⟨0, .vp9⟩ true 0 0 true,
      .dropped 1 ⟨0, .vp9⟩ .firstOverflow] ++ [Entry.passed 2 ⟨0, .vp9⟩ false 0 2 true] := by
    decide +kernel
  intro follows
  obtain ⟨before, number, timestamp, later, split, -, all⟩ := follows _ _ _ _ _ _ _ log
  have mem : Entry.passed number ⟨0, .vp9⟩ true 0 timestamp true ∈
      [.passed 0 ⟨0, .vp9⟩ true 0 0 true, .dropped 1 ⟨0, .vp9⟩ .firstOverflow] := by
    dsimp only at split
    rw [split]
    exact List.mem_append_right before List.mem_cons_self
  obtain ⟨rfl, -⟩ : number = 0 ∧ timestamp = 0 := by simpa using mem
  obtain late | kept := all 1 (by decide) (by decide +kernel)
  · omega
  · exact kept .firstOverflow (List.mem_cons_of_mem _ List.mem_cons_self)

end CamelliaRemote.Web.VideoWorker
