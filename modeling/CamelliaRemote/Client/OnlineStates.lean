import Mathlib.Data.List.FinRange
import Mathlib.Data.Nat.Bitwise
import Mathlib.Tactic.Common

/-!
The query of online states, `peer_online` of `src/client.rs`. The client sends a list of ids to
the online server, which answers with one bit for each of them, eight to a byte, the first in the
highest bit. The length of the list is the client's own; the length of the bytes is whatever the
server sent.
-/

namespace CamelliaRemote.OnlineStates

/-- The `union` of a `RendezvousMessage`. -/
inductive Message where
  | keyExchange
  | onlineResponse (states : List UInt8)
  /-- Any other, or none. -/
  | other
  deriving DecidableEq

/-- What becomes of the connection to the online server. A read that times out, fails or brings
bytes that do not parse gives no message; one past the end of the list times out. -/
structure Socket where
  created : Bool
  sent : Bool
  reads : List (Option Message)

/-- The loop of `get_next_nonkeyexchange_msg`. -/
def nextMsg : Nat → List (Option Message) → Option Message × List (Option Message)
  | 0, reads => (none, reads)
  | n + 1, some .keyExchange :: reads => nextMsg n reads
  | _ + 1, some msgIn :: reads => (some msgIn, reads)
  | _ + 1, reads => (none, reads.tail)

def getNextNonkeyexchangeMsg (reads : List (Option Message)) :
    Option Message × List (Option Message) :=
  nextMsg 2 reads

def bitValue (i : Nat) : UInt8 := 0x01 <<< UInt8.ofNat (7 - i % 8)

/-- One round of the loop over the ids. An index past the end of `states` panics, `none`. -/
def classifyAt (ids : List String) (states : List UInt8) :
    List String × List String → Fin ids.length → Option (List String × List String)
  | (onlines, offlines), i => do
    let state ← states[i.val / 8]?
    if state &&& bitValue i = bitValue i then some (onlines ++ [ids.get i], offlines)
    else some (onlines, offlines ++ [ids.get i])

def classify (ids : List String) (states : List UInt8) : Option (List String × List String) :=
  (List.finRange ids.length).foldlM (classifyAt ids states) ([], [])

inductive Outcome where
  | ok (onlines offlines : List String)
  | error (message : String)
  | panicked
  deriving DecidableEq

/-- The classification, with its panic. -/
def answer (ids : List String) (states : List UInt8) : Outcome :=
  match classify ids states with
  | some (onlines, offlines) => .ok onlines offlines
  | none => .panicked

/-- The retries of `query_online_states_`. -/
def retry (ids : List String) : Nat → List (Option Message) → Outcome
  | 0, _ => .error "Failed to query online states, no online response"
  | n + 1, reads =>
    match getNextNonkeyexchangeMsg reads with
    | (some (.onlineResponse states), _) => answer ids states
    | (some _, reads) => retry ids n reads
    | (none, _) => .error "Online stream receives None"

def queryOnlineStates_ (ids : List String) (socket : Socket) : Outcome :=
  if !socket.created then .ok [] ids
  else if !socket.sent then .ok [] ids
  else retry ids 2 socket.reads

/-- The server says that the peer at a position is online. -/
def IsOnline (states : List UInt8) (i : Nat) : Prop :=
  ∃ state, states[i / 8]? = some state ∧ state.toNat.testBit (7 - i % 8)

/-- Every position of the list is in one of the two, once and in the order of the list, and in
the first if the server says that it is online. -/
def Classified (ids : List String) (states : List UInt8) (onlines offlines : List String) : Prop :=
  ∃ on off : List (Fin ids.length),
    onlines = on.map ids.get ∧ offlines = off.map ids.get ∧
      on.Sublist (List.finRange ids.length) ∧ off.Sublist (List.finRange ids.length) ∧
        (on ++ off).Perm (List.finRange ids.length) ∧ ∀ i, i ∈ on ↔ IsOnline states i

/-- An attempt gets a message: the next one, past a key exchange at most. -/
def Gets (reads : List (Option Message)) (msgIn : Message) (rest : List (Option Message)) : Prop :=
  msgIn ≠ .keyExchange ∧
    ∃ k < 2, reads = List.replicate k (some .keyExchange) ++ some msgIn :: rest

/-- An `OnlineResponse` comes in time for one of the two attempts. -/
def Socket.Answers (socket : Socket) (states : List UInt8) : Prop :=
  socket.created ∧ socket.sent ∧
    ((∃ rest, Gets socket.reads (.onlineResponse states) rest) ∨
      ∃ later rest, Gets socket.reads .other later ∧ Gets later (.onlineResponse states) rest)

theorem bitValue_toNat (i : Nat) : (bitValue i).toNat = 2 ^ (7 - i % 8) := by
  have one_bit : ∀ k : Fin 8, ((0x01 : UInt8) <<< UInt8.ofNat k).toNat = 2 ^ k.val := by decide
  exact one_bit ⟨7 - i % 8, by omega⟩

theorem bit_set_iff (state : UInt8) (i : Nat) :
    state &&& bitValue i = bitValue i ↔ state.toNat.testBit (7 - i % 8) := by
  rw [← UInt8.toNat_inj, UInt8.toNat_and, bitValue_toNat, Nat.and_two_pow]
  cases state.toNat.testBit (7 - i % 8) with
  | false => simp [(Nat.two_pow_pos _).ne]
  | true => simp

theorem isOnline_iff {states : List UInt8} {i : Nat} {state : UInt8}
    (found : states[i / 8]? = some state) :
    IsOnline states i ↔ state &&& bitValue i = bitValue i := by
  simp [IsOnline, found, bit_set_iff]

instance (states : List UInt8) (i : Nat) : Decidable (IsOnline states i) :=
  decidable_of_iff ((states[i / 8]?).any fun state => state.toNat.testBit (7 - i % 8))
    (by simp [IsOnline, Option.any_eq_true])

/-- Those of the positions that are online. -/
def online (states : List UInt8) {n : Nat} (l : List (Fin n)) : List (Fin n) :=
  l.filter fun i => IsOnline states i

def offline (states : List UInt8) {n : Nat} (l : List (Fin n)) : List (Fin n) :=
  l.filter fun i => ¬ IsOnline states i

section Loop
variable {ids : List String} {states : List UInt8}

theorem classifyAt_of_lt {i : Fin ids.length} (lt : i.val / 8 < states.length)
    (onlines offlines : List String) :
    classifyAt ids states (onlines, offlines) i =
      if IsOnline states i then some (onlines ++ [ids.get i], offlines)
      else some (onlines, offlines ++ [ids.get i]) := by
  have found := List.getElem?_eq_getElem lt
  simp [classifyAt, found, isOnline_iff found]

theorem classifyAt_of_ge {i : Fin ids.length} (ge : states.length ≤ i.val / 8)
    (acc : List String × List String) : classifyAt ids states acc i = none := by
  simp [classifyAt, List.getElem?_eq_none ge]

/-- The loop over any positions, from any two lists. -/
theorem foldlM_classifyAt (l : List (Fin ids.length)) (onlines offlines : List String) :
    l.foldlM (classifyAt ids states) (onlines, offlines) =
      if ∀ i ∈ l, i.val / 8 < states.length then
        some (onlines ++ (online states l).map ids.get, offlines ++ (offline states l).map ids.get)
      else none := by
  induction l generalizing onlines offlines with
  | nil => simp [online, offline]
  | cons i l ih =>
    rw [List.foldlM_cons]
    by_cases lt : i.val / 8 < states.length
    · rw [classifyAt_of_lt lt]
      by_cases on : IsOnline states i
      · simp [on, lt, ih, online, offline]
      · simp [on, lt, ih, online, offline]
    · rw [classifyAt_of_ge (Nat.not_lt.mp lt)]
      simp [lt]

theorem positions_fit {n : Nat} :
    (∀ i ∈ List.finRange n, i.val / 8 < states.length) ↔ n ≤ 8 * states.length := by
  constructor
  · intro fits
    by_contra long
    have last := fits ⟨8 * states.length, by omega⟩ (List.mem_finRange _)
    simp at last
  · intro fits i _
    omega

/-- What becomes of a response: a panic if it is too short. -/
theorem answer_eq :
    answer ids states =
      if ids.length ≤ 8 * states.length then
        .ok ((online states (List.finRange _)).map ids.get)
          ((offline states (List.finRange _)).map ids.get)
      else .panicked := by
  simp only [answer, classify, foldlM_classifyAt, positions_fit, List.nil_append]
  by_cases fits : ids.length ≤ 8 * states.length
  · simp only [if_pos fits]
  · simp only [if_neg fits]

theorem classified_of_filter :
    Classified ids states ((online states (List.finRange _)).map ids.get)
      ((offline states (List.finRange _)).map ids.get) := by
  refine ⟨_, _, rfl, rfl, List.filter_sublist, List.filter_sublist, ?_, fun i => ?_⟩
  · simpa [online, offline] using
      List.filter_append_perm (fun i : Fin ids.length => decide (IsOnline states i))
        (List.finRange ids.length)
  · simp [online]

end Loop

section Query
variable {ids : List String} {socket : Socket} {states : List UInt8}
  {reads rest : List (Option Message)} {msgIn : Message}

theorem nextMsg_some_iff (n : Nat) :
    nextMsg n reads = (some msgIn, rest) ↔
      msgIn ≠ .keyExchange ∧
        ∃ k < n, reads = List.replicate k (some .keyExchange) ++ some msgIn :: rest := by
  fun_induction nextMsg n reads with
  | case1 reads => simp
  | case2 n reads ih =>
    rw [ih]
    refine and_congr_right fun ne => ⟨?_, ?_⟩
    · rintro ⟨k, lt, rfl⟩
      exact ⟨k + 1, Nat.succ_lt_succ lt, rfl⟩
    · rintro ⟨k, lt, eq⟩
      cases k with
      | zero => simp [ne.symm] at eq
      | succ k => exact ⟨k, Nat.lt_of_succ_lt_succ lt, List.tail_eq_of_cons_eq eq⟩
  | case3 n msg reads ne =>
    constructor
    · rintro ⟨⟩
      exact ⟨ne, 0, Nat.succ_pos n, rfl⟩
    · rintro ⟨-, k, -, eq⟩
      cases k with
      | zero => simpa using eq
      | succ k =>
        obtain ⟨same, -⟩ := List.cons.inj eq
        exact (ne (Option.some.inj same)).elim
  | case4 n reads key other =>
    refine iff_of_false (by simp) ?_
    rintro ⟨-, k, -, rfl⟩
    cases k with
    | zero => exact other _ _ rfl
    | succ k => exact key _ rfl

theorem getNextNonkeyexchangeMsg_some_iff :
    getNextNonkeyexchangeMsg reads = (some msgIn, rest) ↔ Gets reads msgIn rest :=
  nextMsg_some_iff 2

theorem query_of_answers (answers : socket.Answers states) :
    queryOnlineStates_ ids socket = answer ids states := by
  obtain ⟨created, sent, ⟨rest, gets⟩ | ⟨later, rest, other, gets⟩⟩ := answers
  · have got := getNextNonkeyexchangeMsg_some_iff.mpr gets
    simp [queryOnlineStates_, retry, created, sent, got]
  · have got := getNextNonkeyexchangeMsg_some_iff.mpr gets
    have ignored := getNextNonkeyexchangeMsg_some_iff.mpr other
    simp [queryOnlineStates_, retry, created, sent, got, ignored]

/-- Without a response, every id is offline or the query fails. -/
theorem query_of_not_answers (silent : ∀ states, ¬ socket.Answers states) :
    queryOnlineStates_ ids socket = .ok [] ids ∨
      ∃ message, queryOnlineStates_ ids socket = .error message := by
  by_cases created : socket.created
  case neg => simp [queryOnlineStates_, created]
  by_cases sent : socket.sent
  case neg => simp [queryOnlineStates_, created, sent]
  refine .inr ?_
  simp only [queryOnlineStates_, created, sent, Bool.not_true, Bool.false_eq_true, if_false]
  rcases first : getNextNonkeyexchangeMsg socket.reads with ⟨_ | msgIn, later⟩
  · exact ⟨"Online stream receives None", by simp only [retry, first]⟩
  have gets := getNextNonkeyexchangeMsg_some_iff.mp first
  cases msgIn with
  | keyExchange => exact absurd rfl gets.1
  | onlineResponse states => exact absurd ⟨created, sent, .inl ⟨later, gets⟩⟩ (silent states)
  | other =>
    rcases second : getNextNonkeyexchangeMsg later with ⟨_ | msgIn, rest⟩
    · exact ⟨"Online stream receives None", by simp only [retry, first, second]⟩
    have gets' := getNextNonkeyexchangeMsg_some_iff.mp second
    cases msgIn with
    | keyExchange => exact absurd rfl gets'.1
    | onlineResponse states =>
      exact absurd ⟨created, sent, .inr ⟨later, rest, gets, gets'⟩⟩ (silent states)
    | other =>
      exact ⟨"Failed to query online states, no online response",
        by simp only [retry, first, second]⟩

/-- **When the query panics.** -/
theorem query_panics_iff :
    queryOnlineStates_ ids socket = .panicked ↔
      ∃ states, socket.Answers states ∧ 8 * states.length < ids.length := by
  constructor
  · intro panicked
    by_cases silent : ∀ states, ¬ socket.Answers states
    · obtain offline | ⟨message, error⟩ := query_of_not_answers silent
      · cases offline.symm.trans panicked
      · cases error.symm.trans panicked
    · obtain ⟨states, answers⟩ := not_forall_not.mp silent
      refine ⟨states, answers, Nat.lt_of_not_le fun fits => ?_⟩
      rw [query_of_answers answers, answer_eq, if_pos fits] at panicked
      cases panicked
  · rintro ⟨states, answers, long⟩
    rw [query_of_answers answers, answer_eq, if_neg (Nat.not_le.mpr long)]

theorem answers_at_once (states : List UInt8) (rest : List (Option Message)) :
    Socket.Answers ⟨true, true, some (.onlineResponse states) :: rest⟩ states :=
  ⟨rfl, rfl, .inl ⟨rest, by simp, 0, Nat.two_pos, rfl⟩⟩

/-- **When a response is classified.** -/
theorem query_classifies_iff (ids : List String) (states : List UInt8) (socket : Socket)
    (answers : socket.Answers states) :
    (∃ onlines offlines, queryOnlineStates_ ids socket = .ok onlines offlines ∧
        Classified ids states onlines offlines) ↔
      ids.length ≤ 8 * states.length := by
  rw [query_of_answers answers, answer_eq]
  constructor
  · rintro ⟨onlines, offlines, ok, -⟩
    by_contra long
    rw [if_neg long] at ok
    cases ok
  · intro fits
    exact ⟨_, _, if_pos fits, classified_of_filter⟩

theorem one_byte_classified :
    ∃ onlines offlines,
      queryOnlineStates_ ["1", "2"] ⟨true, true, [some (.onlineResponse [0x40])]⟩ =
          .ok onlines offlines ∧
        Classified ["1", "2"] [0x40] onlines offlines :=
  (query_classifies_iff ["1", "2"] [0x40] ⟨true, true, [some (.onlineResponse [0x40])]⟩
    (answers_at_once _ _)).mpr (by decide)

/-- One id, and a response without a byte. -/
theorem empty_states_panics :
    ¬ ∀ (ids : List String) (states : List UInt8) (socket : Socket), socket.Answers states →
      ∃ onlines offlines, queryOnlineStates_ ids socket = .ok onlines offlines ∧
        Classified ids states onlines offlines := by
  intro classifies
  obtain ⟨onlines, offlines, ok, -⟩ := classifies ["1"] [] _ (answers_at_once [] [])
  have panicked : queryOnlineStates_ ["1"] ⟨true, true, [some (.onlineResponse [])]⟩ = .panicked :=
    by decide
  rw [panicked] at ok
  cases ok

end Query

end CamelliaRemote.OnlineStates
