import CamelliaRemote.Lib.Runs
import CamelliaRemote.Web.Cipher

namespace CamelliaRemote.Web
open Codec Runs

inductive Side where
  | a
  | b
  deriving DecidableEq, Repr

def Side.other : Side → Side
  | .a => .b
  | .b => .a

/-- An encryption: who made it, under which number, of what, and the frame. -/
structure Sealed where
  side : Side
  seq : Nat
  payload : Bytes
  frame : Bytes
  deriving DecidableEq, Repr

/-- What became of a delivered frame. -/
inductive Receipt where
  | short (frame : Bytes)
  | opened (seq : Nat) (payload frame : Bytes)
  | failed (seq : Nat)
  deriving DecidableEq, Repr

namespace Receipt

def seq : Receipt → Option Nat
  | short _ => none
  | opened seq _ _ | failed seq => some seq

/-- What `decrypt` returned. -/
def payload : Receipt → Option Bytes
  | short frame => some frame
  | opened _ payload _ => some payload
  | failed _ => none

end Receipt

structure Channel where
  cipher : Side → SecretBoxCipher := fun _ => {}
  log : List Sealed := []
  receipts : Side → List Receipt := fun _ => []

/-- The network may deliver any bytes to an end: a frame of either end, again, late
or never, or what nobody sealed. -/
inductive ChannelEvent where
  | encrypt (side : Side) (payload : Bytes)
  | deliver (side : Side) (frame : Bytes)

namespace Channel

/-- The ideal box: it opens what was sealed under the nonce, and nothing else. -/
def openBox (s : Channel) (frame nonce : Bytes) : Option Bytes :=
  (s.log.find? fun e => e.frame = frame && makeNonce e.seq = nonce).map Sealed.payload

def receipt (s : Channel) (side : Side) (frame : Bytes) : Receipt :=
  if frame.length ≤ 1 then .short frame
  else
    match (s.cipher side).decrypt s.openBox frame with
    | (c, some payload) => .opened c.recvSeq payload frame
    | (c, none) => .failed c.recvSeq

def step (box : SecretBox) (s : Channel) : ChannelEvent → Channel
  | .encrypt side payload =>
    let (c, frame) := (s.cipher side).encrypt box payload
    { s with
      cipher := Function.update s.cipher side c
      log := s.log ++ [⟨side, c.sendSeq, payload, frame⟩] }
  | .deliver side frame =>
    { s with
      cipher := Function.update s.cipher side ((s.cipher side).decrypt s.openBox frame).1
      receipts := Function.update s.receipts side (s.receipts side ++ [s.receipt side frame]) }

def sealedBy (s : Channel) (side : Side) : List Sealed := s.log.filter (·.side = side)

/-- The payloads passed to `encrypt` on a side. -/
def sent (s : Channel) (side : Side) : List Bytes := (s.sealedBy side).map Sealed.payload

/-- The payloads that `decrypt` returned on a side. -/
def returned (s : Channel) (side : Side) : List Bytes := (s.receipts side).filterMap Receipt.payload

/-- The frame was opened, and the side did not seal it itself. -/
def Genuine (s : Channel) (side : Side) : Receipt → Prop
  | .opened _ _ frame => ∀ e ∈ s.log, e.side = side → e.frame ≠ frame
  | .short _ | .failed _ => False

end Channel

variable {box : SecretBox} {s : Channel}

/-- What is known of a receipt. -/
def Channel.Explains (s : Channel) : Receipt → Prop
  | .short frame => frame.length ≤ 1
  | .opened seq payload frame =>
    ∃ e ∈ s.log, e.seq = seq ∧ e.payload = payload ∧ e.frame = frame
  | .failed _ => True

structure Channel.Sound (box : SecretBox) (s : Channel) : Prop where
  sendSeq : ∀ side, (s.cipher side).sendSeq = (s.sealedBy side).length
  numbered : ∀ side i e, (s.sealedBy side)[i]? = some e → e.seq = i + 1
  frame : ∀ e ∈ s.log, e.frame = box.secretbox e.payload (makeNonce e.seq)
  counted : ∀ side,
    (s.receipts side).filterMap Receipt.seq = List.range' 1 (s.cipher side).recvSeq
  explained : ∀ side, ∀ r ∈ s.receipts side, s.Explains r

/-- No counter has passed `n`. -/
def Channel.Within (s : Channel) (n : Nat) : Prop :=
  ∀ side, (s.cipher side).sendSeq ≤ n ∧ (s.cipher side).recvSeq ≤ n

theorem Channel.sound_initial (box : SecretBox) : Sound box {} where
  sendSeq _ := rfl
  numbered side i e h := by simp [sealedBy] at h
  frame e h := by cases h
  counted _ := rfl
  explained _ _ h := by cases h

theorem Channel.sealedBy_concat (s : Channel) (side x : Side) (e : Sealed) (h : e.side = side)
    (cipher : Side → SecretBoxCipher) :
    sealedBy { s with cipher, log := s.log ++ [e] } x =
      if x = side then s.sealedBy side ++ [e] else s.sealedBy x := by
  subst h
  unfold sealedBy
  by_cases is : x = e.side
  · simp [is, List.filter_append]
  · have other : ¬ e.side = x := fun same => is same.symm
    simp [is, other, List.filter_append]

theorem Channel.Explains.mono {log : List Sealed} {cipher : Side → SecretBoxCipher} {r : Receipt}
    (h : s.Explains r) : Explains { s with cipher, log := s.log ++ log } r := by
  cases r with
  | short frame => exact h
  | opened seq payload frame =>
    obtain ⟨e, mem, same⟩ := h
    exact ⟨e, List.mem_append_left _ mem, same⟩
  | failed seq => trivial

theorem increment_of_lt {n : Nat} (h : n < 2 ^ 53) : increment n = n + 1 := if_pos h

theorem Channel.Sound.encrypt (h : s.Sound box) (side : Side) (payload : Bytes)
    (few : (s.cipher side).sendSeq < 2 ^ 53) : (s.step box (.encrypt side payload)).Sound box := by
  have seq := increment_of_lt few
  unfold step SecretBoxCipher.encrypt
  dsimp only
  rw [seq]
  refine ⟨?_, ?_, ?_, ?_, ?_⟩
  · intro x
    rw [s.sealedBy_concat side x _ rfl]
    by_cases is : x = side
    · subst is
      simp [h.sendSeq x]
    · simp [is, h.sendSeq x]
  · intro x i e at_i
    rw [s.sealedBy_concat side x _ rfl] at at_i
    by_cases is : x = side
    · subst is
      rw [if_pos rfl, List.getElem?_append] at at_i
      split at at_i
      · exact h.numbered x i e at_i
      · rename_i beyond
        have first : i - (s.sealedBy x).length = 0 := by
          by_contra later
          rw [List.getElem?_eq_none (by simp; omega)] at at_i
          cases at_i
        rw [first] at at_i
        cases at_i
        have := h.sendSeq x
        dsimp only
        omega
    · rw [if_neg is] at at_i
      exact h.numbered x i e at_i
  · intro e mem
    rcases List.mem_append.mp mem with mem | mem
    · exact h.frame e mem
    · rw [List.mem_singleton.mp mem]
  · intro x
    by_cases is : x = side
    · subst is
      simpa using h.counted x
    · simpa [is] using h.counted x
  · exact fun x r mem => (h.explained x r mem).mono

/-- The ideal box opens exactly what was sealed under the nonce. -/
theorem Channel.Sound.openBox_eq_some (h : s.Sound box) {frame nonce payload : Bytes} :
    s.openBox frame nonce = some payload ↔
      ∃ e ∈ s.log, makeNonce e.seq = nonce ∧ e.frame = frame ∧ e.payload = payload := by
  unfold openBox
  rw [Option.map_eq_some_iff]
  constructor
  · rintro ⟨e, found, same⟩
    have holds := List.find?_some found
    simp only [Bool.and_eq_true, decide_eq_true_eq] at holds
    exact ⟨e, List.mem_of_find?_eq_some found, holds.2, holds.1, same⟩
  · rintro ⟨e, mem, nonce, frame, same⟩
    have some : (s.log.find? fun e' => e'.frame = e.frame && makeNonce e'.seq = makeNonce e.seq) ≠
        none := by
      intro none
      have := List.find?_eq_none.mp none e mem
      simp at this
    obtain ⟨e', found⟩ := Option.ne_none_iff_exists'.mp some
    have holds := List.find?_some found
    simp only [Bool.and_eq_true, decide_eq_true_eq] at holds
    subst nonce frame
    refine ⟨e', found, ?_⟩
    have mem' := List.mem_of_find?_eq_some found
    have frames := holds.1
    rw [h.frame e mem, h.frame e' mem', holds.2] at frames
    exact (box.secretbox_inj _ _ _ frames).trans same

theorem SecretBoxCipher.decrypt_seqs (c : SecretBoxCipher) (openBox : Bytes → Bytes → Option Bytes)
    (frame : Bytes) :
    (c.decrypt openBox frame).1.sendSeq = c.sendSeq ∧
      (c.decrypt openBox frame).1.recvSeq =
        if frame.length ≤ 1 then c.recvSeq else increment c.recvSeq := by
  unfold decrypt
  split <;> exact ⟨rfl, rfl⟩

theorem Channel.seq_receipt (s : Channel) (side : Side) (frame : Bytes) :
    (s.receipt side frame).seq =
      if frame.length ≤ 1 then none else some (increment (s.cipher side).recvSeq) := by
  unfold receipt SecretBoxCipher.decrypt
  by_cases isShort : frame.length ≤ 1
  · simp only [isShort, if_true]
    rfl
  · simp only [isShort, if_false]
    cases s.openBox frame (makeNonce (increment (s.cipher side).recvSeq)) <;> rfl

theorem Channel.Sound.seq_le (h : s.Sound box) {n : Nat} (within : s.Within n) {e : Sealed}
    (mem : e ∈ s.log) : e.seq ≤ n := by
  have here : e ∈ s.sealedBy e.side := List.mem_filter.mpr ⟨mem, by simp⟩
  obtain ⟨i, at_i⟩ := List.mem_iff_getElem?.mp here
  have seq := h.numbered e.side i e at_i
  have bound := (List.getElem?_eq_some_iff.mp at_i).1
  have length := h.sendSeq e.side
  have most := (within e.side).1
  omega

/-- What is opened was sealed under the number that is due. -/
theorem Channel.Sound.explains_receipt (h : s.Sound box) (within : s.Within (2 ^ 53)) (side : Side)
    (frame : Bytes) : s.Explains (s.receipt side frame) := by
  unfold receipt SecretBoxCipher.decrypt
  by_cases isShort : frame.length ≤ 1
  · simp only [isShort, if_true]
    exact isShort
  · simp only [isShort, if_false]
    cases isOpen : s.openBox frame (makeNonce (increment (s.cipher side).recvSeq)) with
    | none => trivial
    | some payload =>
      obtain ⟨e, mem, nonce, same, isPayload⟩ := h.openBox_eq_some.mp isOpen
      have seq := h.seq_le within mem
      have due : increment (s.cipher side).recvSeq ≤ 2 ^ 53 := by
        have := (within side).2
        unfold increment
        split <;> omega
      have number := makeNonce_inj (by omega) (by omega) nonce
      exact ⟨e, mem, number, isPayload, same⟩

theorem Channel.Sound.deliver (h : s.Sound box) (within : s.Within (2 ^ 53)) (side : Side)
    (frame : Bytes) (few : (s.cipher side).recvSeq < 2 ^ 53) :
    (s.step box (.deliver side frame)).Sound box := by
  have seqs := (s.cipher side).decrypt_seqs s.openBox frame
  unfold step
  dsimp only
  refine ⟨?_, h.numbered, h.frame, ?_, ?_⟩
  · intro x
    dsimp only
    by_cases is : x = side
    · subst is
      rw [Function.update_self, seqs.1]
      exact h.sendSeq x
    · rw [Function.update_of_ne is]
      exact h.sendSeq x
  · intro x
    dsimp only
    by_cases is : x = side
    · subst is
      rw [Function.update_self, Function.update_self, List.filterMap_append, h.counted x, seqs.2]
      by_cases isShort : frame.length ≤ 1
      · simp [s.seq_receipt, isShort]
      · simp only [List.filterMap_cons, List.filterMap_nil, s.seq_receipt, isShort, if_false,
          increment_of_lt few]
        rw [List.range'_1_concat, Nat.add_comm]
    · rw [Function.update_of_ne is, Function.update_of_ne is]
      exact h.counted x
  · intro x r mem
    dsimp only at mem
    by_cases is : x = side
    · subst is
      rw [Function.update_self] at mem
      rcases List.mem_append.mp mem with mem | mem
      · exact h.explained x r mem
      · rw [List.mem_singleton.mp mem]
        exact h.explains_receipt within x frame
    · rw [Function.update_of_ne is] at mem
      exact h.explained x r mem

theorem Channel.within_step {n : Nat} (h : s.Within n) (e : ChannelEvent) :
    (s.step box e).Within (n + 1) := by
  have up : ∀ k ≤ n, increment k ≤ n + 1 := by
    intro k le
    unfold increment
    split <;> omega
  intro x
  have most := h x
  cases e with
  | encrypt side payload =>
    by_cases is : x = side
    · subst is
      simp only [step, SecretBoxCipher.encrypt, Function.update_self]
      exact ⟨up _ most.1, by omega⟩
    · simp only [step, Function.update_of_ne is]
      omega
  | deliver side frame =>
    by_cases is : x = side
    · subst is
      have seqs := (s.cipher x).decrypt_seqs s.openBox frame
      simp only [step, Function.update_self, seqs]
      refine ⟨by omega, ?_⟩
      split
      · omega
      · exact up _ most.2
    · simp only [step, Function.update_of_ne is]
      omega

/-- After every run of at most 2^53 events. -/
theorem sound_run (box : SecretBox) (es : List ChannelEvent) (few : es.length ≤ 2 ^ 53) :
    (run (Channel.step box) {} es).Sound box ∧
      (run (Channel.step box) {} es).Within es.length := by
  induction es using List.reverseRecOn with
  | nil => exact ⟨Channel.sound_initial box, fun _ => ⟨le_rfl, le_rfl⟩⟩
  | append_singleton es e ih =>
    rw [List.length_append, List.length_singleton] at few
    obtain ⟨sound, within⟩ := ih (by omega)
    rw [run_append, run_cons, run_nil, List.length_append, List.length_singleton]
    refine ⟨?_, Channel.within_step within e⟩
    have most : (run (Channel.step box) {} es).Within (2 ^ 53) := by
      intro x
      have := within x
      omega
    cases e with
    | encrypt side payload =>
      exact sound.encrypt side payload (by have := within side; omega)
    | deliver side frame =>
      exact sound.deliver most side frame (by have := within side; omega)

/-- What an end may rely on. -/
structure Channel.Guarantees (box : SecretBox) (s : Channel) (side : Side) : Prop where
  /-- A payload opened under a number is what one of the ends sealed under it. -/
  authentic : ∀ seq payload frame, .opened seq payload frame ∈ s.receipts side →
    ∃ origin, (s.sent origin)[seq - 1]? = some payload ∧
      frame = box.secretbox payload (makeNonce seq)
  /-- Numbers only go up: no replay and no reordering. -/
  ordered : ((s.receipts side).filterMap Receipt.seq).Pairwise (· < ·)
  /-- Only a frame of at most one byte passes unopened. -/
  short : ∀ frame, .short frame ∈ s.receipts side → frame.length ≤ 1
  /-- If all that arrived was opened and none of it was its own, it is what the other
  end sealed first. -/
  complete : (∀ r ∈ s.receipts side, s.Genuine side r) → s.returned side <+: s.sent side.other
  /-- No two encryptions of one end have the same nonce. -/
  nonces : ∀ (i j : Nat) (e e' : Sealed),
    (s.sealedBy side)[i]? = some e → (s.sealedBy side)[j]? = some e' →
    makeNonce e.seq = makeNonce e'.seq → i = j

theorem Channel.Sound.sent_of_mem (h : s.Sound box) {e : Sealed} (mem : e ∈ s.log) :
    (s.sent e.side)[e.seq - 1]? = some e.payload := by
  have here : e ∈ s.sealedBy e.side := List.mem_filter.mpr ⟨mem, by simp⟩
  obtain ⟨i, at_i⟩ := List.mem_iff_getElem?.mp here
  rw [h.numbered e.side i e at_i, Nat.add_sub_cancel, sent, List.getElem?_map, at_i]
  rfl

theorem Side.eq_other {x y : Side} (h : x ≠ y) : x = y.other := by
  cases x <;> cases y <;> first | rfl | exact absurd rfl h

theorem Channel.Sound.complete (h : s.Sound box) {side : Side}
    (genuine : ∀ r ∈ s.receipts side, s.Genuine side r) :
    s.returned side <+: s.sent side.other := by
  have isOpened : ∀ r ∈ s.receipts side, ∃ seq payload frame, r = .opened seq payload frame := by
    intro r mem
    cases r with
    | opened seq payload frame => exact ⟨seq, payload, frame, rfl⟩
    | short frame => exact (genuine _ mem).elim
    | failed seq => exact (genuine _ mem).elim
  have numbers : (s.receipts side).filterMap Receipt.seq =
      (s.receipts side).map fun r => r.seq.getD 0 := by
    refine List.filterMap_eq_map_iff_forall_eq_some.mpr fun r mem => ?_
    obtain ⟨seq, payload, frame, rfl⟩ := isOpened r mem
    rfl
  have payloads : s.returned side = (s.receipts side).map fun r => r.payload.getD [] := by
    refine List.filterMap_eq_map_iff_forall_eq_some.mpr fun r mem => ?_
    obtain ⟨seq, payload, frame, rfl⟩ := isOpened r mem
    rfl
  rw [List.prefix_iff_getElem?]
  intro i bound
  have inside : i < (s.receipts side).length := by
    rwa [payloads, List.length_map] at bound
  obtain ⟨r, at_i⟩ : ∃ r, (s.receipts side)[i]? = some r :=
    ⟨_, List.getElem?_eq_getElem inside⟩
  have mem := List.mem_of_getElem? at_i
  obtain ⟨seq, payload, frame, rfl⟩ := isOpened r mem
  have number : seq = i + 1 := by
    have counted := congrArg (·[i]?) (numbers.symm.trans (h.counted side))
    simp only [List.getElem?_map, at_i, Option.map_some] at counted
    obtain ⟨_, isNumber⟩ := List.getElem?_eq_some_iff.mp counted.symm
    rw [List.getElem_range'] at isNumber
    simp only [Receipt.seq, Option.getD_some] at isNumber
    omega
  obtain ⟨e, logged, isSeq, isPayload, isFrame⟩ := h.explained side _ mem
  have origin : e.side = side.other :=
    Side.eq_other fun own => genuine _ mem e logged own isFrame
  have isSent := h.sent_of_mem logged
  rw [origin, isSeq, number, Nat.add_sub_cancel, isPayload] at isSent
  rw [isSent, Option.some.injEq, ← Option.some.injEq, ← List.getElem?_eq_getElem bound, payloads,
    List.getElem?_map, at_i]
  rfl

/-- **The web channel delivers in order what was sealed.** In every run of at most
2^53 events an end has these guarantees, whatever the network delivers. -/
theorem channel_guarantees (box : SecretBox) (es : List ChannelEvent) (few : es.length ≤ 2 ^ 53)
    (side : Side) : (run (Channel.step box) {} es).Guarantees box side := by
  obtain ⟨sound, within⟩ := sound_run box es few
  refine ⟨?_, ?_, ?_, sound.complete, ?_⟩
  · intro seq payload frame mem
    obtain ⟨e, logged, rfl, rfl, rfl⟩ := sound.explained side _ mem
    exact ⟨e.side, sound.sent_of_mem logged, sound.frame e logged⟩
  · rw [sound.counted side]
    exact List.pairwise_lt_range'
  · intro frame mem
    exact sound.explained side _ mem
  · intro i j e e' at_i at_j same
    have small : ∀ e ∈ (run (Channel.step box) {} es).sealedBy side, e.seq < 2 ^ 64 := by
      intro e mem
      have := sound.seq_le within (List.mem_filter.mp mem).1
      omega
    have number := makeNonce_inj (small e (List.mem_of_getElem? at_i))
      (small e' (List.mem_of_getElem? at_j)) same
    rw [sound.numbered side i e at_i, sound.numbered side j e' at_j] at number
    omega

/-- A box that hides nothing, for examples: 16 zeros before the payload. -/
def plainBox : SecretBox where
  secretbox payload _ := List.replicate 16 0 ++ payload
  length_secretbox payload nonce := by simp
  secretbox_inj nonce m m' same := List.append_cancel_left same

/-- The frame of a payload in the plain box. -/
def plainFrame (payload : Bytes) : Bytes := List.replicate 16 0 ++ payload

def plainRun (es : List ChannelEvent) : Channel := run (Channel.step plainBox) {} es

theorem channel_guarantees_echo :
    (plainRun [.encrypt .a [1, 2], .deliver .b (plainFrame [1, 2])]).returned .b = [[1, 2]] ∧
      (plainRun [.encrypt .a [1, 2], .deliver .b (plainFrame [1, 2])]).Guarantees plainBox .b :=
  ⟨by decide, channel_guarantees plainBox _ (by decide) .b⟩

/-- What an end does not have. After a frame that nobody sealed, the second payload is
returned without the first. Its own frame is opened, and a byte that nobody sealed is
returned. Both ends use the first nonce, and a counter at 2^53 stays there. -/
theorem channel_not_exact :
    ¬ (plainRun [.encrypt .a [1, 2], .encrypt .a [3, 4], .deliver .b [0, 0],
        .deliver .b (plainFrame [3, 4])]).returned .b <+:
      (plainRun [.encrypt .a [1, 2], .encrypt .a [3, 4], .deliver .b [0, 0],
        .deliver .b (plainFrame [3, 4])]).sent .a ∧
    ¬ (plainRun [.encrypt .a [1, 2], .deliver .a (plainFrame [1, 2])]).returned .a <+:
      (plainRun [.encrypt .a [1, 2], .deliver .a (plainFrame [1, 2])]).sent .b ∧
    ¬ (plainRun [.deliver .a [7]]).returned .a <+: (plainRun [.deliver .a [7]]).sent .b ∧
    (plainRun [.encrypt .a [1, 2], .encrypt .b [3, 4]]).log.map
        (fun e => (makeNonce e.seq, e.payload)) =
      [(makeNonce 1, [1, 2]), (makeNonce 1, [3, 4])] ∧
    (SecretBoxCipher.encrypt plainBox ⟨2 ^ 53, 0⟩ [1]).1 = ⟨2 ^ 53, 0⟩ := by
  decide +kernel

end CamelliaRemote.Web
