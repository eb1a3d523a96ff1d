import CamelliaRemote.Lib.Runs
import Mathlib.Data.List.Nodup

/-!
The message inbox, `flutter/web/js/src/runtime/inbox.ts`. A promise of `next` is numbered by its
call. The list of waiters holds functions, and a function is only itself: the one that a call puts
in the list hands a message on, and is not the `resolve` that its timer looks for. Messages are
numbered as they come.
-/

namespace CamelliaRemote.Web

/-- The two functions of a call of `next` that can be called with a message. -/
inductive Waiter where
  | resolve (call : Nat)
  | deliver (call : Nat)
  deriving DecidableEq

def Waiter.number : Waiter → Nat
  | .resolve call => call
  | .deliver call => call

structure InboxMessage (α : Type) where
  number : Nat
  data : α
  deriving DecidableEq

inductive Promised (α : Type) where
  | pending
  | resolved (message : InboxMessage α)
  | rejected
  deriving DecidableEq

structure MessageInbox (α : Type) where
  queue : List (InboxMessage α) := []
  waiters : List Waiter := []
  promises : List (Promised α) := []
  subscribed : Bool := true
  arrived : Nat := 0
  /-- The messages in the order in which they are to be returned, the returned ones first. -/
  line : List (InboxMessage α) := []
  /-- The calls that returned, with their messages, in the order of their returning. -/
  returned : List (Nat × InboxMessage α) := []
  /-- The messages that went to a call that had been rejected. -/
  swallowed : List (InboxMessage α) := []

inductive InboxEvent (α : Type) where
  | push (data : α)
  | next
  /-- The timer of a call. -/
  | timeout (call : Nat)
  | pushFront (data : α)
  | close

namespace MessageInbox

variable {α : Type} (s : MessageInbox α)

/-- `resolve`: of a promise that has been settled nothing comes. -/
def settle (call : Nat) (message : InboxMessage α) : MessageInbox α :=
  match s.promises[call]? with
  | some .pending =>
    { s with
      promises := s.promises.set call (.resolved message)
      returned := s.returned ++ [(call, message)] }
  | some .rejected => { s with swallowed := s.swallowed ++ [message] }
  | _ => s

/-- Each of the two functions ends in `resolve`. -/
def call (message : InboxMessage α) (waiter : Waiter) : MessageInbox α :=
  s.settle waiter.number message

def next : MessageInbox α :=
  match s.queue with
  | message :: queue =>
    { s with
      queue
      promises := s.promises ++ [Promised.resolved message]
      returned := s.returned ++ [(s.promises.length, message)] }
  | [] =>
    { s with
      promises := s.promises ++ [Promised.pending]
      waiters := s.waiters ++ [Waiter.deliver s.promises.length] }

/-- The timer of a call that has been resolved is cleared, and fires no second time. -/
def timeout (call : Nat) : MessageInbox α :=
  match s.promises[call]? with
  | some .pending =>
    let waiters := match s.waiters.idxOf? (.resolve call) with
      | some idx => s.waiters.eraseIdx idx
      | none => s.waiters
    { s with waiters, promises := s.promises.set call .rejected }
  | _ => s

def close : MessageInbox α := { s with subscribed := false, queue := [], waiters := [] }

/-- A message that comes stands behind the others. -/
def arrive (data : α) : MessageInbox α × InboxMessage α :=
  let message := ⟨s.arrived, data⟩
  ({ s with arrived := s.arrived + 1, line := s.line ++ [message] }, message)

def push (data : α) : MessageInbox α :=
  let (s, message) := s.arrive data
  match s.waiters with
  | waiter :: waiters => ({ s with waiters }).call message waiter
  | [] => { s with queue := s.queue ++ [message] }

/-- A message that is put back stands before all that have not been returned. -/
def pushFront (data : α) : MessageInbox α :=
  let message := ⟨s.arrived, data⟩
  { s with
    arrived := s.arrived + 1
    line := s.line.take s.returned.length ++ message :: s.line.drop s.returned.length
    queue := message :: s.queue }

def step : InboxEvent α → MessageInbox α
  | .push data => if s.subscribed then s.push data else s
  | .next => s.next
  | .timeout call => s.timeout call
  | .pushFront data => s.pushFront data
  | .close => s.close

/-- **Nothing is lost**: what has been returned and what is in the queue is all that came,
in its order; each message was returned by one call, which was still pending then or was
made later; and no call that had been rejected took one. -/
structure Lossless : Prop where
  whole : s.returned.map Prod.snd ++ s.queue = s.line
  once : (s.returned.map Prod.fst).Nodup
  resolved : ∀ call message,
    (call, message) ∈ s.returned ↔ s.promises[call]? = some (.resolved message)
  spared : s.swallowed = []

/-- A message finds no waiter, or one that has not been rejected, and then no other message
before it. -/
def Finds : InboxEvent α → Prop
  | .push _ => ∀ waiter ∈ s.waiters.head?,
    s.queue = [] ∧ s.promises[waiter.number]? ≠ some .rejected
  | _ => True

instance [DecidableEq α] : ∀ e, Decidable (s.Finds e)
  | .push _ => inferInstanceAs (Decidable (∀ waiter ∈ s.waiters.head?,
    s.queue = [] ∧ s.promises[waiter.number]? ≠ some .rejected))
  | .next | .timeout _ | .pushFront _ | .close => .isTrue trivial

variable {s}

/-- A waiter is the wrapper of a call that is pending, or was. -/
structure Sound (s : MessageInbox α) : Prop where
  waits : ∀ waiter ∈ s.waiters, ∃ call, waiter = .deliver call ∧
    (s.promises[call]? = some .pending ∨ s.promises[call]? = some .rejected)
  apart : s.waiters.Nodup
  once : (s.returned.map Prod.fst).Nodup
  resolved : ∀ call message,
    (call, message) ∈ s.returned ↔ s.promises[call]? = some (.resolved message)
  older : ∀ message ∈ s.returned.map Prod.snd ++ s.queue, message.number < s.arrived
  short : s.returned.length + s.queue.length ≤ s.line.length

theorem sound_new : Sound ({} : MessageInbox α) := by
  constructor <;> simp

theorem Sound.notMem (h : Sound s) {call : Nat}
    (unresolved : ∀ message, s.promises[call]? ≠ some (.resolved message)) :
    call ∉ s.returned.map Prod.fst := by
  intro mem
  obtain ⟨⟨call', message⟩, found, rfl⟩ := List.mem_map.mp mem
  exact unresolved message ((h.resolved _ _).mp found)

/-- The order of what came, and who took it. -/
def Intact (s : MessageInbox α) : Prop :=
  s.returned.map Prod.snd ++ s.queue = s.line ∧ s.swallowed = []

theorem lossless_iff (h : Sound s) : s.Lossless ↔ Intact s :=
  ⟨fun l => ⟨l.whole, l.spared⟩, fun i => ⟨i.1, h.once, h.resolved, i.2⟩⟩

theorem getElem?_snoc {β : Type} (l : List β) (b : β) (i : Nat) :
    (l ++ [b])[i]? = if i = l.length then some b else l[i]? := by
  by_cases last : i = l.length
  · simp [last]
  · rw [if_neg last]
    by_cases before : i < l.length
    · exact List.getElem?_append_left before
    · rw [List.getElem?_append_right (Nat.not_lt.mp before), List.getElem?_singleton,
        if_neg (by omega), List.getElem?_eq_none (Nat.not_lt.mp before)]

theorem nodup_snoc {β : Type} {l : List β} {b : β} (nodup : l.Nodup) (absent : b ∉ l) :
    (l ++ [b]).Nodup := by
  refine List.nodup_append.mpr ⟨nodup, List.nodup_singleton b, ?_⟩
  rintro a mem _ last rfl
  exact absent (List.mem_singleton.mp last ▸ mem)

theorem sound_next (h : Sound s) : Sound s.next := by
  have fresh : s.promises[s.promises.length]? = none := List.getElem?_eq_none (Nat.le_refl _)
  have notMem : s.promises.length ∉ s.returned.map Prod.fst := h.notMem (by simp)
  unfold next
  split
  · rename_i message queue head
    constructor
    · intro waiter mem
      obtain ⟨call, is, waits⟩ := h.waits waiter mem
      refine ⟨call, is, ?_⟩
      have inside : call ≠ s.promises.length := by
        rintro rfl
        simp at waits
      simpa only [getElem?_snoc, if_neg inside] using waits
    · exact h.apart
    · simp only [List.map_append, List.map_cons, List.map_nil]
      exact nodup_snoc h.once notMem
    · intro call other
      simp only [getElem?_snoc, List.mem_append, List.mem_singleton, h.resolved, Prod.mk.injEq]
      by_cases same : call = s.promises.length
      · simp [same, eq_comm]
      · simp [same]
    · intro other mem
      refine h.older other ?_
      rw [head]
      simpa using mem
    · have short := h.short
      rw [head] at short
      simp only [List.length_append, List.length_cons, List.length_nil] at short ⊢
      omega
  · constructor
    · intro waiter mem
      simp only [getElem?_snoc]
      rcases List.mem_append.mp mem with mem | mem
      · obtain ⟨call, is, waits⟩ := h.waits waiter mem
        refine ⟨call, is, ?_⟩
        have inside : call ≠ s.promises.length := by
          rintro rfl
          simp at waits
        simpa only [if_neg inside] using waits
      · exact ⟨s.promises.length, List.mem_singleton.mp mem, .inl (if_pos rfl)⟩
    · refine nodup_snoc h.apart fun mem => ?_
      obtain ⟨call, is, waits⟩ := h.waits _ mem
      rw [Waiter.deliver.injEq] at is
      subst is
      simp at waits
    · exact h.once
    · intro call other
      rw [h.resolved, getElem?_snoc]
      by_cases same : call = s.promises.length
      · simp [same]
      · simp [same]
    · exact h.older
    · exact h.short

/-- A promise that is settled, of a call in no list. -/
theorem getElem?_set_iff {β : Type} {l : List β} {i j : Nat} {b : β} (inside : i < l.length) :
    (l.set i b)[j]? = if j = i then some b else l[j]? := by
  by_cases same : j = i
  · rw [if_pos same, same, List.getElem?_set_self inside]
  · rw [if_neg same, List.getElem?_set_ne (Ne.symm same)]

theorem sound_timeout (h : Sound s) (call : Nat) : Sound (s.timeout call) := by
  unfold timeout
  split
  · rename_i pending
    have inside := (List.getElem?_eq_some_iff.mp pending).1
    -- The waiters are wrappers, so the timer does not find its own.
    have missed : s.waiters.idxOf? (.resolve call) = none := by
      rw [List.idxOf?_eq_none_iff]
      intro mem
      obtain ⟨call', is, -⟩ := h.waits _ mem
      cases is
    simp only [missed]
    constructor
    · intro waiter mem
      obtain ⟨call', is, waits⟩ := h.waits waiter mem
      refine ⟨call', is, ?_⟩
      simp only [getElem?_set_iff inside]
      by_cases same : call' = call
      · exact .inr (if_pos same)
      · simpa only [if_neg same] using waits
    · exact h.apart
    · exact h.once
    · intro call' message
      rw [h.resolved, getElem?_set_iff inside]
      by_cases same : call' = call
      · simp [same, pending]
      · rw [if_neg same]
    · exact h.older
    · exact h.short
  · exact h

/-- A message that finds no waiter. -/
theorem sound_queued (h : Sound s) (data : α) :
    Sound { (s.arrive data).1 with queue := s.queue ++ [⟨s.arrived, data⟩] } := by
  constructor
  · exact h.waits
  · exact h.apart
  · exact h.once
  · exact h.resolved
  · intro message mem
    rw [← List.append_assoc] at mem
    rcases List.mem_append.mp mem with mem | mem
    · exact Nat.lt_succ_of_lt (h.older message mem)
    · rw [List.mem_singleton.mp mem]
      exact Nat.lt_succ_self _
  · have short := h.short
    simp only [arrive, List.length_append, List.length_singleton]
    omega

/-- The other waiters, when the first of them has been called. -/
theorem Sound.waits_tail (h : Sound s) {call : Nat} {waiters : List Waiter}
    (first : s.waiters = .deliver call :: waiters) :
    .deliver call ∉ waiters ∧ waiters.Nodup ∧ ∀ waiter ∈ waiters, ∃ call',
      waiter = .deliver call' ∧ call' ≠ call ∧
        (s.promises[call']? = some .pending ∨ s.promises[call']? = some .rejected) := by
  have apart := h.apart
  rw [first, List.nodup_cons] at apart
  refine ⟨apart.1, apart.2, fun waiter mem => ?_⟩
  obtain ⟨call', rfl, waits⟩ := h.waits waiter (first ▸ List.mem_cons_of_mem _ mem)
  refine ⟨call', rfl, ?_, waits⟩
  rintro rfl
  exact apart.1 mem

theorem sound_push (h : Sound s) (data : α) : Sound (s.push data) := by
  unfold push
  cases first : s.waiters with
  | nil => simpa only [arrive, first] using sound_queued h data
  | cons waiter waiters =>
    obtain ⟨call, rfl, state⟩ := h.waits waiter (first ▸ List.mem_cons_self)
    obtain ⟨-, apart, others⟩ := h.waits_tail first
    have older : ∀ message ∈ s.returned.map Prod.snd ++ s.queue, message.number < s.arrived + 1 :=
      fun message mem => Nat.lt_succ_of_lt (h.older message mem)
    have short := h.short
    simp only [arrive, first, MessageInbox.call, Waiter.number, settle]
    rcases state with pending | rejected
    · have inside := (List.getElem?_eq_some_iff.mp pending).1
      have notMem : call ∉ s.returned.map Prod.fst := h.notMem (by simp [pending])
      simp only [pending]
      constructor
      · intro waiter mem
        obtain ⟨call', is, apart', waits⟩ := others waiter mem
        refine ⟨call', is, ?_⟩
        simpa only [getElem?_set_iff inside, if_neg apart'] using waits
      · exact apart
      · simp only [List.map_append, List.map_cons, List.map_nil]
        exact nodup_snoc h.once notMem
      · intro call' message
        simp only [getElem?_set_iff inside, List.mem_append, List.mem_singleton, h.resolved,
          Prod.mk.injEq]
        by_cases same : call' = call
        · simp [same, pending, eq_comm]
        · simp [same]
      · intro message mem
        simp only [List.map_append, List.map_cons, List.map_nil, List.append_assoc,
          List.singleton_append, List.mem_append, List.mem_cons] at mem
        rcases mem with mem | rfl | mem
        · exact older message (List.mem_append_left _ mem)
        · exact Nat.lt_succ_self _
        · exact older message (List.mem_append_right _ mem)
      · simp only [List.length_append, List.length_singleton]
        omega
    · simp only [rejected]
      constructor
      · intro waiter mem
        obtain ⟨call', is, -, waits⟩ := others waiter mem
        exact ⟨call', is, waits⟩
      · exact apart
      · exact h.once
      · exact h.resolved
      · exact older
      · simp only [List.length_append, List.length_singleton]
        omega

theorem sound_pushFront (h : Sound s) (data : α) : Sound (s.pushFront data) := by
  unfold pushFront
  constructor
  · exact h.waits
  · exact h.apart
  · exact h.once
  · exact h.resolved
  · intro message mem
    simp only [List.mem_append, List.mem_cons] at mem
    rcases mem with mem | rfl | mem
    · exact Nat.lt_succ_of_lt (h.older message (List.mem_append_left _ mem))
    · exact Nat.lt_succ_self _
    · exact Nat.lt_succ_of_lt (h.older message (List.mem_append_right _ mem))
  · have short := h.short
    simp only [List.length_append, List.length_cons, List.length_take, List.length_drop]
    omega

theorem sound_step (h : Sound s) (e : InboxEvent α) (stays : (s.step e).subscribed = true) :
    Sound (s.step e) := by
  cases e with
  | push data =>
    simp only [step]
    split
    · exact sound_push h data
    · exact h
  | next => exact sound_next h
  | timeout call => exact sound_timeout h call
  | pushFront data => exact sound_pushFront h data
  | close => cases stays

/-- The last message to come is not one of those before. -/
theorem Sound.newest_notMem (h : Sound s) (data : α) :
    ⟨s.arrived, data⟩ ∉ s.returned.map Prod.snd ++ s.queue :=
  fun mem => Nat.lt_irrefl _ (h.older _ mem)

theorem intact_push (h : Sound s) (data : α) :
    Intact (s.push data) ↔ Intact s ∧ s.Finds (.push data) := by
  have newest := h.newest_notMem data
  unfold push
  cases first : s.waiters with
  | nil =>
    simp only [Intact, Finds, arrive, first, ← List.append_assoc, List.append_cancel_right_eq,
      List.head?_nil, Option.mem_def, reduceCtorEq, false_implies, implies_true, and_true]
  | cons waiter waiters =>
    obtain ⟨call, rfl, state⟩ := h.waits waiter (first ▸ List.mem_cons_self)
    simp only [Intact, Finds, arrive, first, MessageInbox.call, Waiter.number, settle,
      List.head?_cons, Option.mem_def, Option.some.injEq, forall_eq']
    rcases state with pending | rejected
    · simp only [pending, List.map_append, List.map_cons, List.map_nil, ne_eq, Option.some.injEq,
        reduceCtorEq, not_false_eq_true, and_true]
      constructor
      · rintro ⟨whole, spared⟩
        have empty : s.queue = [] := by
          by_contra some'
          have last := congrArg List.getLast? whole
          rw [List.getLast?_append, List.getLast?_eq_some_getLast some', Option.some_or,
            List.getLast?_concat] at last
          exact newest (List.mem_append_right _ (Option.some.inj last ▸ List.getLast_mem some'))
        rw [empty, List.append_nil, List.append_cancel_right_eq] at whole
        rw [empty, List.append_nil]
        exact ⟨⟨whole, spared⟩, rfl⟩
      · rintro ⟨⟨whole, spared⟩, empty⟩
        rw [empty, List.append_nil] at whole
        rw [empty, List.append_nil, whole]
        exact ⟨rfl, spared⟩
    · simp [rejected]

theorem intact_pushFront (h : Sound s) (data : α) : Intact (s.pushFront data) ↔ Intact s := by
  have short := h.short
  unfold Intact pushFront
  refine and_congr_left fun _ => ⟨fun whole => ?_, fun whole => ?_⟩
  · have lengths : (s.returned.map Prod.snd).length = (s.line.take s.returned.length).length := by
      rw [List.length_map, List.length_take]
      omega
    obtain ⟨front, back⟩ := List.append_inj whole lengths
    rw [front, (List.cons_inj_right _).mp back, List.take_append_drop]
  · have front : s.line.take s.returned.length = s.returned.map Prod.snd := by
      rw [← whole, List.take_left' (List.length_map _)]
    have back : s.line.drop s.returned.length = s.queue := by
      rw [← whole, List.drop_left' (List.length_map _)]
    rw [front, back]

theorem intact_next : Intact s.next ↔ Intact s := by
  unfold Intact next
  split
  · rename_i message queue head
    simp only [head, List.map_append, List.map_cons, List.map_nil, List.append_assoc,
      List.singleton_append]
  · rfl

theorem intact_timeout (call : Nat) : Intact (s.timeout call) ↔ Intact s := by
  unfold Intact timeout
  split
  · rfl
  · rfl

theorem intact_step (h : Sound s) (opened : s.subscribed = true) (e : InboxEvent α)
    (stays : (s.step e).subscribed = true) : Intact (s.step e) ↔ Intact s ∧ s.Finds e := by
  cases e with
  | push data =>
    simp only [step, opened, if_true]
    exact intact_push h data
  | next => exact intact_next.trans (iff_of_eq (and_true _)).symm
  | timeout call => exact (intact_timeout call).trans (iff_of_eq (and_true _)).symm
  | pushFront data => exact (intact_pushFront h data).trans (iff_of_eq (and_true _)).symm
  | close => cases stays

end MessageInbox

open MessageInbox

variable {α : Type}

theorem subscribed_step {s : MessageInbox α} {e : InboxEvent α}
    (stays : (s.step e).subscribed = true) : s.subscribed = true := by
  cases e with
  | push data =>
    by_contra closed
    rw [MessageInbox.step, if_neg closed] at stays
    exact closed stays
  | next =>
    simp only [MessageInbox.step, MessageInbox.next] at stays
    split at stays <;> exact stays
  | timeout call =>
    simp only [MessageInbox.step, MessageInbox.timeout] at stays
    split at stays <;> exact stays
  | pushFront data => exact stays
  | close => cases stays

/-- **The inbox loses nothing** as long as it is open, exactly when every message that is
pushed finds no waiter, or as the first one a call that its timer has not rejected, and the
queue empty. -/
theorem inbox_lossless_iff (events : List (InboxEvent α))
    (isOpen : (Runs.run MessageInbox.step {} events).subscribed = true) :
    (Runs.run MessageInbox.step {} events).Lossless ↔
      Runs.Along MessageInbox.step MessageInbox.Finds {} events := by
  have both : (Runs.run MessageInbox.step {} events).Sound ∧
      ((Runs.run MessageInbox.step {} events).Intact ↔
        Runs.Along MessageInbox.step MessageInbox.Finds {} events) := by
    induction events using List.reverseRecOn with
    | nil => exact ⟨sound_new, iff_of_true ⟨rfl, rfl⟩ trivial⟩
    | append_singleton events e ih =>
      rw [Runs.run_append] at isOpen ⊢
      obtain ⟨sound, intact⟩ := ih (subscribed_step isOpen)
      rw [Runs.along_snoc, ← intact]
      exact ⟨sound_step sound e isOpen, intact_step sound (subscribed_step isOpen) e isOpen⟩
  exact (lossless_iff both.1).trans both.2

/-- A call that waits and is answered, and one that is answered from the queue. -/
theorem inbox_lossless_two :
    (Runs.run MessageInbox.step ({} : MessageInbox Nat)
      [.next, .push 7, .push 8, .pushFront 9, .next]).Lossless :=
  (inbox_lossless_iff _ rfl).mpr (by decide)

/-- A call times out, and the next message is given to it and to no other. -/
theorem inbox_swallows :
    let s := Runs.run MessageInbox.step ({} : MessageInbox Nat)
      [.next, .timeout 0, .next, .push 7]
    s.subscribed = true ∧ s.promises = [.rejected, .pending] ∧ s.queue = [] ∧
      s.returned = [] ∧ ¬ s.Lossless := by
  refine ⟨by decide, by decide, by decide, by decide, fun lossless => ?_⟩
  exact absurd lossless.spared (by decide)

end CamelliaRemote.Web
