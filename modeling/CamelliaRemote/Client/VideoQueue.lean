import CamelliaRemote.Lib.Runs
import Mathlib.Data.List.Range

/-!
The video queue of a client, `src/client/io_loop.rs` and `start_video_thread`. The frames of one
display reach the decoder on two ways. A key frame goes through the channel. Any other frame goes
into a bounded queue, and a token in the channel says when to take one out; a full queue drops its
oldest frame, and no token. Frames are numbered as they arrive.
-/

namespace CamelliaRemote.Client
open Runs

def videoQueueSize : Nat := 120

inductive MediaData where
  /-- The token for a frame in the queue. -/
  | videoQueue
  | videoFrame (n : Nat)
  /-- `Reset` and `RecordScreen`. -/
  | other
  deriving DecidableEq

def MediaData.isFrame : MediaData → Bool
  | .videoFrame _ => true
  | _ => false

/-- What the decoder thread has in hand. -/
inductive Decoder where
  | idle
  | received (data : MediaData)
  | popped (n : Nat)
  deriving DecidableEq

structure VideoThread where
  arrived : Nat := 0
  videoQueue : List Nat := []
  channel : List MediaData := []
  discardQueue : Bool := false
  /-- The receiving side has put a frame into the queue and not sent its token yet. -/
  owes : Bool := false
  decoder : Decoder := .idle
  /-- The frames passed to `handle_frame`. -/
  handled : List Nat := []

inductive VideoEvent where
  /-- A frame of the peer arrives, with what `contains_key_frame` says. -/
  | videoFrame (key : Bool)
  /-- The receiving side sends the token for the frame it has queued. -/
  | sendToken
  /-- A `RefreshVideo` passes, or the thread is given up. -/
  | discard
  | sendOther
  /-- The decoder thread receives, takes a frame out of the queue, and handles a frame. -/
  | recv
  | pop
  | handle
  deriving DecidableEq

/-- What is relied on of `ArrayQueue::force_push`: the queue it leaves, and whether there was
room. -/
structure ArrayQueue where
  forcePush : List Nat → Nat → List Nat × Bool
  push : ∀ queue n, queue.length < videoQueueSize → forcePush queue n = (queue ++ [n], true)
  overwrite : ∀ queue n, ¬ queue.length < videoQueueSize →
    forcePush queue n = (queue.tail ++ [n], false)

namespace VideoThread
variable (q : ArrayQueue) (s : VideoThread)

def onVideoFrame (key : Bool) : VideoThread :=
  let n := s.arrived
  let s := { s with arrived := s.arrived + 1 }
  if key then { s with channel := s.channel ++ [MediaData.videoFrame n] }
  else
    let (videoQueue, room) := q.forcePush s.videoQueue n
    { s with videoQueue, owes := room }

def step : VideoEvent → VideoThread
  | .videoFrame key => if s.owes then s else s.onVideoFrame q key
  | .sendToken =>
    if s.owes then { s with channel := s.channel ++ [MediaData.videoQueue], owes := false } else s
  | .discard => { s with discardQueue := true }
  | .sendOther => if s.owes then s else { s with channel := s.channel ++ [MediaData.other] }
  | .recv =>
    match s.decoder, s.channel with
    | .idle, data :: channel => { s with decoder := .received data, channel }
    | _, _ => s
  | .pop =>
    match s.decoder, s.videoQueue with
    | .received .videoQueue, n :: videoQueue => { s with decoder := .popped n, videoQueue }
    | .received .videoQueue, [] => { s with decoder := .idle }
    | _, _ => s
  | .handle =>
    match s.decoder with
    | .received (.videoFrame n) =>
      { s with decoder := .idle, discardQueue := false, handled := s.handled ++ [n] }
    | .received .other => { s with decoder := .idle }
    | .popped n =>
      if s.discardQueue then { s with decoder := .idle }
      else { s with decoder := .idle, handled := s.handled ++ [n] }
    | _ => s

/-- All messages that are not dealt with, the decoder's first and an owed token last. -/
def pending : List MediaData :=
  (match s.decoder with
    | .received data => [data]
    | _ => []) ++ s.channel ++ if s.owes then [.videoQueue] else []

/-- The frame that the decoder has popped, if it is going to handle it. -/
def inHand : List Nat :=
  match s.decoder with
  | .popped n => if s.discardQueue then [] else [n]
  | _ => []

end VideoThread

/-- The frames that the decoder will handle if nothing more arrives. -/
def upcoming : Bool → List MediaData → List Nat → List Nat
  | _, [], _ => []
  | discard, .videoQueue :: data, [] => upcoming discard data []
  | true, .videoQueue :: data, _ :: queue => upcoming true data queue
  | false, .videoQueue :: data, n :: queue => n :: upcoming false data queue
  | _, .videoFrame n :: data, queue => n :: upcoming false data queue
  | discard, .other :: data, queue => upcoming discard data queue

/-- A key frame stands behind a token whose frame will be handled. -/
def keyBehindToken : Bool → List MediaData → Bool
  | _, [] => false
  | true, .videoFrame _ :: data => keyBehindToken false data
  | true, _ :: data => keyBehindToken true data
  | false, .videoQueue :: data => data.any MediaData.isFrame
  | false, _ :: data => keyBehindToken false data

/-- No frame is dropped from the full queue while a key frame waits behind a token. -/
def DropsInFront (s : VideoThread) (e : VideoEvent) : Prop :=
  e = .videoFrame false → s.owes = false → videoQueueSize ≤ s.videoQueue.length →
    keyBehindToken s.discardQueue s.pending = false

section Upcoming
variable {discard : Bool} {data : List MediaData} {queue : List Nat} {n : Nat}

def tokens (data : List MediaData) : Nat := data.count .videoQueue

@[simp] theorem tokens_append (data more : List MediaData) :
    tokens (data ++ more) = tokens data + tokens more := List.count_append

theorem upcoming_frame : upcoming discard (data ++ [MediaData.videoFrame n]) queue =
    upcoming discard data queue ++ [n] := by
  fun_induction upcoming discard data queue <;> simp_all [upcoming]

theorem upcoming_other : upcoming discard (data ++ [MediaData.other]) queue =
    upcoming discard data queue := by
  fun_induction upcoming discard data queue <;> simp_all [upcoming]

theorem upcoming_discard : (upcoming true data queue).Sublist (upcoming discard data queue) := by
  fun_induction upcoming discard data queue with
  | case1 => simp [upcoming]
  | case2 discard data ih => simpa [upcoming] using ih
  | case3 data n queue ih => exact ih
  | case4 data n queue ih => exact ih.cons _
  | case5 discard n data queue ih => exact List.Sublist.refl _
  | case6 discard data queue ih => simpa [upcoming] using ih

/-- A frame that is put into the queue comes after everything, if it comes at all. -/
theorem upcoming_push (matched : tokens data = queue.length) :
    (upcoming discard (data ++ [MediaData.videoQueue]) (queue ++ [n])).Sublist
      (upcoming discard data queue ++ [n]) := by
  fun_induction upcoming discard data queue with
  | case1 discard queue =>
    obtain rfl : queue = [] := List.length_eq_zero_iff.mp matched.symm
    cases discard <;> simp [upcoming]
  | case2 discard data ih => simp [tokens] at matched
  | case3 data m queue ih => exact ih (by simpa [tokens] using matched)
  | case4 data m queue ih => exact (ih (by simpa [tokens] using matched)).cons_cons m
  | case5 discard m data queue ih =>
    have rest := ih (by simpa [tokens] using matched)
    simpa [upcoming] using rest
  | case6 discard data queue ih =>
    have rest := ih (by simpa [tokens] using matched)
    simpa [upcoming] using rest

theorem upcoming_tokens (noFrame : data.any MediaData.isFrame = false) :
    upcoming false data queue = queue.take (tokens data) := by
  induction data generalizing queue with
  | nil => simp [upcoming, tokens]
  | cons d data ih =>
    cases d with
    | videoQueue =>
      have rest : data.any MediaData.isFrame = false := by
        simpa [MediaData.isFrame] using noFrame
      cases queue with
      | nil => simp [upcoming, ih rest]
      | cons m queue => simp [upcoming, ih rest, tokens]
    | videoFrame m => simp [MediaData.isFrame] at noFrame
    | other =>
      have rest : data.any MediaData.isFrame = false := by
        simpa [MediaData.isFrame] using noFrame
      simp [upcoming, ih rest, tokens]

/-- Nothing changes its place when the front of the queue is dropped, as long as no key
frame stands behind a token. -/
theorem upcoming_drop (matched : tokens data = queue.length)
    (clear : keyBehindToken discard data = false) :
    (upcoming discard data (queue.tail ++ [n])).Sublist (upcoming discard data queue ++ [n]) := by
  induction data generalizing discard queue with
  | nil => simp [upcoming]
  | cons d data ih =>
    cases d with
    | videoQueue =>
      cases queue with
      | nil => simp [tokens] at matched
      | cons m queue =>
        have count : tokens data = queue.length := by simpa [tokens] using matched
        cases discard with
        | false =>
          have all : tokens (MediaData.videoQueue :: data) = (queue ++ [n]).length := by
            simpa [tokens] using matched
          have noFrame : data.any MediaData.isFrame = false := clear
          rw [upcoming_tokens (by simpa [MediaData.isFrame] using noFrame), List.tail_cons, all,
            List.take_length, upcoming, upcoming_tokens noFrame, count, List.take_length]
          exact List.sublist_cons_self m _
        | true =>
          cases queue with
          | nil => simp [upcoming]
          | cons m' queue => exact ih count clear
    | videoFrame m =>
      have rest : keyBehindToken false data = false := by
        cases discard <;> exact clear
      exact (ih (by simpa [tokens] using matched) rest).cons_cons m
    | other =>
      have rest : keyBehindToken discard data = false := by
        cases discard <;> exact clear
      exact ih (by simpa [tokens] using matched) rest

end Upcoming

namespace VideoThread
variable {q : ArrayQueue} {s : VideoThread}

/-- Every token stands for one frame in the queue. -/
def Matched (s : VideoThread) : Prop := tokens s.pending = s.videoQueue.length

/-- What was handled, then what is still to come. -/
def frames (s : VideoThread) : List Nat :=
  s.handled ++ s.inHand ++ upcoming s.discardQueue s.pending s.videoQueue

theorem onVideoFrame_key (paid : s.owes = false) :
    (s.onVideoFrame q true).pending = s.pending ++ [MediaData.videoFrame s.arrived] := by
  simp [onVideoFrame, pending, paid]

theorem onVideoFrame_room (paid : s.owes = false) (room : s.videoQueue.length < videoQueueSize) :
    (s.onVideoFrame q false).pending = s.pending ++ [MediaData.videoQueue] ∧
      (s.onVideoFrame q false).videoQueue = s.videoQueue ++ [s.arrived] := by
  simp [onVideoFrame, q.push _ _ room, pending, paid]

theorem onVideoFrame_full (paid : s.owes = false) (full : ¬ s.videoQueue.length < videoQueueSize) :
    (s.onVideoFrame q false).pending = s.pending ∧
      (s.onVideoFrame q false).videoQueue = s.videoQueue.tail ++ [s.arrived] := by
  simp [onVideoFrame, q.overwrite _ _ full, pending, paid]

theorem Matched.step (matched : s.Matched) (e : VideoEvent) : (s.step q e).Matched := by
  unfold Matched at matched ⊢
  cases e with
  | videoFrame key =>
    simp only [VideoThread.step]
    split
    · exact matched
    · rename_i owes
      have paid : s.owes = false := by simpa using owes
      cases key with
      | true =>
        have same : (s.onVideoFrame q true).videoQueue = s.videoQueue := rfl
        rw [onVideoFrame_key paid, same, tokens_append, matched]
        rfl
      | false =>
        by_cases room : s.videoQueue.length < videoQueueSize
        · obtain ⟨data, queue⟩ := onVideoFrame_room paid room
          rw [data, queue, tokens_append, matched, List.length_append]
          rfl
        · obtain ⟨data, queue⟩ := onVideoFrame_full paid room
          rw [data, queue, matched, List.length_append, List.length_tail, List.length_singleton]
          unfold videoQueueSize at room
          omega
  | sendToken =>
    simp only [VideoThread.step]
    split
    · rename_i owes
      simpa [pending, owes] using matched
    · exact matched
  | discard => exact matched
  | sendOther =>
    simp only [VideoThread.step]
    split
    · exact matched
    · rename_i owes
      have paid : s.owes = false := by simpa using owes
      simpa [pending, paid, tokens] using matched
  | recv =>
    simp only [VideoThread.step]
    split
    · rename_i data channel idle front
      simpa [pending, idle, front] using matched
    · exact matched
  | pop =>
    simp only [VideoThread.step]
    split
    · rename_i n queue token front
      simpa [pending, token, front, tokens] using matched
    · rename_i token front
      simp [pending, token, front, tokens] at matched
    · exact matched
  | handle =>
    simp only [VideoThread.step]
    split
    · rename_i n got
      simpa [pending, got, tokens] using matched
    · rename_i got
      simpa [pending, got, tokens] using matched
    · rename_i n got
      split <;> simpa [pending, got] using matched
    · exact matched

/-- A new frame comes last, or not at all. -/
theorem frames_onVideoFrame (matched : s.Matched) (paid : s.owes = false) {key : Bool}
    (drops : DropsInFront s (.videoFrame key)) :
    (s.onVideoFrame q key).frames.Sublist (s.frames ++ [s.arrived]) := by
  have hand : (s.onVideoFrame q key).inHand = s.inHand := by
    unfold onVideoFrame
    split <;> rfl
  have handled : (s.onVideoFrame q key).handled = s.handled := by
    unfold onVideoFrame
    split <;> rfl
  have discard : (s.onVideoFrame q key).discardQueue = s.discardQueue := by
    unfold onVideoFrame
    split <;> rfl
  unfold frames
  rw [hand, handled, discard, List.append_assoc _ _ [s.arrived]]
  refine List.Sublist.append_left ?_ _
  cases key with
  | true =>
    have same : (s.onVideoFrame q true).videoQueue = s.videoQueue := rfl
    rw [onVideoFrame_key paid, same, upcoming_frame]
  | false =>
    by_cases room : s.videoQueue.length < videoQueueSize
    · obtain ⟨data, queue⟩ := onVideoFrame_room paid room
      rw [data, queue]
      exact upcoming_push matched
    · obtain ⟨data, queue⟩ := onVideoFrame_full paid room
      rw [data, queue]
      exact upcoming_drop matched (drops rfl paid (not_lt.mp room))

theorem inHand_discard : (s.step q .discard).inHand = [] := by
  unfold inHand
  split <;> rfl

/-- The steps that are no arrival take nothing out of its place. -/
theorem frames_step {e : VideoEvent} (same : (s.step q e).arrived = s.arrived) :
    (s.step q e).frames.Sublist s.frames := by
  cases e with
  | videoFrame key =>
    simp only [VideoThread.step] at same ⊢
    split
    · exact List.Sublist.refl _
    · rename_i paid
      rw [if_neg paid] at same
      cases key <;> simp [onVideoFrame] at same
  | sendToken =>
    simp only [VideoThread.step]
    split
    · rename_i owes
      simp [frames, pending, owes, inHand]
    · exact List.Sublist.refl _
  | discard =>
    refine List.Sublist.append ?_ upcoming_discard
    refine List.Sublist.append_left ?_ _
    rw [inHand_discard]
    exact List.nil_sublist _
  | sendOther =>
    simp only [VideoThread.step]
    split
    · exact List.Sublist.refl _
    · rename_i owes
      have paid : s.owes = false := by simpa using owes
      simp [frames, pending, paid, inHand, ← List.append_assoc, upcoming_other]
  | recv =>
    simp only [VideoThread.step]
    split
    · rename_i data channel idle front
      simp [frames, pending, idle, front, inHand]
    · exact List.Sublist.refl _
  | pop =>
    simp only [VideoThread.step]
    split
    · rename_i n queue token front
      cases discard : s.discardQueue <;>
        simp [frames, pending, token, front, inHand, discard, upcoming]
    · rename_i token front
      simp [frames, pending, token, front, inHand, upcoming]
    · exact List.Sublist.refl _
  | handle =>
    simp only [VideoThread.step]
    split
    · rename_i n got
      simp [frames, pending, got, inHand, upcoming]
    · rename_i got
      simp [frames, pending, got, inHand, upcoming]
    · rename_i n got
      cases discard : s.discardQueue <;> simp [frames, pending, got, inHand, discard]
    · exact List.Sublist.refl _

theorem Ordered.step {e : VideoEvent} (matched : s.Matched)
    (ordered : s.frames.Sublist (List.range s.arrived)) (drops : DropsInFront s e) :
    (s.step q e).frames.Sublist (List.range (s.step q e).arrived) := by
  by_cases same : (s.step q e).arrived = s.arrived
  · rw [same]
    exact (frames_step same).trans ordered
  · obtain ⟨key, rfl⟩ : ∃ key, e = .videoFrame key := by
      cases e with
      | videoFrame key => exact ⟨key, rfl⟩
      | sendToken => exact absurd (by simp only [VideoThread.step]; split <;> rfl) same
      | discard => exact absurd rfl same
      | sendOther => exact absurd (by simp only [VideoThread.step]; split <;> rfl) same
      | recv => exact absurd (by simp only [VideoThread.step]; split <;> rfl) same
      | pop => exact absurd (by simp only [VideoThread.step]; split <;> rfl) same
      | handle =>
        refine absurd ?_ same
        simp only [VideoThread.step]
        split
        · rfl
        · rfl
        · split <;> rfl
        · rfl
    have paid : s.owes = false := by
      by_contra owes
      exact same (by simp only [VideoThread.step, if_pos (by simpa using owes)])
    have arrival : s.step q (.videoFrame key) = s.onVideoFrame q key := by
      simp [VideoThread.step, paid]
    have next : (s.onVideoFrame q key).arrived = s.arrived + 1 := by
      unfold onVideoFrame
      split <;> rfl
    rw [arrival, next, List.range_succ]
    exact (frames_onVideoFrame matched paid drops).trans (ordered.append_right _)

end VideoThread

/-- **Frames are decoded in the order of their arrival** where the full queue drops no
frame while a key frame waits behind a token, and no queued frame is without a token. -/
theorem frames_handled_in_order (q : ArrayQueue) (es : List VideoEvent)
    (drops : Along (VideoThread.step q) DropsInFront {} es) :
    (run (VideoThread.step q) {} es).handled.Sublist
        (List.range (run (VideoThread.step q) {} es).arrived) ∧
      ((run (VideoThread.step q) {} es).owes = false →
        tokens (run (VideoThread.step q) {} es).channel +
            (if (run (VideoThread.step q) {} es).decoder = .received .videoQueue then 1 else 0) =
          (run (VideoThread.step q) {} es).videoQueue.length) := by
  have invariant := Runs.invariant
    (I := fun s => s.Matched ∧ s.frames.Sublist (List.range s.arrived))
    (fun s e inv drops => ⟨inv.1.step e, VideoThread.Ordered.step inv.1 inv.2 drops⟩)
    ⟨rfl, List.Sublist.refl _⟩ drops
  obtain ⟨matched, ordered⟩ := invariant
  generalize run (VideoThread.step q) {} es = s at matched ordered ⊢
  refine ⟨?_, ?_⟩
  · refine List.Sublist.trans ?_ ordered
    unfold VideoThread.frames
    rw [List.append_assoc]
    exact List.sublist_append_left _ _
  · intro paid
    unfold VideoThread.Matched VideoThread.pending at matched
    rw [← matched, paid]
    cases decoder : s.decoder with
    | idle => simp
    | popped n => simp
    | received data => cases data <;> simp [tokens]

/-- A queue as `ArrayQueue` is documented. -/
def arrayQueue : ArrayQueue where
  forcePush queue n :=
    if queue.length < videoQueueSize then (queue ++ [n], true) else (queue.tail ++ [n], false)
  push _ _ room := if_pos room
  overwrite _ _ full := if_neg full

/-- One frame more than the queue holds, and then a key frame. -/
def evictedThenKey : List VideoEvent :=
  (List.replicate videoQueueSize [VideoEvent.videoFrame false, .sendToken]).flatten ++
    [VideoEvent.videoFrame false, .videoFrame true] ++
    (List.replicate videoQueueSize [VideoEvent.recv, .pop, .handle]).flatten ++
    [VideoEvent.recv, .handle]

instance (s : VideoThread) (e : VideoEvent) : Decidable (DropsInFront s e) :=
  inferInstanceAs (Decidable (_ → _))

theorem frames_handled_in_order_key :
    let s := run (VideoThread.step arrayQueue) {} evictedThenKey
    s.handled = List.range' 1 121 ∧ s.handled.Sublist (List.range s.arrived) := by
  intro s
  have drops : Along (VideoThread.step arrayQueue) DropsInFront {} evictedThenKey := by
    decide +kernel
  exact ⟨by decide +kernel, (frames_handled_in_order arrayQueue _ drops).1⟩

/-- Frames go into a queue with room, each with its token. -/
theorem run_fill {n : Nat} (room : n ≤ videoQueueSize) :
    run (VideoThread.step arrayQueue) {}
        (List.replicate n [.videoFrame false, .sendToken]).flatten =
      { arrived := n, videoQueue := List.range n, channel := List.replicate n .videoQueue } := by
  induction n with
  | zero => rfl
  | succ n ih =>
    have full : n < videoQueueSize := room
    rw [List.replicate_succ', List.flatten_append, run_append, ih (Nat.le_of_lt full)]
    simp [VideoThread.step, VideoThread.onVideoFrame, arrayQueue.push _ _, full,
      List.range_succ, List.replicate_succ']

/-- A key frame and another frame reach a full queue, which drops its oldest frame. -/
theorem run_overtaking {arrived n : Nat} {queue : List Nat} {channel : List MediaData}
    (full : queue.length + 1 = videoQueueSize) :
    run (VideoThread.step arrayQueue) { arrived, videoQueue := n :: queue, channel }
        [.videoFrame true, .videoFrame false] =
      { arrived := arrived + 2
        videoQueue := queue ++ [arrived + 1]
        channel := channel ++ [MediaData.videoFrame arrived] } := by
  simp [VideoThread.step, VideoThread.onVideoFrame, arrayQueue.overwrite _ _, full]

/-- The decoder goes through tokens with their frames in the queue. -/
theorem run_drain (arrived : Nat) (queue later handled : List Nat) (channel : List MediaData) :
    run (VideoThread.step arrayQueue)
        { arrived
          videoQueue := queue ++ later
          channel := List.replicate queue.length .videoQueue ++ channel
          handled }
        (List.replicate queue.length [.recv, .pop, .handle]).flatten =
      { arrived, videoQueue := later, channel, handled := handled ++ queue } := by
  induction queue generalizing handled with
  | nil => simp
  | cons n queue ih =>
    simpa [List.replicate_succ, VideoThread.step] using ih (handled ++ [n])

/-- The queue is full, a key frame follows, and one more frame arrives before the decoder
goes on. -/
def overflow : List VideoEvent :=
  (List.replicate videoQueueSize [VideoEvent.videoFrame false, .sendToken]).flatten ++
    [VideoEvent.videoFrame true, .videoFrame false] ++
    (List.replicate videoQueueSize [VideoEvent.recv, .pop, .handle]).flatten ++
    [VideoEvent.recv, .handle]

theorem handled_overflow :
    (run (VideoThread.step arrayQueue) {} overflow).handled = List.range' 1 119 ++ [121, 120] := by
  have range : List.range videoQueueSize = 0 :: List.range' 1 119 := by
    rw [List.range_eq_range', videoQueueSize, List.range'_succ]
  have length : (List.range' 1 119 ++ [videoQueueSize + 1]).length = videoQueueSize := by
    rw [List.length_append, List.length_range', List.length_singleton, videoQueueSize]
  have drained := run_drain (videoQueueSize + 2) (List.range' 1 119 ++ [videoQueueSize + 1]) [] []
    [.videoFrame videoQueueSize]
  rw [length, List.append_nil, List.nil_append] at drained
  rw [overflow, run_append, run_append, run_append, run_fill (Nat.le_refl _), range,
    run_overtaking (by rw [List.length_range', videoQueueSize]), drained]
  simp [VideoThread.step, videoQueueSize]

/-- The last frame, number 121, is handled before the key frame, number 120. -/
theorem overflow_overtakes_key :
    (run (VideoThread.step arrayQueue) {} overflow).handled.drop 119 = [121, 120] ∧
      ¬ (run (VideoThread.step arrayQueue) {} overflow).handled.Sublist
        (List.range (run (VideoThread.step arrayQueue) {} overflow).arrived) := by
  have last : (run (VideoThread.step arrayQueue) {} overflow).handled.drop 119 = [121, 120] := by
    rw [handled_overflow]
    simp
  refine ⟨last, ?_⟩
  intro inOrder
  have sorted := List.pairwise_lt_range.sublist ((List.drop_sublist 119 _).trans inOrder)
  rw [last] at sorted
  exact absurd sorted (by decide)

end CamelliaRemote.Client
