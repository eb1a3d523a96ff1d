import CamelliaRemote.Lib.TreeMaps
import CamelliaRemote.Terminal.Service

namespace CamelliaRemote.Terminal
open Runs World

/-- Some poll other than `except` has still to process the session or to clean
it up. -/
def Busy (w : World) (except : Option Nat) (session : Nat) : Prop :=
  ∃ q ∈ w.polls.toList, some q.1 ≠ except ∧
    ∃ x ∈ q.2.todo ++ q.2.closedTerminals, x.2 = session

instance (w : World) (except : Option Nat) (session : Nat) : Decidable (Busy w except session) :=
  inferInstanceAs (Decidable (∃ q ∈ w.polls.toList, _ ∧ _))

/-- No step moves or removes a session that a poll under way has still to
process or to clean up, but for that poll's own cleanup. -/
def Orderly (w : World) : Event → Prop
  | .handleOpen terminalId _ _ => ∀ x ∈ w.remapped terminalId, ¬ Busy w none x.2
  | .handleClose terminalId => ∀ session ∈ w.sessions[terminalId]?, ¬ Busy w none session
  | .cleanup poll => ∀ p ∈ w.polls[poll]?, ∀ x ∈ p.closedTerminals, ¬ Busy w (some poll) x.2
  | _ => True

instance (w : World) : ∀ e, Decidable (Orderly w e)
  | .handleOpen _ _ _ => inferInstanceAs (Decidable (∀ x ∈ _, _))
  | .handleClose _ => inferInstanceAs (Decidable (∀ x ∈ _, _))
  | .cleanup _ => inferInstanceAs (Decidable (∀ x ∈ _, _))
  | .send _ _ | .shellExits _ _ | .finishReader _ | .resetStatus _ | .snapshot _
  | .process _ _ _ _ _ | .skip _ _ => inferInstanceAs (Decidable True)

/-- A poll hits the right session: its output goes out under the id the session
has then, a closed terminal is removed or reaped only if that session was seen
to have ended, and when the poll returns, the sessions it marked are gone. -/
def HitsRight (z : Compression) (w : World) : Event → Prop
  | .process poll i arrivals _ _ =>
    ∀ p ∈ w.polls[poll]?, ∀ x ∈ p.todo[i]?,
      ∀ d ∈ (w.heap x.2).pollResponses z x.1 arrivals, w.sessions[d.terminalId]? = some x.2
  | .cleanup poll =>
    ∀ p ∈ w.polls[poll]?, p.todo.isEmpty →
      (∀ r ∈ closedResponses p.isPersistent w (p.closedTerminals.map Prod.fst),
        ∀ session ∈ r.hit, (w.heap session).closedMessageSent) ∧
      ∀ x ∈ p.closedTerminals, ∀ y ∈ (w.step (.cleanup poll)).sessions.toList, y.2 ≠ x.2
  | _ => True

instance (z : Compression) (w : World) : ∀ e, Decidable (HitsRight z w e)
  | .process _ _ _ _ _ => inferInstanceAs (Decidable (∀ p ∈ _, _))
  | .cleanup _ => inferInstanceAs (Decidable (∀ p ∈ _, _))
  | .handleOpen _ _ _ | .handleClose _ | .send _ _ | .shellExits _ _ | .finishReader _
  | .resetStatus _ | .snapshot _ | .skip _ _ => inferInstanceAs (Decidable True)

theorem session_step_marked (s : TerminalSession) (e : SessionEvent)
    (h : s.closedMessageSent = true) : (s.step e).closedMessageSent = true := by
  cases e with
  | send data =>
    simp only [TerminalSession.step, TerminalSession.trySend]
    split <;> exact h
  | poll => simp [TerminalSession.step, TerminalSession.poll, h]
  | reset | reconnect | shellExits | finishReader | takeChild => exact h

theorem apply_marked (w : World) (session : Nat) (e : SessionEvent) (a : Nat)
    (h : (w.heap a).closedMessageSent = true) :
    ((w.apply session e).heap a).closedMessageSent = true := by
  by_cases same : a = session
  · subst same
    simpa [World.apply] using session_step_marked _ e h
  · simpa [World.apply, same] using h

theorem cleanUpOne_marked (isPersistent : Bool) (w : World) (id : Int) (a : Nat) :
    ((cleanUpOne isPersistent w id).heap a).closedMessageSent =
      (w.heap a).closedMessageSent := by
  have takes (session : Nat) : ((w.apply session .takeChild).heap a).closedMessageSent =
      (w.heap a).closedMessageSent := by
    by_cases same : a = session
    · subst same
      simp [World.apply, TerminalSession.step, TerminalSession.takeChild]
    · simp [World.apply, same]
  unfold cleanUpOne
  split
  · rfl
  · split <;> exact takes _

theorem cleanUpOne_sessions (isPersistent : Bool) (w : World) (id j : Int) :
    (cleanUpOne isPersistent w id).sessions[j]? = w.sessions[j]? ∨
      j = id ∧ (cleanUpOne isPersistent w id).sessions[j]? = none := by
  unfold cleanUpOne
  split
  · exact .inl rfl
  · split
    · by_cases same : j = id
      · exact .inr ⟨same, by simp [same]⟩
      · exact .inl (TreeMaps.erase_of_ne same)
    · exact .inl rfl

theorem cleanUpOne_removes (isPersistent : Bool) {w : World} {id : Int} {session : Nat}
    (found : w.sessions[id]? = some session) (marked : (w.heap session).closedMessageSent = true) :
    (cleanUpOne isPersistent w id).sessions[id]? = none := by
  simp [cleanUpOne, found, marked]

theorem cleanUp_marked (isPersistent : Bool) (w : World) (ids : List Int) (a : Nat) :
    ((cleanUp isPersistent w ids).heap a).closedMessageSent =
      (w.heap a).closedMessageSent := by
  induction ids generalizing w with
  | nil => rfl
  | cons id ids ih => exact (ih _).trans (cleanUpOne_marked isPersistent w id a)

theorem cleanUp_sessions (isPersistent : Bool) (w : World) (ids : List Int) (j : Int) :
    (cleanUp isPersistent w ids).sessions[j]? = w.sessions[j]? ∨
      j ∈ ids ∧ (cleanUp isPersistent w ids).sessions[j]? = none := by
  induction ids generalizing w with
  | nil => exact .inl rfl
  | cons id ids ih =>
    have rest := ih (cleanUpOne isPersistent w id)
    have first := cleanUpOne_sessions isPersistent w id j
    simp only [cleanUp, List.foldl_cons, List.mem_cons] at rest ⊢
    rcases rest with same | ⟨mem, gone⟩
    · rcases first with kept | ⟨rfl, gone⟩
      · exact .inl (same.trans kept)
      · exact .inr ⟨.inl rfl, same.trans gone⟩
    · exact .inr ⟨.inr mem, gone⟩

theorem cleanUp_removes (isPersistent : Bool) {w : World} {ids : List Int} {id : Int}
    (mem : id ∈ ids) {session : Nat} (found : w.sessions[id]? = some session)
    (marked : (w.heap session).closedMessageSent = true) :
    (cleanUp isPersistent w ids).sessions[id]? = none := by
  induction ids generalizing w with
  | nil => simp at mem
  | cons first ids ih =>
    have next : cleanUp isPersistent w (first :: ids) =
        cleanUp isPersistent (cleanUpOne isPersistent w first) ids := rfl
    have gone : (cleanUpOne isPersistent w first).sessions[id]? = none →
        (cleanUp isPersistent w (first :: ids)).sessions[id]? = none := by
      intro absent
      rw [next]
      rcases cleanUp_sessions isPersistent (cleanUpOne isPersistent w first) ids id with
        same | ⟨-, gone⟩
      · rw [same, absent]
      · exact gone
    rcases cleanUpOne_sessions isPersistent w first id with kept | ⟨-, absent⟩
    · by_cases now : id = first
      · subst now
        exact gone (cleanUpOne_removes isPersistent found marked)
      · rw [next]
        refine ih ?_ (kept.trans found) ?_
        · simpa [now] using mem
        · rw [cleanUpOne_marked, marked]
    · exact gone absent

theorem closedResponses_hit (isPersistent : Bool) {w : World} {ids : List Int}
    {r : TerminalClosed} (mem : r ∈ closedResponses isPersistent w ids) {session : Nat}
    (hit : r.hit = some session) : ∃ id ∈ ids, w.sessions[id]? = some session := by
  induction ids generalizing w with
  | nil => simp [closedResponses] at mem
  | cons id ids ih =>
    rcases List.mem_cons.mp mem with rfl | later
    · refine ⟨id, List.mem_cons_self, ?_⟩
      unfold closedResponse at hit
      split at hit
      · simp at hit
      · rename_i found
        simp only at hit
        split at hit
        · rw [found, hit]
        · simp at hit
    · obtain ⟨j, hj, found⟩ := ih later
      refine ⟨j, List.mem_cons_of_mem _ hj, ?_⟩
      rcases cleanUpOne_sessions isPersistent w id j with kept | ⟨-, gone⟩
      · exact kept ▸ found
      · simp [gone] at found

structure Inv (w : World) : Prop where
  injective : ∀ (i j : Int) a, w.sessions[i]? = some a → w.sessions[j]? = some a → i = j
  allocated : ∀ (i : Int) a, w.sessions[i]? = some a → a < w.allocated
  registered : ∀ (n : Nat) p, w.polls[n]? = some p →
    ∀ x ∈ p.todo ++ p.closedTerminals, w.sessions[x.1]? = some x.2
  ended : ∀ (n : Nat) p, w.polls[n]? = some p →
    ∀ x ∈ p.closedTerminals, (w.heap x.2).closedMessageSent = true

theorem not_busy {w : World} {except : Option Nat} {session : Nat}
    (free : ¬ Busy w except session) {n : Nat} {p : Poll} (hp : w.polls[n]? = some p)
    (other : some n ≠ except) {x : Int × Nat} (hx : x ∈ p.todo ++ p.closedTerminals) :
    x.2 ≠ session := fun same =>
  free ⟨(n, p), Std.ExtTreeMap.mem_toList_iff_getElem?_eq_some.mpr hp, other, x, hx, same⟩

/-- The map and the polls are as before and every mark is kept. -/
theorem Inv.heap {w v : World} (h : Inv w) (sessions : v.sessions = w.sessions)
    (allocated : v.allocated = w.allocated) (polls : v.polls = w.polls)
    (marked : ∀ a, (w.heap a).closedMessageSent = true →
      (v.heap a).closedMessageSent = true) : Inv v := by
  constructor
  · rw [sessions]
    exact h.injective
  · rw [sessions, allocated]
    exact h.allocated
  · rw [sessions, polls]
    exact h.registered
  · rw [polls]
    exact fun n p hp x hx => marked _ (h.ended n p hp x hx)

/-- One poll is noted anew. -/
theorem Inv.poll {w v : World} (h : Inv w) (n : Nat) (p : Poll)
    (sessions : v.sessions = w.sessions) (allocated : v.allocated = w.allocated)
    (polls : v.polls = w.polls.insert n p)
    (marked : ∀ a, (w.heap a).closedMessageSent = true → (v.heap a).closedMessageSent = true)
    (registered : ∀ x ∈ p.todo ++ p.closedTerminals, w.sessions[x.1]? = some x.2)
    (ended : ∀ x ∈ p.closedTerminals, (v.heap x.2).closedMessageSent = true) : Inv v := by
  constructor
  · rw [sessions]
    exact h.injective
  · rw [sessions, allocated]
    exact h.allocated
  · intro m q hq
    rw [sessions]
    rw [polls] at hq
    rcases TreeMaps.of_insert hq with ⟨-, rfl⟩ | ⟨-, old⟩
    · exact registered
    · exact h.registered m q old
  · intro m q hq x hx
    rw [polls] at hq
    rcases TreeMaps.of_insert hq with ⟨-, rfl⟩ | ⟨-, old⟩
    · exact ended x hx
    · exact marked _ (h.ended m q old x hx)

theorem resetStatus_inv {w : World} (h : Inv w) (isPersistent : Bool) :
    Inv (w.resetStatus isPersistent) := by
  refine h.heap rfl rfl rfl fun a marked => ?_
  simp only [World.resetStatus]
  split
  · exact session_step_marked _ _ marked
  · exact marked

theorem remapped_found {w : World} {terminalId : Int} {x : Int × Nat}
    (h : w.remapped terminalId = some x) :
    w.sessions[terminalId]? = none ∧ w.sessions[x.1]? = some x.2 := by
  unfold World.remapped at h
  split at h
  · rename_i free
    simp only [Bool.and_eq_true, Option.isNone_iff_eq_none] at free
    refine ⟨free.1, ?_⟩
    obtain ⟨lowestId, -, found⟩ := Option.bind_eq_some_iff.mp h
    obtain ⟨session, at_, rfl⟩ := Option.map_eq_some_iff.mp found
    exact at_
  · simp at h

theorem remap_inv {w : World} (h : Inv w) (terminalId : Int)
    (free : ∀ x ∈ w.remapped terminalId, ¬ Busy w none x.2) : Inv (w.remap terminalId) := by
  unfold World.remap
  split
  · rename_i lowestId session moved
    obtain ⟨absent, found⟩ := remapped_found moved
    have idle := free _ moved
    have entry {j : Int} {a : Nat}
        (hj : ((w.sessions.erase lowestId).insert terminalId session)[j]? = some a) :
        j = terminalId ∧ a = session ∨ j ≠ lowestId ∧ w.sessions[j]? = some a := by
      rcases TreeMaps.of_insert hj with here | ⟨-, kept⟩
      · exact .inl here
      · exact .inr (TreeMaps.of_erase kept)
    refine ⟨?_, ?_, ?_, h.ended⟩
    · intro i j a hi hj
      rcases entry hi with ⟨rfl, rfl⟩ | ⟨ni, old⟩ <;>
        rcases entry hj with ⟨rfl, same⟩ | ⟨nj, old'⟩
      · rfl
      · exact absurd (h.injective j lowestId _ old' found) nj
      · exact absurd (h.injective i lowestId _ old (same ▸ found)) ni
      · exact h.injective i j a old old'
    · intro j a hj
      rcases entry hj with ⟨-, rfl⟩ | ⟨-, hj⟩
      · exact h.allocated lowestId _ found
      · exact h.allocated j a hj
    · intro n p hp x hx
      have kept := h.registered n p hp x hx
      have other := not_busy idle hp (by simp) hx
      have n1 : x.1 ≠ terminalId := by
        rintro same
        simp [same, absent] at kept
      have n2 : x.1 ≠ lowestId := by
        rintro same
        rw [same, found] at kept
        exact other (by simpa using kept.symm)
      exact (TreeMaps.insert_of_ne n1).trans ((TreeMaps.erase_of_ne n2).trans kept)
  · exact h

theorem openSession_inv {w : World} (h : Inv w) (terminalId : Int) (arrivals : List Bytes)
    (created : Bool) : Inv (w.openSession terminalId arrivals created) := by
  unfold World.openSession
  split
  · exact h.heap rfl rfl rfl (apply_marked w _ _)
  · rename_i absent
    split
    · have fresh {j : Int} {a : Nat} (hj : w.sessions[j]? = some a) : a ≠ w.allocated := by
        have := h.allocated j a hj
        omega
      refine ⟨?_, ?_, ?_, ?_⟩
      · intro i j a hi hj
        rcases TreeMaps.of_insert hi with ⟨rfl, rfl⟩ | ⟨-, old⟩ <;>
          rcases TreeMaps.of_insert hj with ⟨rfl, same⟩ | ⟨-, old'⟩
        · rfl
        · exact absurd rfl (fresh old')
        · exact absurd same (fresh old)
        · exact h.injective i j a old old'
      · intro j a hj
        rcases TreeMaps.of_insert hj with ⟨-, rfl⟩ | ⟨-, old⟩
        · exact Nat.lt_succ_self _
        · exact Nat.lt_succ_of_lt (h.allocated j a old)
      · intro n p hp x hx
        exact TreeMaps.insert_of_absent absent (h.registered n p hp x hx)
      · intro n p hp x hx
        have kept := h.registered n p hp x (List.mem_append_right _ hx)
        simpa [fresh kept] using h.ended n p hp x hx
    · exact h

theorem handleClose_inv {w : World} (h : Inv w) (terminalId : Int)
    (free : ∀ session ∈ w.sessions[terminalId]?, ¬ Busy w none session) :
    Inv (w.handleClose terminalId) := by
  unfold World.handleClose
  split
  · rename_i session found
    have idle := free session found
    refine ⟨fun i j a hi hj =>
        h.injective i j a (TreeMaps.of_erase hi).2 (TreeMaps.of_erase hj).2,
      fun j a hj => h.allocated j a (TreeMaps.of_erase hj).2, ?_,
      fun n p hp x hx => apply_marked w _ _ _ (h.ended n p hp x hx)⟩
    intro n p hp x hx
    have kept := h.registered n p hp x hx
    have other : x.1 ≠ terminalId := by
      rintro same
      rw [same, found] at kept
      exact not_busy idle hp (by simp) hx (by simpa using kept.symm)
    exact (TreeMaps.erase_of_ne other).trans kept
  · exact h

/-- A poll is done with a session of its snapshot, which it notes if it ended. -/
theorem Inv.done {w v : World} (h : Inv w) {n : Nat} {p : Poll} (hp : w.polls[n]? = some p)
    (i : Nat) {closed : Option (Int × Nat)} (sessions : v.sessions = w.sessions)
    (allocated : v.allocated = w.allocated) (polls : v.polls = w.polls.insert n (p.done i closed))
    (marked : ∀ a, (w.heap a).closedMessageSent = true → (v.heap a).closedMessageSent = true)
    (listed : ∀ x ∈ closed, x ∈ p.todo)
    (ended : ∀ x ∈ closed, (v.heap x.2).closedMessageSent = true) : Inv v := by
  refine h.poll n _ sessions allocated polls marked ?_ ?_
  · intro y hy
    simp only [Poll.done, List.mem_append, Option.mem_toList] at hy
    rcases hy with hy | hy | hy
    · exact h.registered n p hp y (List.mem_append_left _ (List.mem_of_mem_eraseIdx hy))
    · exact h.registered n p hp y (List.mem_append_right _ hy)
    · exact h.registered n p hp y (List.mem_append_left _ (listed y hy))
  · intro y hy
    simp only [Poll.done, List.mem_append, Option.mem_toList] at hy
    rcases hy with hy | hy
    · exact marked _ (h.ended n p hp y hy)
    · exact ended y hy

theorem process_inv {w : World} (h : Inv w) {n : Nat} {p : Poll} (hp : w.polls[n]? = some p)
    {i : Nat} {x : Int × Nat} (hx : p.todo[i]? = some x) (arrivals : List Bytes)
    (waitFails resizeOk : Bool) : Inv (w.process n p i x arrivals waitFails resizeOk) := by
  refine h.done hp i rfl rfl rfl (apply_marked w _ _) ?_ ?_
  · intro y hy
    split at hy
    · cases hy
      exact List.mem_of_getElem? hx
    · cases hy
  · intro y hy
    split at hy
    · rename_i ends
      cases hy
      simp [World.process, World.apply, TerminalSession.step, TerminalSession.poll, ends]
    · cases hy

theorem skip_inv {w : World} (h : Inv w) {n : Nat} {p : Poll} (hp : w.polls[n]? = some p)
    (i : Nat) : Inv { w with polls := w.polls.insert n (p.done i none) } :=
  h.done hp i rfl rfl rfl (fun _ => id) (fun _ none => by cases none) (fun _ none => by cases none)

theorem cleanup_inv {w : World} (h : Inv w) {n : Nat} {p : Poll} (hp : w.polls[n]? = some p)
    (alone : ∀ x ∈ p.closedTerminals, ¬ Busy w (some n) x.2) :
    Inv { cleanUp p.isPersistent w (p.closedTerminals.map Prod.fst) with
      polls := w.polls.erase n } := by
  have entry {j : Int} {a : Nat}
      (hj : (cleanUp p.isPersistent w (p.closedTerminals.map Prod.fst)).sessions[j]? = some a) :
      w.sessions[j]? = some a := by
    rcases cleanUp_sessions p.isPersistent w (p.closedTerminals.map Prod.fst) j with
      same | ⟨-, gone⟩
    · exact same ▸ hj
    · simp [gone] at hj
  refine ⟨fun i j a hi hj => h.injective i j a (entry hi) (entry hj), ?_, ?_, ?_⟩
  · intro j a hj
    rw [(cleanUp_frame _ _ _).1]
    exact h.allocated j a (entry hj)
  · intro m q hq x hx
    obtain ⟨other, old⟩ := TreeMaps.of_erase hq
    have kept := h.registered m q old x hx
    rcases cleanUp_sessions p.isPersistent w (p.closedTerminals.map Prod.fst) x.1 with
      same | ⟨mem, -⟩
    · exact same.trans kept
    · obtain ⟨y, hy, at_⟩ := List.mem_map.mp mem
      have noted := h.registered n p hp y (List.mem_append_right _ hy)
      rw [at_, kept] at noted
      exact absurd (by simpa using noted)
        (not_busy (alone y hy) old (by simpa using other) hx)
  · intro m q hq x hx
    rw [cleanUp_marked]
    exact h.ended m q (TreeMaps.of_erase hq).2 x hx

theorem step_inv (w : World) (e : Event) (h : Inv w) (ok : Orderly w e) : Inv (w.step e) := by
  cases e with
  | send | shellExits | finishReader => exact h.heap rfl rfl rfl (apply_marked w _ _)
  | resetStatus isPersistent => exact resetStatus_inv h isPersistent
  | handleOpen terminalId arrivals created =>
    exact openSession_inv (remap_inv h terminalId ok) terminalId arrivals created
  | handleClose terminalId => exact handleClose_inv h terminalId ok
  | snapshot isPersistent =>
    refine h.poll w.started _ rfl rfl rfl (fun _ => id) ?_ (by simp)
    rintro ⟨id, session⟩ hx
    simpa [Std.ExtTreeMap.mem_toList_iff_getElem?_eq_some] using hx
  | process n i arrivals waitFails resizeOk =>
    simp only [World.step]
    split
    · exact h
    · rename_i p hp
      split
      · exact h
      · rename_i x hx
        exact process_inv h hp hx arrivals waitFails resizeOk
  | skip n i =>
    simp only [World.step]
    split
    · exact h
    · rename_i p hp
      exact skip_inv h hp i
  | cleanup n =>
    simp only [World.step]
    split
    · exact h
    · rename_i p hp
      split
      · exact cleanup_inv h hp (ok p hp)
      · exact h

theorem inv_hitsRight (z : Compression) (w : World) (e : Event) (h : Inv w) :
    HitsRight z w e := by
  cases e with
  | process n i arrivals waitFails resizeOk =>
    intro p hp x hx d hd
    obtain ⟨chunk, -, rfl⟩ := List.mem_map.mp hd
    have under : (createTerminalDataResponse z x.1 chunk).terminalId = x.1 := by
      unfold createTerminalDataResponse
      split <;> rfl
    rw [under]
    exact h.registered n p hp x (List.mem_append_left _ (List.mem_of_getElem? hx))
  | cleanup n =>
    intro p hp finished
    have noted {x : Int × Nat} (hx : x ∈ p.closedTerminals) : w.sessions[x.1]? = some x.2 :=
      h.registered n p hp x (List.mem_append_right _ hx)
    constructor
    · intro r hr session hit
      obtain ⟨id, mem, found⟩ := closedResponses_hit p.isPersistent hr hit
      obtain ⟨x, hx, rfl⟩ := List.mem_map.mp mem
      rw [noted hx] at found
      cases found
      exact h.ended n p hp x hx
    · rintro x hx ⟨j, session⟩ hy rfl
      rw [Std.ExtTreeMap.mem_toList_iff_getElem?_eq_some] at hy
      simp only [World.step, Option.mem_def.mp hp, finished, if_true] at hy
      have removed := cleanUp_removes p.isPersistent (List.mem_map_of_mem hx) (noted hx)
        (h.ended n p hp x hx)
      rcases cleanUp_sessions p.isPersistent w (p.closedTerminals.map Prod.fst) j with
        same | ⟨-, gone⟩
      · rw [same] at hy
        cases h.injective j x.1 _ hy (noted hx)
        rw [same, hy] at removed
        cases removed
      · simp [gone] at hy
  | send | shellExits | finishReader | resetStatus | handleOpen | handleClose | snapshot | skip =>
    trivial

/-- **Close handling hits the right session** at every step of a run in which no
session that a poll has still to process or to clean up is closed, moved to
another id or removed by another poll. -/
theorem close_hits_right (z : Compression) (es : List Event)
    (ok : Along World.step Orderly {} es) : Along World.step (HitsRight z) {} es :=
  along_of_invariant step_inv (fun w e h _ => inv_hitsRight z w e h)
    (by constructor <;> simp) ok

/-- A shell ends, is announced and cleaned up, and its id is used again. -/
theorem close_hits_right_in_turn :
    Along World.step (HitsRight .stored) {}
      [.handleOpen 1 [] true, .send 0 [97], .shellExits 0 3, .snapshot false,
        .process 0 0 [] false true, .cleanup 0, .handleOpen 1 [] true] :=
  close_hits_right .stored _ (by decide +kernel)

/-- The id of an ended session is closed and opened again before the cleanup,
which then removes the new session. -/
theorem cleanup_hits_reused_id :
    ¬ ∀ (z : Compression) (es : List Event), Along World.step (HitsRight z) {} es := by
  intro h
  have right := h .stored [.handleOpen 1 [] true, .shellExits 0 3, .snapshot false,
    .process 0 0 [] false true, .handleClose 1, .handleOpen 1 [] true, .cleanup 0]
  revert right
  decide +kernel

end CamelliaRemote.Terminal
