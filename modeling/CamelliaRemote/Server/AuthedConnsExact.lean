import CamelliaRemote.Server.AuthedConns

namespace CamelliaRemote.Server

variable {p : Host} {env : Env}

/-- The connections that the list is about. -/
structure World.Listed (w : World) : Prop where
  ids : ∀ id l, w.conns id = some l → l.conn.id = id ∧ id < w.next
  nodup : (w.globals.authedConns.map (·.connId)).Nodup
  listed : ∀ id t, (∃ a ∈ w.globals.authedConns, a.connId = id ∧ a.connType = t) ↔
    ∃ l, w.conns id = some l ∧ l.conn.authorized = true ∧ l.conn.authedConnId = some t

namespace World.Listed

variable {w w' : World} {id : Nat} {l l' : Live}

theorem start : World.Listed {} where
  ids := by
    intro id l found
    simp at found
  nodup := List.nodup_nil
  listed := by simp

/-- A connection that is not authorized is not in the list. -/
theorem absent (listed : w.Listed) (found : w.conns id = some l)
    (outside : l.conn.authorized = false) : ∀ a ∈ w.globals.authedConns, a.connId ≠ id := by
  intro a mem same
  obtain ⟨l', found', inside, -⟩ := (listed.listed id a.connType).mp ⟨a, mem, same, rfl⟩
  rw [found, Option.some.injEq] at found'
  subst found'
  simp [outside] at inside

theorem opened (listed : w.Listed) (o : Opening) : (w.step p (.opened o)).Listed := by
  have new : w.conns w.next = none := by
    cases found : w.conns w.next with
    | none => rfl
    | some l => exact absurd (listed.ids _ l found).2 (Nat.lt_irrefl _)
  refine ⟨?_, listed.nodup, ?_⟩
  · intro id l found
    simp only [World.step] at found ⊢
    by_cases same : id = w.next
    · subst same
      simp only [Function.update_self, Option.some.injEq] at found
      subst found
      exact ⟨rfl, Nat.lt_succ_self _⟩
    · rw [Function.update_of_ne same] at found
      exact ⟨(listed.ids id l found).1, Nat.lt_succ_of_lt (listed.ids id l found).2⟩
  · intro id t
    refine (listed.listed id t).trans ?_
    simp only [World.step]
    by_cases same : id = w.next
    · subst same
      simp [new, Opening.start]
    · rw [Function.update_of_ne same]

/-- A connection goes on as it stands. -/
theorem stays (listed : w.Listed) (found : w.conns id = some l)
    (conns : w'.conns = Function.update w.conns id (some l')) (next : w'.next = w.next)
    (same : w'.globals.authedConns = w.globals.authedConns)
    (standing : l'.conn.core.standing = l.conn.core.standing) : w'.Listed := by
  have sameId : l'.conn.id = l.conn.id := congrArg Prod.fst standing
  have authorized : l'.conn.authorized = l.conn.authorized := congrArg (·.2.1) standing
  have type : l'.conn.authedConnId = l.conn.authedConnId := congrArg (·.2.2) standing
  refine ⟨?_, by rw [same]; exact listed.nodup, ?_⟩
  · intro id' k its
    rw [conns] at its
    rw [next]
    by_cases own : id' = id
    · subst own
      simp only [Function.update_self, Option.some.injEq] at its
      subst its
      exact ⟨sameId.trans (listed.ids id' l found).1, (listed.ids id' l found).2⟩
    · rw [Function.update_of_ne own] at its
      exact listed.ids id' k its
  · intro id' t
    rw [same, listed.listed id' t, conns]
    by_cases own : id' = id
    · subst own
      simp [found, authorized, type]
    · rw [Function.update_of_ne own]

/-- A connection is authorized. -/
theorem enters (listed : w.Listed) (found : w.conns id = some l)
    (outside : l.conn.authorized = false) {t : AuthConnType} {key : SessionKey}
    (conns : w'.conns = Function.update w.conns id (some l')) (next : w'.next = w.next)
    (entry : w'.globals.authedConns = w.globals.authedConns ++ [⟨id, t, key⟩])
    (sameId : l'.conn.id = id) (inside : l'.conn.authorized = true)
    (type : l'.conn.authedConnId = some t) : w'.Listed := by
  have absent := listed.absent found outside
  refine ⟨?_, ?_, ?_⟩
  · intro id' k its
    rw [conns] at its
    rw [next]
    by_cases own : id' = id
    · subst own
      simp only [Function.update_self, Option.some.injEq] at its
      subst its
      exact ⟨sameId, (listed.ids id' l found).2⟩
    · rw [Function.update_of_ne own] at its
      exact listed.ids id' k its
  · rw [entry, List.map_append, List.nodup_append]
    refine ⟨listed.nodup, by simp, ?_⟩
    intro a mem b its
    obtain ⟨c, isListed, rfl⟩ := List.mem_map.mp mem
    simp only [List.map_cons, List.map_nil, List.mem_singleton] at its
    subst its
    exact absent c isListed
  · intro id' t'
    rw [entry, conns]
    by_cases own : id' = id
    · subst own
      simp only [List.mem_append, List.mem_singleton, Function.update_self, Option.some.injEq]
      constructor
      · rintro ⟨a, mem | rfl, its, rfl⟩
        · exact absurd its (absent a mem)
        · exact ⟨l', rfl, inside, type⟩
      · rintro ⟨k, rfl, -, type'⟩
        rw [type, Option.some.injEq] at type'
        exact ⟨_, .inr rfl, rfl, type'⟩
    · rw [Function.update_of_ne own, ← listed.listed id' t']
      simp only [List.mem_append, List.mem_singleton]
      constructor
      · rintro ⟨a, mem | rfl, its, type'⟩
        · exact ⟨a, mem, its, type'⟩
        · exact absurd its.symm own
      · rintro ⟨a, mem, its, type'⟩
        exact ⟨a, .inl mem, its, type'⟩

/-- A connection is dropped, and with it its entry. -/
theorem drops (listed : w.Listed) (conns : w'.conns = Function.update w.conns id none)
    (next : w'.next = w.next)
    (entries : w'.globals.authedConns = w.globals.authedConns.filter (·.connId ≠ id)) :
    w'.Listed := by
  refine ⟨?_, ?_, ?_⟩
  · intro id' k its
    rw [conns] at its
    rw [next]
    by_cases own : id' = id
    · simp [own] at its
    · rw [Function.update_of_ne own] at its
      exact listed.ids id' k its
  · rw [entries]
    exact listed.nodup.sublist ((List.filter_sublist).map _)
  · intro id' t
    rw [entries, conns]
    by_cases own : id' = id
    · subst own
      simp only [List.mem_filter, decide_not, Bool.not_eq_eq_eq_not, Bool.not_true,
        decide_eq_false_iff_not, Function.update_self, reduceCtorEq, false_and, exists_false,
        iff_false]
      rintro ⟨a, ⟨-, other⟩, its, -⟩
      exact other its
    · rw [Function.update_of_ne own, ← listed.listed id' t]
      simp only [List.mem_filter, decide_not, Bool.not_eq_eq_eq_not, Bool.not_true,
        decide_eq_false_iff_not]
      constructor
      · rintro ⟨a, ⟨mem, -⟩, its, type⟩
        exact ⟨a, mem, its, type⟩
      · rintro ⟨a, mem, its, type⟩
        exact ⟨a, ⟨mem, its ▸ own⟩, its, type⟩

end World.Listed

/-- After its turn a connection is open as its handling left it, or dropped. -/
theorem turn_settles {w : World} {id : Nat} {t : Turn} {l : Live} (found : w.conns id = some l) :
    let h := (l.turn p w.globals env t).1
    let w' := w.turn p id env t
    w'.next = w.next ∧ w'.globals.sessions = h.globals.sessions ∧
      w'.globals.instants = h.globals.instants ∧
      ((∃ l', w'.conns = Function.update w.conns id (some l') ∧ l'.conn = h.conn ∧
          w'.globals.authedConns = h.globals.authedConns) ∨
        w'.conns = Function.update w.conns id none ∧
          w'.globals.authedConns = h.globals.authedConns.filter (·.connId ≠ id)) := by
  have leave (h : Handling) :
      (if l.forwarding then h.globals else leaveLoop env h).authedConns = h.globals.authedConns ∧
        (if l.forwarding then h.globals else leaveLoop env h).sessions = h.globals.sessions ∧
        (if l.forwarding then h.globals else leaveLoop env h).instants = h.globals.instants := by
    unfold leaveLoop
    split_ifs <;> exact ⟨rfl, rfl, rfl⟩
  obtain ⟨conns, sessions, instants⟩ := leave (l.turn p w.globals env t).1
  unfold World.turn World.settle
  simp only [found]
  split
  · exact ⟨rfl, rfl, rfl, .inl ⟨_, rfl, rfl, rfl⟩⟩
  split
  · exact ⟨rfl, sessions, instants, .inl ⟨_, rfl, rfl, conns⟩⟩
  · exact ⟨rfl, sessions, instants, .inr ⟨rfl, by rw [← conns]; rfl⟩⟩

theorem live_turn_passes {l : Live} (g : Globals) (t : Turn)
    (authorized : l.conn.authorized = true) :
    View.Passes env.now (Handling.mk g l.conn []).view (l.turn p g env t).1.view := by
  unfold Live.turn
  split
  · exact forward_passes (h := ⟨g, l.conn, []⟩) t
  · exact turn_passes (h := ⟨g, l.conn, []⟩) t authorized

theorem live_turn_goes {l : Live} (g : Globals) (t : Turn) (outside : l.Outside) :
    View.Goes env (Handling.mk g l.conn []).view (l.turn p g env t).1.view := by
  unfold Live.turn
  rw [if_neg (by simp [outside.inLoop])]
  exact turn_goes (h := ⟨g, l.conn, []⟩) t outside.unauthorized

/-- A connection that waits outside keeps its standing. -/
theorem waits_standing {w : World} {id : Nat} {t : Turn} {l l' : Live}
    (found : w.conns id = some l) (after : (w.turn p id env t).conns id = some l')
    (outside : l.Outside) (out : l'.conn.authorized = false) :
    l'.conn.core.standing = l.conn.core.standing := by
  obtain ⟨v, again, core, -, -, stays, ended⟩ := outside_turn found after outside
  rw [← core]
  cases ended with
  | closed _ socket => exact absurd socket (stays rfl)
  | idle same _ => rw [same]; rfl
  | waits lr m _ same _ _ => rw [same]; rfl
  | authorized k lock _ _ _ _ granted _ _ _ =>
    have inside : l'.conn.authorized = true :=
      (congrArg Core.authorized core.symm).trans (congrArg Core.authorized granted)
    simp [out] at inside

theorem listed_turn {w : World} {id : Nat} {t : Turn} (listed : w.Listed)
    (sound : ∀ id l, w.conns id = some l → l.Sound) : (w.turn p id env t).Listed := by
  cases found : w.conns id with
  | none => simpa only [World.turn, found] using listed
  | some l =>
    have own : l.conn.id = id := (listed.ids id l found).1
    obtain ⟨next, -, -, settled⟩ := @turn_settles p env w id t l found
    cases authorized : l.conn.authorized with
    | true =>
      have passes := @live_turn_passes p env l w.globals t authorized
      obtain ⟨l', conns, conn, entries⟩ | ⟨conns, entries⟩ := settled
      · refine listed.stays found conns next (entries.trans passes.globals.authedConns) ?_
        rw [conn]
        exact passes.standing
      · exact listed.drops conns next
          (entries.trans (congrArg (List.filter _) passes.globals.authedConns))
    | false =>
      obtain ⟨outside, -⟩ := (sound id l found).outside authorized
      have goes := @live_turn_goes p env l w.globals t outside
      cases goes with
      | out out globals =>
        obtain ⟨l', conns, conn, entries⟩ | ⟨conns, entries⟩ := settled
        · have after : (w.turn p id env t).conns id = some l' := by rw [conns]; simp
          have waits := waits_standing found after outside (by rw [conn]; exact out)
          exact listed.stays found conns next (entries.trans globals.authedConns) waits
        · exact listed.drops conns next
            (entries.trans (congrArg (List.filter _) globals.authedConns))
      | entered g key type sameId inside its before added sessions instants =>
        have added : (l.turn p w.globals env t).1.globals.authedConns =
            w.globals.authedConns ++ [⟨id, type, key⟩] := by
          rw [← own]
          exact added.trans (congrArg (· ++ _) before.authedConns)
        obtain ⟨l', conns, conn, entries⟩ | ⟨conns, entries⟩ := settled
        · refine listed.enters found authorized conns next (entries.trans added) ?_ ?_ ?_
          · rw [conn]
            exact sameId.trans own
          · rw [conn]
            exact inside
          · rw [conn]
            exact its
        · refine listed.drops conns next (entries.trans ?_)
          rw [added, List.filter_append]
          simp

theorem run_listed (es : List Event) : (World.run p {} es).Listed := by
  induction es using List.reverseRecOn with
  | nil => exact World.Listed.start
  | append_singleton es e ih =>
    have sound := @run_sound p es
    rw [World.run, Runs.run_append]
    show ((World.run p {} es).step p e).Listed
    generalize World.run p {} es = w at ih sound
    cases e with
    | opened o => exact ih.opened o
    | turn id env t => exact listed_turn ih sound
    | temporaryPassword | trustedDevices | switchSidesUuid => exact ⟨ih.ids, ih.nodup, ih.listed⟩

/-- **`AUTHED_CONNS` is exact.** In every run the list has an entry for each open
authorized connection, with the type it was authorized with, and no other. -/
theorem authed_conns_exact (p : Host) (es : List Event) :
    ((World.run p {} es).globals.authedConns.map (·.connId)).Nodup ∧
      (∀ id t, (∃ a ∈ (World.run p {} es).globals.authedConns, a.connId = id ∧ a.connType = t) ↔
        ∃ l, (World.run p {} es).conns id = some l ∧ l.conn.authorized = true ∧
          l.conn.authedConnId = some t) ∧
      ∀ id l, (World.run p {} es).conns id = some l → l.conn.authorized = true →
        ∃ a ∈ (World.run p {} es).globals.authedConns,
          a.connId = id ∧ l.conn.authedConnId = some a.connType := by
  refine ⟨(run_listed es).nodup, (run_listed es).listed, ?_⟩
  intro id l found authorized
  obtain ⟨t, typed⟩ := (run_sound es id l found).typed authorized
  obtain ⟨a, mem, own, type⟩ :=
    ((run_listed es).listed id t).mpr ⟨l, found, authorized, typed.authed⟩
  exact ⟨a, mem, own, type ▸ typed.authed⟩

/-- A turn of any connection passes over the sessions that it is spared of. -/
theorem turn_resumable {w : World} {id : Nat} {t : Turn} {l : Live} {key : SessionKey}
    (listed : w.Listed) (sound : l.Sound) (found : w.conns id = some l)
    (spared : w.globals.Spared id key) (live : w.globals.Resumable env.now key) :
    (w.turn p id env t).globals.Resumable env.now key := by
  have own : l.conn.id = id := (listed.ids id l found).1
  obtain ⟨-, sessions, instants, -⟩ := @turn_settles p env w id t l found
  have settles (after : (l.turn p w.globals env t).1.globals.Resumable env.now key) :
      (w.turn p id env t).globals.Resumable env.now key := by
    obtain ⟨s, its, live⟩ := after
    refine ⟨s, by rw [sessions]; exact its, ?_⟩
    simpa only [Session.live, instants] using live
  have spared : w.globals.Spared l.conn.id key := own ▸ spared
  cases authorized : l.conn.authorized with
  | true =>
    have passes := @live_turn_passes p env l w.globals t authorized
    exact settles (passes.globals.sessions key spared live)
  | false =>
    obtain ⟨outside, -⟩ := sound.outside authorized
    have goes := @live_turn_goes p env l w.globals t outside
    cases goes with
    | out _ globals => exact settles (globals.sessions key spared live)
    | entered g _ _ _ _ _ before _ sessions instants =>
      obtain ⟨s, its, live⟩ := before.sessions key spared live
      refine settles ⟨s, sessions ▸ its, ?_⟩
      unfold Session.live at *
      exact instants ▸ live

/-- **The session of a remote connection is kept.** Whatever a connection does that is not
a remote one itself, even if it is closed for good, the live session of another connection
that is listed as a remote one is still there, and live. -/
theorem session_kept (p : Host) (es : List Event) (env : Env) (id : Nat) (t : Turn) (l : Live)
    (a : AuthedConn) (s : Session)
    (found : (World.run p {} es).conns id = some l)
    (other : l.conn.authorized = true → l.conn.authedConnId ≠ some .remote)
    (entry : a ∈ (World.run p {} es).globals.authedConns)
    (remote : a.connType = .remote) (different : a.connId ≠ id)
    (session : (World.run p {} es).globals.sessions a.sessionKey = some s)
    (live : s.live env.now (World.run p {} es).globals = true) :
    ∃ s', ((World.run p {} es).step p (.turn id env t)).globals.sessions a.sessionKey = some s' ∧
      s'.live env.now ((World.run p {} es).step p (.turn id env t)).globals = true := by
  have listed := @run_listed p es
  have sound := @run_sound p es id l found
  refine turn_resumable listed sound found ⟨?_, a, entry, different, rfl, remote⟩
    ⟨s, session, live⟩
  intro b its same isRemote
  obtain ⟨l', found', inside, type⟩ := (listed.listed id b.connType).mp ⟨b, its, same, rfl⟩
  rw [found, Option.some.injEq] at found'
  subst found'
  exact other inside (by rw [type, isRemote])

/-- A remote session with a second factor, and a file transfer of the same peer. -/
def fileTransferBeside : List Event :=
  [.opened (sampleOpening (some sampleTotp)), sampleCode, .opened (sampleOpening none),
    .turn 2 sampleEnv (.message (some (.loginRequest
      { username := "123456789", union := some (.fileTransfer "" false) }))),
    .turn 2 sampleEnv (.cm .authorize)]

/-- The peer closes the file transfer for good. -/
theorem session_kept_fileTransfer :
    ((World.run sampleHost {} fileTransferBeside).step sampleHost
      (.turn 2 {} (.message (some (.misc (some (.closeReason ""))))))).globals.tfa ⟨"", "", 0⟩ =
        true ∧
    ∃ s', ((World.run sampleHost {} fileTransferBeside).step sampleHost
      (.turn 2 {} (.message (some (.misc (some (.closeReason ""))))))).globals.sessions
        ⟨"", "", 0⟩ = some s' := by
  refine ⟨by decide +kernel, ?_⟩
  have open' : ((World.run sampleHost {} fileTransferBeside).conns 2).any
      (·.conn.authedConnId = some .fileTransfer) = true := by decide +kernel
  have listed : (World.run sampleHost {} fileTransferBeside).globals.authedConns.any (fun a =>
      a.connId = 1 ∧ a.connType = .remote ∧ a.sessionKey = ⟨"", "", 0⟩) = true := by
    decide +kernel
  have session : ((World.run sampleHost {} fileTransferBeside).globals.sessions ⟨"", "", 0⟩).any
      (·.live 0 (World.run sampleHost {} fileTransferBeside).globals) = true := by decide +kernel
  simp only [Option.any_eq_true, decide_eq_true_eq] at open' session
  obtain ⟨l, found, type⟩ := open'
  obtain ⟨s, its, live⟩ := session
  simp only [List.any_eq_true, decide_eq_true_eq] at listed
  obtain ⟨a, entry, connId, remote, key⟩ := listed
  obtain ⟨s', kept, -⟩ := session_kept sampleHost fileTransferBeside {} 2
    (.message (some (.misc (some (.closeReason ""))))) l a s found (by simp [type]) entry remote
    (by simp [connId]) (by rw [key]; exact its) live
  exact ⟨s', by rw [← key]; exact kept⟩

end CamelliaRemote.Server
