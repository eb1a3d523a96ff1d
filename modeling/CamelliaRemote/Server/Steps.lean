import CamelliaRemote.Server.Turns

namespace CamelliaRemote.Server

variable {p : Host}

/-- What the connection manager was shown by the connection. -/
def Live.shown (l : Live) : List LoginData := l.did.filterMap Effect.login?

/-- The connection has its place in the loop and is not let in. -/
structure Live.Outside (l : Live) : Prop where
  unauthorized : l.conn.authorized = false
  socket : l.conn.portForwardSocket = none
  inLoop : l.forwarding = false

theorem outside_start (o : Opening) (id : Nat) : Live.Outside { conn := o.start id } :=
  ⟨rfl, rfl, rfl⟩

theorem Live.Outside.of_core {l : Live} {k : Core} (core : l.conn.core = k)
    (unauthorized : k.authorized = false) (socket : k.portForwardSocket = none)
    (inLoop : l.forwarding = false) : l.Outside :=
  ⟨(congrArg Core.authorized core).trans unauthorized,
    (congrArg Core.portForwardSocket core).trans socket, inLoop⟩

theorem turn_conns_ne {w : World} {id id' : Nat} (env : Env) (t : Turn) (other : id' ≠ id) :
    (w.turn p id env t).conns id' = w.conns id' := by
  unfold World.turn World.settle
  split
  · rfl
  · simp only
    split_ifs <;> simp [other]

/-- What is left of a connection after its turn. -/
theorem turn_conns {w : World} {id : Nat} {env : Env} {t : Turn} {l l' : Live}
    (found : w.conns id = some l) (after : (w.turn p id env t).conns id = some l') :
    l'.conn = (l.turn p w.globals env t).1.conn ∧
      l'.did = l.did ++ (l.turn p w.globals env t).1.effects ∧
      (l'.forwarding = l.forwarding ∨
        (l.turn p w.globals env t).2 = false ∧ l'.conn.portForwardSocket.isSome = true) ∧
      ((l.turn p w.globals env t).2 = false → l'.conn.portForwardSocket.isSome = true) := by
  unfold World.turn World.settle at after
  simp only [found] at after
  split at after <;> rename_i again
  · simp only [Function.update_self, Option.some.injEq] at after
    subst after
    simp [again]
  · simp only [Bool.not_eq_true] at again
    split at after <;> rename_i socket
    · simp only [Function.update_self, Option.some.injEq] at after
      subst after
      exact ⟨rfl, rfl, .inr ⟨again, socket⟩, fun _ => socket⟩
    · simp at after

/-- The handling that the turn of a connection starts from. -/
def Turn.start (t : Turn) (g : Globals) (c : Connection) (env : Env) : Handling :=
  ⟨t.globals env g c, c, []⟩

/-- The end of a turn for a connection that is not let in and stays open. -/
theorem outside_turn {w : World} {id : Nat} {env : Env} {t : Turn} {l l' : Live}
    (found : w.conns id = some l) (after : (w.turn p id env t).conns id = some l')
    (outside : l.Outside) :
    ∃ v again, v.core = l'.conn.core ∧ l'.shown = l.shown ++ v.shown ∧
      (again = true → l'.forwarding = false) ∧
      (again = false → v.core.portForwardSocket ≠ none) ∧
      TurnEnd p env (t.start w.globals l.conn env) t v again := by
  obtain ⟨conn, did, loop, socket⟩ := turn_conns found after
  have turn : l.turn p w.globals env t = Handling.turn p env ⟨w.globals, l.conn, []⟩ t := by
    simp [Live.turn, outside.inLoop]
  rw [turn] at conn did loop socket
  have ended := turn_turnEnd p env (h := ⟨w.globals, l.conn, []⟩) t outside.unauthorized
    outside.socket
  refine ⟨_, _, congrArg Connection.core conn.symm, ?_, fun again => ?_, fun again => ?_, ended⟩
  · simp [Live.shown, did, Handling.view]
  · simpa [again, outside.inLoop] using loop
  · have open' := socket again
    rw [conn] at open'
    exact Option.isSome_iff_ne_none.mp open'

/-- The loop of the connection takes a turn with `P`, on the globals that the
handler of the turn finds. -/
def World.Takes (w : World) (e : Event) (id : Nat)
    (P : Env → Globals → Connection → Turn → Prop) : Prop :=
  ∃ env t l, e = .turn id env t ∧ w.conns id = some l ∧ l.forwarding = false ∧
    P env (t.globals env w.globals l.conn) l.conn t

/-- An invariant of every connection, kept by the turns of its own. -/
theorem step_conns {ok : World → Event → Prop} {J : Live → Prop}
    (opened : ∀ (o : Opening) (id : Nat), J { conn := o.start id })
    (turn : ∀ {w id env t l l'}, w.conns id = some l → J l → ok w (.turn id env t) →
      (w.turn p id env t).conns id = some l' → J l')
    (w : World) (e : Event) (holds : ∀ id l, w.conns id = some l → J l) (admitted : ok w e) :
    ∀ id l, (w.step p e).conns id = some l → J l := by
  intro id l after
  cases e with
  | opened o =>
    simp only [World.step] at after
    by_cases same : id = w.next
    · subst same
      simp only [Function.update_self, Option.some.injEq] at after
      exact after ▸ opened o w.next
    · rw [Function.update_of_ne same] at after
      exact holds id l after
  | turn id' env t =>
    simp only [World.step] at after
    by_cases same : id = id'
    · subst same
      cases found : w.conns id with
      | none => simp [World.turn, found] at after
      | some before => exact turn found (holds id before found) admitted after
    · rw [turn_conns_ne env t same] at after
      exact holds id l after
  | temporaryPassword | trustedDevices | switchSidesUuid => exact holds id l after

theorem next_step (w : World) (e : Event) : w.next ≤ (w.step p e).next := by
  cases e with
  | opened o => exact Nat.le_succ _
  | turn id env t =>
    unfold World.step World.turn World.settle
    simp only
    split
    · exact Nat.le_refl _
    · split_ifs <;> exact Nat.le_refl _
  | temporaryPassword | trustedDevices | switchSidesUuid => exact Nat.le_refl _

theorem next_run (w : World) (es : List Event) : w.next ≤ (w.run p es).next := by
  induction es generalizing w with
  | nil => exact Nat.le_refl _
  | cons e es ih => exact Nat.le_trans (next_step w e) (ih _)

/-- A step leaves an open connection alone, or is a turn of it. -/
theorem step_own {w : World} {e : Event} {id : Nat} {l' : Live} (old : id < w.next)
    (after : (w.step p e).conns id = some l') :
    w.conns id = some l' ∨ ∃ env t l, e = .turn id env t ∧ w.conns id = some l ∧
      (w.turn p id env t).conns id = some l' := by
  cases e with
  | opened o =>
    simp only [World.step, Function.update_of_ne (Nat.ne_of_lt old)] at after
    exact .inl after
  | turn id' env t =>
    simp only [World.step] at after
    by_cases same : id = id'
    · subst same
      rcases found : w.conns id with _ | before
      · simp [World.turn, found] at after
      · exact .inr ⟨env, t, before, rfl, rfl, after⟩
    · rw [turn_conns_ne env t same] at after
      exact .inl after
  | temporaryPassword | trustedDevices | switchSidesUuid => exact .inl after

/-- **What must have happened.** If a connection starts with `Q`, and each
of its turns keeps `Q` or is a `P`, then it has `Q` until a `P` has happened. -/
theorem happened_or {ok P : World → Event → Prop} {Q : Live → Prop} {w : World} {o : Opening}
    (start : Q { conn := o.start w.next })
    (turn : ∀ {w' env t l l'}, w'.conns w.next = some l → Q l → ok w' (.turn w.next env t) →
      (w'.turn p w.next env t).conns w.next = some l' → P w' (.turn w.next env t) ∨ Q l')
    {es : List Event} (along : Runs.Along (World.step p) ok (w.step p (.opened o)) es) :
    Runs.Happened (World.step p) P (w.step p (.opened o)) es ∨
      ∀ l, ((w.step p (.opened o)).run p es).conns w.next = some l → Q l := by
  induction es using List.reverseRecOn with
  | nil =>
    refine .inr fun l found => ?_
    simp only [Runs.run_nil, World.step, Function.update_self, Option.some.injEq] at found
    exact found ▸ start
  | append_singleton es e ih =>
    obtain ⟨before, admitted⟩ := Runs.along_snoc.mp along
    rw [Runs.happened_snoc]
    rcases ih before with happened | kept
    · exact .inl (.inl happened)
    · by_cases now : P ((w.step p (.opened o)).run p es) e
      · exact .inl (.inr now)
      refine .inr fun l' found => ?_
      have old : w.next < ((w.step p (.opened o)).run p es).next :=
        Nat.lt_of_succ_le (next_run (w.step p (.opened o)) es)
      rw [World.run, Runs.run_append] at found
      rcases step_own old found with same | ⟨env, t, l, rfl, live, after⟩
      · exact kept l' same
      · exact (turn live (kept l live) admitted after).resolve_left now

/-- The secret of a second factor. -/
def sampleTotp : Totp := ⟨"12345678901234567890".toUTF8.data.toList⟩

/-- A Linux host, with the code of the sample secret for the second half of the
first minute. -/
def sampleHost : Host where
  os := .linux
  flutter := true
  unixFileCopyPaste := false
  sha256 := id
  decodePermanentPasswordH1 := fun _ => none
  decodePresetPasswordH1 := fun _ => none
  localPasswordStorageUsable := fun _ _ => false
  presetPasswordStorageUsable := fun _ _ => false
  checkCurrent := fun _ time code => some (time / 30000 = 1 && code = "287082")
  outdate := fun _ _ => false
  isDirectIpAccess := fun _ => false
  getVersionNumber := fun _ => 1004000
  canEnableOverwriteDetection := fun _ => true
  str2color := fun _ => 0
  modifierKey := fun _ => none
  isModifier := fun _ => false
  controlKey := fun _ => none
  msg2clip := fun _ => none

def sampleOpening (require2fa : Option Totp) : Opening where
  ip := .v4 7
  salt := "salt"
  challenge := "challenge"
  isHeadlessAllowed := false
  require2fa
  keyboard := true
  clipboard := true
  audio := true
  file := true
  restart := true
  recording := true
  blockInput := true
  privacyMode := true

/-- A login request to the sample host. -/
def sampleRequest (union : Option LoginRequest.Union) (password : Bytes) : Turn :=
  .message (some (.loginRequest
    { username := "123456789", myId := "987654321", myName := "peer", password, union }))

def sampleEnv : Env := { ownId := "123456789" }

/-- The right code. -/
def sampleCode : Event := .turn 1 { time := 59000 } (.message (some (.auth2fa ⟨"287082", []⟩)))

end CamelliaRemote.Server
