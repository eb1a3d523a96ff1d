import CamelliaRemote.Server.Authorized

namespace CamelliaRemote.Server

variable (p : Host)

/-- A silent request asks for the type that the local user was last shown. -/
def silentAsShown (w : World) : Event → Bool
  | .turn id env (.message (some (.loginRequest lr))) =>
    (w.conns id).all fun l =>
      l.conn.authorized || !staysSilent p env (touchSession env w.globals l.conn) l.conn lr ||
        l.shown.getLast?.all fun d => requestedType lr = d.connType
  | _ => true

/-- An `Authorize` that lets a connection in grants the type last shown. -/
def grantsShown (w : World) : Event → Bool
  | .turn id env (.cm .authorize) =>
    (w.conns id).all fun l => l.conn.authorized ||
      ((w.turn p id env (.cm .authorize)).conns id).all fun l' =>
        !l'.conn.authorized || l.shown.getLast?.all fun d =>
          l'.conn.authedConnId = some d.connType
  | _ => true

/-- A connection that waits has the scope of its request, which is the one shown. -/
structure Live.Agreed (l : Live) : Prop extends l.Sound where
  scope : l.conn.authorized = false → l.conn.core.Scoped
  shown : l.conn.authorized = false → ∀ d, l.shown.getLast? = some d →
    d.connType = requestedType l.conn.lr

theorem agreed_start (o : Opening) (id : Nat) : Live.Agreed { conn := o.start id } where
  toSound := sound_start o id
  scope _ := ⟨rfl, rfl, rfl, by simp [Connection.core, Opening.start, requestedType]⟩
  shown _ _ found := by simp [Live.shown] at found

theorem Core.Scoped.of_primary {k : Core} (scope : k.Scoped) (m : ConnAuditPrimaryAuth)
    (require2fa : Option Totp) : { k with primary := m, require2fa }.Scoped :=
  ⟨scope.fileTransfer, scope.viewCamera, scope.terminal, scope.portForward⟩

variable {p}

theorem agreed_turn {w : World} {id : Nat} {env : Env} {turn : Turn} {l l' : Live}
    (found : w.conns id = some l) (agreed : l.Agreed)
    (silent : silentAsShown p w (.turn id env turn) = true)
    (after : (w.turn p id env turn).conns id = some l') : l'.Agreed := by
  have sound := sound_turn found agreed.toSound after
  cases authorized : l.conn.authorized with
  | true =>
    obtain ⟨t, typed⟩ := agreed.typed authorized
    obtain ⟨-, still⟩ := authorized_turn found after typed authorized
    exact ⟨sound, by simp [still], by simp [still]⟩
  | false =>
    have scope := agreed.scope authorized
    obtain ⟨v, again, core, shown, inLoop, stays, ended⟩ :=
      outside_turn found after (agreed.outside authorized).1
    cases ended with
    | closed out none => exact absurd none (stays rfl)
    | idle same none =>
      have core : l'.conn.core = l.conn.core := core.symm.trans same
      have lr : l'.conn.lr = l.conn.lr := congrArg Core.lr core
      rw [none] at shown
      refine ⟨sound, fun _ => core ▸ scope, fun _ d last => ?_⟩
      rw [lr]
      exact agreed.shown authorized d (by simpa [shown, Turn.start, Handling.view] using last)
    | waits lr m turn same primary tells =>
      have core : l'.conn.core = _ := core.symm.trans same
      have lr' : l'.conn.lr = lr := congrArg Core.lr core
      refine ⟨sound, fun _ => core ▸ (Core.request_scoped _ lr _).of_primary m _,
        fun _ d last => ?_⟩
      rw [lr']
      rcases tells with ⟨quiet, none⟩ | ⟨d', type, new⟩
      · rw [none] at shown
        have before : l.shown.getLast? = some d := by
          simpa [shown, Turn.start, Handling.view] using last
        subst turn
        have type : requestedType lr = d.connType := by
          have quiet : staysSilent p env (touchSession env w.globals l.conn) l.conn lr = true :=
            quiet
          simpa [silentAsShown, found, authorized, quiet, before] using silent
        exact type.symm
      · rw [new] at shown
        have same : d' = d := by simpa [shown, Turn.start, Handling.view] using last
        exact same ▸ type
    | authorized k lock again socket kept source granted primary second approved =>
      have core : l'.conn.core = k.granted lock := core.symm.trans granted
      have inside : l'.conn.authorized = true := congrArg Core.authorized core
      exact ⟨sound, by simp [inside], by simp [inside]⟩

theorem agreed_grants {w : World} {id : Nat} {env : Env} {l l' : Live} {d : LoginData}
    (found : w.conns id = some l) (agreed : l.Agreed) (outside : l.conn.authorized = false)
    (after : (w.turn p id env (.cm .authorize)).conns id = some l')
    (inside : l'.conn.authorized = true) (last : l.shown.getLast? = some d) :
    l'.conn.authedConnId = some d.connType := by
  obtain ⟨v, again, core, -, -, stays, ended⟩ :=
    outside_turn found after (agreed.outside outside).1
  have core' (same : v.core.authorized = l.conn.authorized) : False := by
    rw [core] at same
    simp [Connection.core, outside, inside] at same
  cases ended with
  | closed out none => exact absurd none (stays rfl)
  | idle same shown => exact (core' (congrArg Core.authorized same)).elim
  | waits lr m turn => cases turn
  | authorized k lock again socket kept source granted primary second approved =>
    have scope : k.Scoped := by
      rw [approved rfl]
      exact (agreed.scope outside).of_primary _ _
    have lr : k.lr = l.conn.lr := by
      rw [approved rfl]
      rfl
    have type : l'.conn.authedConnId = some k.connected.authConnType :=
      congrArg Core.authedConnId (core.symm.trans granted)
    rw [type, scope.authConnType socket, lr, ← agreed.shown outside d last]

theorem agreed_grantsShown {w : World} (agreed : ∀ id l, w.conns id = some l → l.Agreed)
    (e : Event) : grantsShown p w e = true := by
  unfold grantsShown
  split
  · simp only [Option.all_eq_true, Bool.or_eq_true, Bool.not_eq_true', decide_eq_true_eq]
    intro l found
    cases outside : l.conn.authorized with
    | true => exact .inl rfl
    | false =>
      refine .inr fun l' after => ?_
      cases inside : l'.conn.authorized with
      | false => exact .inl rfl
      | true =>
        exact .inr fun d last => agreed_grants found (agreed _ l found) outside after inside last
  · rfl

/-- **What the local user approves is what is granted**, in every run in which
each silent request asks for the type last shown. -/
theorem approved_is_granted (es : List Event)
    (silent : Runs.Along (World.step p) (silentAsShown p · · = true) {} es) :
    Runs.Along (World.step p) (grantsShown p · · = true) {} es := by
  have keep := @step_conns p (silentAsShown p · · = true) Live.Agreed agreed_start agreed_turn
  refine Runs.along_of_invariant keep (fun w e agreed _ => agreed_grantsShown agreed e) ?_ silent
  intro id l found
  simp at found

/-- The peer asks twice without a password, and both are shown. -/
theorem approved_is_granted_asked :
    Runs.Along (World.step sampleHost) (grantsShown sampleHost · · = true) {}
      [.opened (sampleOpening none), .turn 1 sampleEnv (sampleRequest none []),
        .turn 1 sampleEnv (sampleRequest (some .viewCamera) []),
        .turn 1 sampleEnv (.cm .authorize)] :=
  approved_is_granted _ (by decide +kernel)

/-- After seven wrong passwords for a remote session, each shown, the peer sends one
more request, for a file transfer: it is refused without a word to the local user,
whose click then grants the file transfer. -/
theorem refused_request_changes_scope :
    ¬ Runs.Along (World.step sampleHost) (grantsShown sampleHost · · = true) {}
      (.opened (sampleOpening none) ::
        List.replicate 7 (Event.turn 1 sampleEnv (sampleRequest none [1])) ++
        [Event.turn 1 sampleEnv (sampleRequest (some (.fileTransfer "" false)) [1]),
          .turn 1 sampleEnv (.cm .authorize)]) := by
  decide +kernel

end CamelliaRemote.Server
