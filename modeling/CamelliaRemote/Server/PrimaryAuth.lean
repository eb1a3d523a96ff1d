import CamelliaRemote.Server.Steps

namespace CamelliaRemote.Server

variable (p : Host)

/-- A primary authentication of the connection. -/
def Primary (id : Nat) (w : World) (e : Event) : Prop :=
  w.Takes e id fun env g c t => EstablishesPrimary p env g c t

/-- A right code finds the record of a primary authentication. -/
def CodeAfterPrimary (id : Nat) (w : World) (e : Event) : Prop :=
  ∀ env tfa l, e = .turn id env (.message (some (.auth2fa tfa))) → w.conns id = some l →
    l.conn.authorized = false →
    acceptsTotp p env (touchSession env w.globals l.conn) l.conn tfa = true →
    l.conn.connAuditPrimaryAuth ≠ .none

/-- The connection waits and has no record of a primary authentication. -/
structure Live.Unproven (l : Live) : Prop extends l.Outside where
  primary : l.conn.connAuditPrimaryAuth = .none

variable {p}

theorem unproven_turn {w : World} {id : Nat} {env : Env} {t : Turn} {l l' : Live}
    (found : w.conns id = some l) (unproven : l.Unproven)
    (ordered : CodeAfterPrimary p id w (.turn id env t))
    (after : (w.turn p id env t).conns id = some l') :
    Primary p id w (.turn id env t) ∨ l'.Unproven := by
  obtain ⟨v, again, core, -, inLoop, stays, ended⟩ := outside_turn found after unproven.toOutside
  have now (primary : EstablishesPrimary p env (t.globals env w.globals l.conn) l.conn t) :
      Primary p id w (.turn id env t) := ⟨env, t, l, rfl, found, unproven.inLoop, primary⟩
  cases ended with
  | closed out none => exact absurd none (stays rfl)
  | idle same shown =>
    have core : l'.conn.core = l.conn.core := core.symm.trans same
    exact .inr ⟨.of_core core unproven.unauthorized unproven.socket (inLoop rfl),
      (congrArg Core.primary core).trans unproven.primary⟩
  | waits lr m turn same primary shown =>
    rcases primary with kept | primary
    · have core : l'.conn.core = _ := core.symm.trans same
      exact .inr ⟨.of_core core unproven.unauthorized unproven.socket (inLoop rfl),
        (congrArg Core.primary core).trans (kept.trans unproven.primary)⟩
    · exact .inl (now primary)
  | authorized k lock again socket kept source granted primary second approved =>
    rcases primary with primary | code
    · exact .inl (now primary)
    · unfold VerifiesTotp at code
      split at code
      · exact absurd unproven.primary (ordered env _ l rfl found unproven.unauthorized code)
      · exact code.elim

/-- **Nobody is let in without a primary authentication**, in every run in which
each right code finds the record of one. -/
theorem authorized_after_primary (w : World) (o : Opening) (es : List Event)
    (ordered : Runs.Along (World.step p) (CodeAfterPrimary p w.next) (w.step p (.opened o)) es)
    (l : Live) (found : ((w.step p (.opened o)).run p es).conns w.next = some l)
    (authorized : l.conn.authorized = true) :
    Runs.Happened (World.step p) (Primary p w.next) (w.step p (.opened o)) es := by
  rcases happened_or (Q := Live.Unproven) ⟨outside_start o w.next, rfl⟩ unproven_turn ordered with
    happened | unproven
  · exact happened
  · simp [(unproven l found).unauthorized] at authorized

/-- A connection to a host whose password is `a`, and the login with it. -/
def passwordHost : World :=
  World.step sampleHost { globals.temporaryPassword := "a" }
    (.opened (sampleOpening (some sampleTotp)))

def samplePassword : Event := .turn 1 sampleEnv (sampleRequest none (utf8 "asaltchallenge"))

/-- The password and then the right code let a connection in. -/
theorem authorized_after_primary_password :
    ((passwordHost.run sampleHost [samplePassword]).conns 1).any (·.conn.authorized) = false ∧
      ((passwordHost.run sampleHost [samplePassword, sampleCode]).conns 1).any
        (·.conn.authorized) = true ∧
      Runs.Happened (World.step sampleHost) (Primary sampleHost 1) passwordHost
        [samplePassword, sampleCode] := by
  have open' : ((passwordHost.run sampleHost [samplePassword, sampleCode]).conns 1).any
      (·.conn.authorized) = true := by decide +kernel
  have proven : ((passwordHost.run sampleHost [samplePassword]).conns 1).any
      (·.conn.connAuditPrimaryAuth ≠ .none) = true := by decide +kernel
  obtain ⟨l, found, authorized⟩ := Option.any_eq_true _ _ |>.mp open'
  refine ⟨by decide +kernel, open', authorized_after_primary { globals.temporaryPassword := "a" }
    (sampleOpening (some sampleTotp)) [samplePassword, sampleCode] ⟨?_, ?_, trivial⟩ l found
    authorized⟩
  · intro env tfa l turn
    simp [samplePassword, sampleRequest] at turn
  · intro env tfa l turn found _ _
    have same : (passwordHost.run sampleHost [samplePassword]).conns 1 = some l := found
    rw [same] at proven
    simpa using proven

/-- A connection that has sent nothing but the right code is let in. -/
theorem code_alone_authorizes :
    let w := World.step sampleHost {} (.opened (sampleOpening (some sampleTotp)))
    ((w.run sampleHost [sampleCode]).conns 1).any (·.conn.authorized) = true ∧
      ¬ Runs.Happened (World.step sampleHost) (Primary sampleHost 1) w [sampleCode] := by
  refine ⟨by decide +kernel, ?_⟩
  rintro (⟨env, t, l, turn, -, -, primary⟩ | never)
  · cases turn
    exact primary
  · exact never

end CamelliaRemote.Server
