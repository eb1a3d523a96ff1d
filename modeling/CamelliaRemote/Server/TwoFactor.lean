import CamelliaRemote.Server.Authorized

namespace CamelliaRemote.Server

variable (p : Host)

/-- A second factor of the connection. -/
def SecondFactor (id : Nat) (w : World) (e : Event) : Prop :=
  w.Takes e id fun env g c t => GivesSecondFactor p env g c t

/-- Some connection of the session sends a right code: before it is let in, or
later as a remote session. -/
def CodeVerified (key : SessionKey) (w : World) (e : Event) : Prop :=
  ∃ id, w.Takes e id fun env g c t => c.sessionKey = key ∧ VerifiesTotp p env g c t ∧
    (c.authorized = true → c.authedConnId = some .remote)

/-- The turn is a login with the temporary password: it writes the entry of the
session anew. -/
def LogsInTemporarily (key : SessionKey) (env : Env) (g : Globals) (c : Connection) : Turn → Prop
  | .message (some (.loginRequest lr)) => c.authorized = false ∧ opensSession p env c lr = true ∧
      logsInTemporarily p env g { c with lr } = true ∧ key = { c with lr }.sessionKey
  | _ => False

/-- Some connection of the session logs in with the temporary password. -/
def TemporaryLogin (key : SessionKey) (w : World) (e : Event) : Prop :=
  ∃ id, w.Takes e id fun env g c t => LogsInTemporarily p key env g c t

/-- The connection waits and still owes its second factor. -/
structure Live.Owes (l : Live) : Prop extends l.Outside where
  required : l.conn.require2fa ≠ none
  unswitched : l.conn.fromSwitch = false

variable {p}

theorem owes_turn {w : World} {id : Nat} {env : Env} {t : Turn} {l l' : Live}
    (found : w.conns id = some l) (owes : l.Owes)
    (after : (w.turn p id env t).conns id = some l') :
    SecondFactor p id w (.turn id env t) ∨ l'.Owes := by
  obtain ⟨v, again, core, -, inLoop, stays, ended⟩ := outside_turn found after owes.toOutside
  have now (second : GivesSecondFactor p env (t.globals env w.globals l.conn) l.conn t) :
      SecondFactor p id w (.turn id env t) := ⟨env, t, l, rfl, found, owes.inLoop, second⟩
  cases ended with
  | closed out none => exact absurd none (stays rfl)
  | idle same shown =>
    have core : l'.conn.core = l.conn.core := core.symm.trans same
    have required : l'.conn.require2fa = l.conn.require2fa := congrArg Core.require2fa core
    exact .inr ⟨.of_core core owes.unauthorized owes.socket (inLoop rfl),
      required ▸ owes.required, (congrArg Core.fromSwitch core).trans owes.unswitched⟩
  | waits lr m turn same primary shown =>
    have core : l'.conn.core = _ := core.symm.trans same
    cases clears : clearsSecondFactor p env (t.globals env w.globals l.conn) l.conn lr with
    | true =>
      simp only [clearsSecondFactor, Bool.and_eq_true] at clears
      refine .inl (now ?_)
      subst turn
      exact .inl clears.2
    | false =>
      have required : l'.conn.require2fa =
          if clearsSecondFactor p env (t.globals env w.globals l.conn) l.conn lr then none
          else l.conn.require2fa := congrArg Core.require2fa core
      rw [clears, if_neg Bool.false_ne_true] at required
      exact .inr ⟨.of_core core owes.unauthorized owes.socket (inLoop rfl),
        required ▸ owes.required, (congrArg Core.fromSwitch core).trans owes.unswitched⟩
  | authorized k lock again socket kept source granted primary second approved =>
    rcases second with second | absent | switched
    · exact .inl (now second)
    · exact absurd absent owes.required
    · exact absurd (owes.unswitched.symm.trans switched) Bool.false_ne_true

theorem authorized_after_second_factor (w : World) (o : Opening) (es : List Event)
    (required : o.require2fa ≠ none) (l : Live)
    (found : ((w.step p (.opened o)).run p es).conns w.next = some l)
    (authorized : l.conn.authorized = true) :
    Runs.Happened (World.step p) (SecondFactor p w.next) (w.step p (.opened o)) es := by
  have start : Live.Owes { conn := o.start w.next } := ⟨outside_start o w.next, required, rfl⟩
  rcases @happened_or p (fun _ _ => True) (SecondFactor p w.next) Live.Owes w o start
      (fun found owes _ after => owes_turn found owes after) es (Runs.along_true _ es) with
    happened | owes
  · exact happened
  · simp [(owes l found).unauthorized] at authorized

section Turns
variable {env : Env} {h : Handling} {key : SessionKey}

theorem tfa_of_view {h' : Handling} (view : h'.view = h.view)
    (on : h'.globals.tfa key = true) : h.globals.tfa key = true := by
  have globals : h'.globals = h.globals := congrArg View.globals view
  rwa [globals] at on

theorem sendLogonResponse_tfa
    (on : (sendLogonResponseAndKeepAlive p env h).1.globals.tfa key = true) :
    h.globals.tfa key = true := by
  cases authorized : h.conn.authorized with
  | true => simpa [sendLogonResponseAndKeepAlive, authorized] using on
  | false => exact (logon_cases p env h authorized).tfa env on

theorem logonAndStartCm_tfa {peerId name : String}
    (on : (logonAndStartCm p env h peerId name).1.globals.tfa key = true) :
    h.globals.tfa key = true := by
  unfold logonAndStartCm at on
  split at on <;> rename_i logon <;> refine @sendLogonResponse_tfa p env h key ?_
  · rw [logon]
    exact on
  · rw [logon]
    exact on

theorem LoginEnd.tfa {v : View} {again : Bool} (ended : LoginEnd p env h v again)
    (on : v.globals.tfa key = true) :
    h.globals.tfa key = true ∧
      ¬ (logsInTemporarily p env h.globals h.conn = true ∧ key = h.conn.sessionKey) := by
  cases ended with
  | closed _ _ _ sessions => exact sessions key on
  | silent _ _ _ _ _ _ sessions => exact sessions key on
  | asked _ _ _ _ _ sessions => exact sessions key on
  | verified h' m v d _ _ _ _ sessions logon => exact sessions key (logon.tfa env on)

theorem onLoginRequest_tfa {lr : LoginRequest} (unauthorized : h.conn.authorized = false)
    (on : (onLoginRequest p env h lr).1.globals.tfa key = true) :
    h.globals.tfa key = true ∧
      ¬ LogsInTemporarily p key env h.globals h.conn (.message (some (.loginRequest lr))) := by
  rcases onLoginRequest_cases p env lr unauthorized with
    ⟨k, -, -, closed, view, -⟩ | ⟨h', opens, view, ended⟩
  · have globals : (onLoginRequest p env h lr).1.globals = h.globals := congrArg View.globals view
    rw [globals] at on
    refine ⟨on, fun writes => ?_⟩
    rw [writes.2.1] at closed
    cases closed
  · have globals : h'.globals = h.globals := congrArg View.globals view
    have same : SameLogin h'.conn { h.conn with lr } := .of_request (congrArg View.core view)
    have kept := ended.tfa on
    rw [globals, logsInTemporarily_congr same, sessionKey_congr same.lr] at kept
    exact ⟨kept.1, fun writes => kept.2 writes.2.2⟩

theorem tfa_addTrustedDevice (tfa : Auth2fa) :
    (addTrustedDevice env h tfa).globals.tfa key = h.globals.tfa key := by
  unfold addTrustedDevice
  split <;> rfl

theorem passSecondFactor_tfa {failure : Login.FailureEntry}
    (on : (passSecondFactor env h failure).globals.tfa key = true) :
    h.globals.tfa key = true ∨ h.conn.sessionKey = key := by
  have entry : (passSecondFactor env h failure).globals.tfa key =
      if key = h.conn.sessionKey then true
      else (updateFailure env h failure true .tfa).globals.tfa key := tfa_setSession2fa
  rw [entry, tfa_updateFailure] at on
  split at on <;> rename_i same
  · exact .inr same.symm
  · exact .inl on

theorem onAuth2fa_tfa {tfa : Auth2fa} (on : (onAuth2fa p env h tfa).1.globals.tfa key = true) :
    h.globals.tfa key = true ∨
      h.conn.sessionKey = key ∧ acceptsTotp p env h.globals h.conn tfa = true := by
  have view := view_checkFailure env h .tfa
  have admits := checkFailure_admits env h .tfa
  unfold onAuth2fa at on
  split at on <;> rename_i failure checked
  · rw [checked] at view
    exact .inl (tfa_of_view view on)
  rw [checked] at admits
  cases checkFailure_admitted env checked
  split at on <;> rename_i code
  · exact .inl on
  · exact .inl (by rwa [← tfa_updateFailure env h failure false .tfa])
  have accepted : acceptsTotp p env h.globals h.conn tfa = true := by
    simpa [acceptsTotp, code] using admits
  have passed : (passSecondFactor env h failure).globals.tfa key = true := by
    simp only at on
    split at on <;> rename_i logon
    · exact logonAndStartCm_tfa (by rw [logon]; exact on)
    · rw [tfa_addTrustedDevice] at on
      exact logonAndStartCm_tfa (by rw [logon]; exact on)
  exact (passSecondFactor_tfa passed).imp_right fun same => ⟨same, accepted⟩

theorem onSwitchSidesResponse_tfa {s : SwitchSidesResponse}
    (on : (onSwitchSidesResponse p env h s).1.globals.tfa key = true) :
    h.globals.tfa key = true := by
  unfold onSwitchSidesResponse at on
  split at on
  · exact on
  split at on
  · exact on
  simp only at on
  split at on
  · exact on
  split at on
  · exact on
  have switched (lr : LoginRequest)
      (on : (switchSides p env (h.setGlobals (takeSwitchUuid env h.globals lr.myId)) lr).globals.tfa
        key = true) : h.globals.tfa key = true := by
    rwa [switchSides_globals] at on
  split at on <;> rename_i logon
  · exact switched _ (logonAndStartCm_tfa (by rw [logon]; exact on))
  · have on := tfa_of_view (view_tryStartCmIpc _) on
    exact switched _ (logonAndStartCm_tfa (by rw [logon]; exact on))

theorem onClose_tfa {lock : Bool} (on : (onClose p h lock).globals.tfa key = true) :
    h.globals.tfa key = true := by
  have globals : (onClose p h lock).globals = h.globals :=
    congrArg View.globals (view_onClose p h lock)
  rwa [globals] at on

theorem onCm_tfa {data : FromCm} (on : (onCm p env h data).1.globals.tfa key = true) :
    h.globals.tfa key = true := by
  cases data with
  | authorize => 
    exact @sendLogonResponse_tfa p env (h.setConn { h.conn with
      connAuditPrimaryAuth := .click, require2fa := none }) key on
  | close => exact tfa_checkRemoveSession (onClose_tfa on)
  | cmErr e =>
    simp only [onCm] at on
    split at on
    · exact onClose_tfa on
    · exact on
  | chatMessage text => exact on
  | switchPermission name enabled =>
    exact tfa_of_view (view_onSwitchPermission p env h name enabled) on
  | voiceCallResponse accepted => exact tfa_of_view (view_handleVoiceCall h accepted) on
  | closeVoiceCall => exact tfa_of_view (view_closeVoiceCall h) on
  | readJobEnded id => exact on

theorem LogsInTemporarily.unauthorized {g : Globals} {c : Connection} {t : Turn}
    (writes : LogsInTemporarily p key env g c t) : c.authorized = false := by
  unfold LogsInTemporarily at writes
  split at writes
  · exact writes.1
  · exact writes.elim

/-- What a message leaves of the entry: a right code writes it, and a login with
the temporary password takes it back. -/
theorem onMessage_tfa {msg : Message} (typed : h.conn.authorized = true → ∃ t, h.conn.Typed t)
    (on : (onMessage p env h msg).1.globals.tfa key = true) :
    h.globals.tfa key = true ∧ ¬ LogsInTemporarily p key env h.globals h.conn (.message msg) ∨
      h.conn.sessionKey = key ∧ VerifiesTotp p env h.globals h.conn (.message msg) ∧
        (h.conn.authorized = true → h.conn.authedConnId = some .remote) := by
  cases authorized : h.conn.authorized with
  | true =>
    obtain ⟨t, typed⟩ := typed authorized
    have silent : ¬ LogsInTemporarily p key env h.globals h.conn (.message msg) :=
      fun writes => by simp [writes.unauthorized] at authorized
    by_cases code : t = .remote ∧ ∃ tfa, msg = some (.auth2fa tfa)
    · obtain ⟨rfl, tfa, rfl⟩ := code
      rw [onMessage_code tfa typed authorized] at on
      rcases onAuth2fa_tfa on with before | ⟨same, accepted⟩
      · exact .inl ⟨before, silent⟩
      · exact .inr ⟨same, accepted, fun _ => typed.authed⟩
    · have kept := @onMessage_inScope p env t h msg typed authorized
        fun remote tfa is => code ⟨remote, tfa, is⟩
      exact .inl ⟨kept.sessions key on, silent⟩
  | false =>
    unfold onMessage at on
    split at on <;> rename_i closes
    · refine .inl ⟨onClose_tfa (tfa_checkRemoveSession on), ?_⟩
      rintro writes
      unfold LogsInTemporarily at writes
      split at writes <;> simp_all [isCloseReason]
    · rw [if_neg (by simp [authorized])] at on
      unfold dispatch at on
      split at on
      · exact .inl (onLoginRequest_tfa authorized on)
      · rcases onAuth2fa_tfa on with before | ⟨same, accepted⟩
        · exact .inl ⟨before, id⟩
        · exact .inr ⟨same, accepted, by simp⟩
      · exact .inl ⟨tfa_of_view (view_onTestDelay env h _) on, id⟩
      · exact .inl ⟨onSwitchSidesResponse_tfa on, id⟩
      · rename_i request _ _ _
        rw [if_neg (by simp [authorized])] at on
        refine .inl ⟨on, fun writes => ?_⟩
        unfold LogsInTemporarily at writes
        split at writes
        · rename_i lr is
          cases is
          exact request lr rfl
        · exact writes
      · exact .inl ⟨on, id⟩

theorem turn_tfa {t : Turn} (typed : h.conn.authorized = true → ∃ t, h.conn.Typed t)
    (on : (h.turn p env t).1.globals.tfa key = true) :
    h.globals.tfa key = true ∧
        ¬ LogsInTemporarily p key env (t.globals env h.globals h.conn) h.conn t ∨
      h.conn.sessionKey = key ∧ VerifiesTotp p env (t.globals env h.globals h.conn) h.conn t ∧
        (h.conn.authorized = true → h.conn.authedConnId = some .remote) := by
  cases t with
  | message msg =>
    have touched : (touchSession env h.globals h.conn).tfa key = h.globals.tfa key := by
      unfold touchSession
      split <;> rfl
    have after := onMessage_tfa (p := p) (h := h.setGlobals (touchSession env h.globals h.conn))
      typed on
    simp only [Handling.setGlobals_globals, touched] at after
    exact after
  | cm data => exact .inl ⟨onCm_tfa on, id⟩
  | testDelayTick =>
    simp only [Handling.turn] at on
    split at on <;> exact .inl ⟨on, id⟩
  | lost lock => exact .inl ⟨onClose_tfa on, id⟩
  | printerData path => exact .inl ⟨on, id⟩

theorem forward_tfa {t : Turn} (on : (h.forward p t).1.globals.tfa key = true) :
    h.globals.tfa key = true := by
  unfold Handling.forward endForward at on
  split at on
  · exact onClose_tfa (tfa_checkRemoveSession on)
  · exact onClose_tfa (tfa_checkRemoveSession on)
  · exact onClose_tfa (tfa_checkRemoveSession on)
  · exact on

end Turns

/-- The end of a turn does not touch the entries. -/
theorem settle_tfa {w : World} {id : Nat} {env : Env} {t : Turn} {l : Live} {key : SessionKey}
    (found : w.conns id = some l) :
    (w.turn p id env t).globals.tfa key = (l.turn p w.globals env t).1.globals.tfa key := by
  have leave (h : Handling) :
      (if l.forwarding then h.globals else leaveLoop env h).tfa key = h.globals.tfa key := by
    unfold leaveLoop
    split_ifs <;> rfl
  unfold World.turn World.settle
  simp only [found]
  split
  · rfl
  · split
    · exact leave _
    · exact leave _

/-- A step leaves an entry that says yes only if it said so before and nobody
logged in anew, or if a right code was sent. -/
theorem step_tfa {w : World} {e : Event} {key : SessionKey}
    (sound : ∀ id l, w.conns id = some l → l.Sound)
    (on : (w.step p e).globals.tfa key = true) :
    w.globals.tfa key = true ∧ ¬ TemporaryLogin p key w e ∨ CodeVerified p key w e := by
  cases e with
  | opened | temporaryPassword | trustedDevices | switchSidesUuid =>
    refine .inl ⟨on, ?_⟩
    rintro ⟨id, env, t, l, turn, -⟩
    cases turn
  | turn id env t =>
    have alone (quiet : ∀ l, w.conns id = some l → l.forwarding = false →
        ¬ LogsInTemporarily p key env (t.globals env w.globals l.conn) l.conn t) :
        ¬ TemporaryLogin p key w (.turn id env t) := by
      rintro ⟨id', env', t', l, turn, found, inLoop, writes⟩
      cases turn
      exact quiet l found inLoop writes
    cases found : w.conns id with
    | none =>
      refine .inl ⟨by simpa [World.step, World.turn, found] using on, alone ?_⟩
      simp [found]
    | some l =>
      have on : (l.turn p w.globals env t).1.globals.tfa key = true :=
        (settle_tfa found).symm.trans on
      unfold Live.turn at on
      split at on <;> rename_i inLoop
      · refine .inl ⟨forward_tfa on, alone ?_⟩
        rintro l' same out
        cases found.symm.trans same
        simp [out] at inLoop
      · rcases turn_tfa (sound id l found).typed on with ⟨before, quiet⟩ | code
        · refine .inl ⟨before, alone ?_⟩
          rintro l' same -
          cases found.symm.trans same
          exact quiet
        · exact .inr ⟨id, env, t, l, rfl, found, by simpa using inLoop, code⟩

/-- **An entry says that the second factor was given** only if a right code was
sent for it after the last login with the temporary password. -/
theorem session_tfa_since_code (es : List Event) (key : SessionKey)
    (on : (World.run p {} es).globals.tfa key = true) :
    Runs.Since (World.step p) (CodeVerified p key) (TemporaryLogin p key) {} es := by
  induction es using List.reverseRecOn with
  | nil => simp [Globals.tfa] at on
  | append_singleton es e ih =>
    rw [World.run, Runs.run_append] at on
    rw [Runs.since_snoc]
    rcases step_tfa (run_sound es) on with ⟨before, none⟩ | code
    · exact .inr ⟨ih before, none⟩
    · exact .inl code

/-- **The second factor is never skipped.** A connection opened with one is let in
only after a second factor of its own, and an entry of `SESSIONS` stands for one
only after a right code for its key since the last temporary-password login. -/
theorem second_factor_never_skipped (p : Host) :
    (∀ (w : World) (o : Opening) (es : List Event) (l : Live), o.require2fa ≠ none →
      ((w.step p (.opened o)).run p es).conns w.next = some l → l.conn.authorized = true →
      Runs.Happened (World.step p) (SecondFactor p w.next) (w.step p (.opened o)) es) ∧
    ∀ (es : List Event) (key : SessionKey), (World.run p {} es).globals.tfa key = true →
      Runs.Since (World.step p) (CodeVerified p key) (TemporaryLogin p key) {} es :=
  ⟨fun w o es l required found authorized =>
      authorized_after_second_factor w o es required l found authorized,
    session_tfa_since_code⟩

theorem second_factor_never_skipped_code :
    Runs.Happened (World.step sampleHost) (SecondFactor sampleHost 1)
      (World.step sampleHost {} (.opened (sampleOpening (some sampleTotp)))) [sampleCode] ∧
    Runs.Since (World.step sampleHost) (CodeVerified sampleHost ⟨"", "", 0⟩)
      (TemporaryLogin sampleHost ⟨"", "", 0⟩) {}
      [.opened (sampleOpening (some sampleTotp)), sampleCode] := by
  have live : ((World.run sampleHost {} [.opened (sampleOpening (some sampleTotp)),
      sampleCode]).conns 1).any (·.conn.authorized) = true := by
    decide +kernel
  simp only [Option.any_eq_true] at live
  obtain ⟨l, found, authorized⟩ := live
  exact ⟨(second_factor_never_skipped sampleHost).1 {} (sampleOpening (some sampleTotp))
      [sampleCode] l (by simp [sampleOpening]) found authorized,
    (second_factor_never_skipped sampleHost).2 _ _ (by decide +kernel)⟩

end CamelliaRemote.Server
