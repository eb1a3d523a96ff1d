import CamelliaRemote.Server.InScope
import CamelliaRemote.Server.Steps

namespace CamelliaRemote.Server

variable {p : Host} {env : Env} {t : AuthConnType} {h : Handling}

/-- What a turn leaves of the scope of a connection. -/
structure Core.Keeps (t : AuthConnType) (k k' : Core) : Prop where
  authorized : k'.authorized = k.authorized
  authedConnId : k'.authedConnId = k.authedConnId
  scope : t ≠ .remote → k'.fileTransfer = k.fileTransfer ∧ k'.viewCamera = k.viewCamera ∧
    k'.lockAfterSessionEnd = k.lockAfterSessionEnd

theorem Core.Keeps.of_eq {k k' : Core} (same : k' = k) : Core.Keeps t k k' := by
  subst same
  exact ⟨rfl, rfl, fun _ => ⟨rfl, rfl, rfl⟩⟩

theorem InScope.keeps {h' : Handling} (kept : InScope t h h') :
    Core.Keeps t h.view.core h'.view.core where
  authorized := kept.authorized
  authedConnId := kept.authedConnId
  scope := fun type =>
    ⟨(kept.scope type).1, (kept.scope type).2, (kept.options type).lock⟩

theorem onAuth2fa_keeps (tfa : Auth2fa) (authorized : h.conn.authorized = true) :
    Core.Keeps t h.view.core (onAuth2fa p env h tfa).1.view.core := by
  have view := view_checkFailure env h .tfa
  unfold onAuth2fa
  split <;> rename_i failure checked
  · rw [checked] at view
    exact .of_eq (congrArg View.core view)
  cases checkFailure_admitted env checked
  split
  · exact .of_eq rfl
  · exact .of_eq rfl
  · simp only
    rw [logonAndStartCm_authorized _ _ (by exact authorized)]
    have core (h' : Handling) (same : h'.view.core = { h.view.core with require2fa := none }) :
        Core.Keeps t h.view.core (addTrustedDevice env h' tfa).view.core := by
      rw [view_addTrustedDevice, same]
      exact ⟨rfl, rfl, fun _ => ⟨rfl, rfl, rfl⟩⟩
    exact core _ rfl

/-- A remote session may send its second factor late. -/
theorem onMessage_code (tfa : Auth2fa) (typed : h.conn.Typed .remote)
    (authorized : h.conn.authorized = true) :
    onMessage p env h (some (.auth2fa tfa)) = onAuth2fa p env h tfa := by
  have passes : authorizedScopeViolation p h.conn (some (.auth2fa tfa)) = none := by
    simp [authorizedScopeViolation, Connection.authedConnType, typed.authed,
      authorizedMessageScopeViolation, isConnectionHousekeepingMessage, isNoopCompatMessage,
      isScopedMessage]
  simp [onMessage, isCloseReason, isLoginRequest, authorized, passes, dispatch]

theorem onMessage_keeps (msg : Message) (typed : h.conn.Typed t)
    (authorized : h.conn.authorized = true) :
    Core.Keeps t h.view.core (onMessage p env h msg).1.view.core := by
  by_cases code : t = .remote ∧ ∃ tfa, msg = some (.auth2fa tfa)
  · obtain ⟨rfl, tfa, rfl⟩ := code
    rw [onMessage_code tfa typed authorized]
    exact onAuth2fa_keeps tfa authorized
  · exact (onMessage_inScope msg typed authorized
      fun remote tfa is => code ⟨remote, tfa, is⟩).keeps

theorem onClose_keeps {k : Core} {h' : Handling} (core : h'.view.core = k) (lock : Bool) :
    Core.Keeps t k (onClose p h' lock).view.core := by
  subst core
  rw [view_onClose]
  exact ⟨rfl, rfl, fun _ => ⟨rfl, rfl, rfl⟩⟩

theorem onCm_keeps (data : FromCm) (authorized : h.conn.authorized = true) :
    Core.Keeps t h.view.core (onCm p env h data).1.view.core := by
  cases data with
  | authorize =>
    have done : (onCm p env h .authorize).1 =
        h.setConn { h.conn with connAuditPrimaryAuth := .click, require2fa := none } := by
      simp [onCm, onAuthorize, sendLogonResponseAndKeepAlive, authorized]
    rw [done]
    exact ⟨rfl, rfl, fun _ => ⟨rfl, rfl, rfl⟩⟩
  | close =>
    refine onClose_keeps ?_ true
    exact (view_sendCloseReasonNoRetry _ _).trans rfl
  | cmErr e =>
    simp only [onCm]
    split
    · exact onClose_keeps rfl false
    · exact .of_eq rfl
  | chatMessage text => exact .of_eq rfl
  | switchPermission name enabled =>
    exact .of_eq (congrArg View.core (view_onSwitchPermission p env h name enabled))
  | voiceCallResponse accepted =>
    exact .of_eq (congrArg View.core (view_handleVoiceCall h accepted))
  | closeVoiceCall => exact .of_eq (congrArg View.core (view_closeVoiceCall h))
  | readJobEnded id => exact .of_eq rfl

theorem turn_keeps (turn : Turn) (typed : h.conn.Typed t) (authorized : h.conn.authorized = true) :
    Core.Keeps t h.view.core (h.turn p env turn).1.view.core := by
  cases turn with
  | message msg =>
    exact onMessage_keeps (h := h.setGlobals (touchSession env h.globals h.conn)) msg typed
      authorized
  | cm data => exact onCm_keeps data authorized
  | testDelayTick =>
    simp only [Handling.turn]
    split <;> exact .of_eq rfl
  | lost lock => exact onClose_keeps rfl lock
  | printerData path => exact .of_eq rfl

theorem forward_keeps (turn : Turn) : Core.Keeps t h.view.core (h.forward p turn).1.view.core := by
  unfold Handling.forward endForward
  split
  · exact onClose_keeps rfl false
  · exact onClose_keeps rfl false
  · exact onClose_keeps rfl false
  · exact .of_eq rfl

theorem Connection.Typed.of_keeps {c c' : Connection} (typed : c.Typed t)
    (kept : Core.Keeps t c.core c'.core) : c'.Typed t where
  authed := kept.authedConnId.trans typed.authed
  viewCamera := by
    intro type
    have scope := kept.scope (by simp [type])
    exact ⟨scope.2.1.trans (typed.viewCamera type).1, scope.1.trans (typed.viewCamera type).2⟩
  lock := fun type => (kept.scope type).2.2.trans (typed.lock type)

theorem Core.authConnType_viewCamera {k : Core} (type : k.authConnType = .viewCamera) :
    k.viewCamera = true ∧ k.fileTransfer = none := by
  unfold Core.authConnType at type
  split at type
  · cases type
  split at type
  · cases type
  split at type
  · rename_i files _ camera
    exact ⟨camera, by simpa using files⟩
  split at type <;> cases type

/-- A connection is typed from the moment it is let in. -/
theorem typed_of_granted {c : Connection} {k : Core} {lock : Bool} (core : c.core = k.granted lock)
    (unlocked : k.lockAfterSessionEnd = false)
    (source : lock → k.lockAfterSessionEnd ∨ k.connected.authConnType = .remote) :
    c.Typed k.connected.authConnType where
  authed := congrArg Core.authedConnId core
  viewCamera := by
    intro type
    obtain ⟨camera, files⟩ := Core.authConnType_viewCamera type
    exact ⟨(congrArg Core.viewCamera core).trans camera,
      (congrArg Core.fileTransfer core).trans files⟩
  lock := by
    intro type
    have same : c.options.lockAfterSessionEnd = lock := congrArg Core.lockAfterSessionEnd core
    rw [same]
    cases lock with
    | false => rfl
    | true => simpa [unlocked, type] using source rfl

/-- A connection waits outside, with nothing granted, or has a type. -/
structure Live.Sound (l : Live) : Prop where
  outside : l.conn.authorized = false → l.Outside ∧ l.conn.options.lockAfterSessionEnd = false
  typed : l.conn.authorized = true → ∃ t, l.conn.Typed t

theorem sound_start (o : Opening) (id : Nat) : Live.Sound { conn := o.start id } :=
  ⟨fun _ => ⟨outside_start o id, rfl⟩, nofun⟩

theorem live_turn_keeps {l : Live} (g : Globals) (turn : Turn) (typed : l.conn.Typed t)
    (authorized : l.conn.authorized = true) :
    Core.Keeps t l.conn.core (l.turn p g env turn).1.conn.core := by
  unfold Live.turn
  split
  · exact forward_keeps (h := ⟨g, l.conn, []⟩) turn
  · exact turn_keeps (h := ⟨g, l.conn, []⟩) turn typed authorized

/-- A connection that is authorized keeps its core over a turn of the world. -/
theorem authorized_turn {w : World} {id : Nat} {turn : Turn} {l l' : Live}
    (found : w.conns id = some l) (after : (w.turn p id env turn).conns id = some l')
    (typed : l.conn.Typed t) (authorized : l.conn.authorized = true) :
    Core.Keeps t l.conn.core l'.conn.core ∧ l'.conn.authorized = true := by
  have kept := @live_turn_keeps p env _ _ w.globals turn typed authorized
  rw [← (turn_conns found after).1] at kept
  exact ⟨kept, kept.authorized.trans authorized⟩

theorem sound_turn {w : World} {id : Nat} {turn : Turn} {l l' : Live}
    (found : w.conns id = some l) (sound : l.Sound)
    (after : (w.turn p id env turn).conns id = some l') : l'.Sound := by
  cases authorized : l.conn.authorized with
  | true =>
    obtain ⟨t, typed⟩ := sound.typed authorized
    obtain ⟨kept, still⟩ := authorized_turn found after typed authorized
    exact ⟨by simp [still], fun _ => ⟨t, typed.of_keeps kept⟩⟩
  | false =>
    obtain ⟨outside, unlocked⟩ := sound.outside authorized
    obtain ⟨v, again, core, -, inLoop, stays, ended⟩ := outside_turn found after outside
    cases ended with
    | closed out none => exact absurd none (stays rfl)
    | idle same shown =>
      have core : l'.conn.core = l.conn.core := core.symm.trans same
      have waits := Live.Outside.of_core core outside.unauthorized outside.socket (inLoop rfl)
      exact ⟨fun _ => ⟨waits, (congrArg Core.lockAfterSessionEnd core).trans unlocked⟩,
        by simp [waits.unauthorized]⟩
    | waits lr m turn same primary shown =>
      have core : l'.conn.core = _ := core.symm.trans same
      have waits := Live.Outside.of_core core outside.unauthorized outside.socket (inLoop rfl)
      exact ⟨fun _ => ⟨waits, (congrArg Core.lockAfterSessionEnd core).trans unlocked⟩,
        by simp [waits.unauthorized]⟩
    | authorized k lock again socket kept source granted primary second approved =>
      have core : l'.conn.core = k.granted lock := core.symm.trans granted
      have inside : l'.conn.authorized = true := congrArg Core.authorized core
      exact ⟨by simp [inside], fun _ => ⟨_, typed_of_granted core (kept.trans unlocked) source⟩⟩

/-- **Every connection of every run** waits outside or has the scope of its type. -/
theorem run_sound (es : List Event) :
    ∀ id l, (World.run p {} es).conns id = some l → l.Sound := by
  have keep := @step_conns p (fun _ _ => True) Live.Sound sound_start
    fun found sound _ after => sound_turn found sound after
  have start : ∀ id l, World.conns {} id = some l → l.Sound := by
    intro id l found
    simp at found
  exact Runs.invariant keep start (Runs.along_true _ es)

end CamelliaRemote.Server
