import CamelliaRemote.Server.Steps

namespace CamelliaRemote.Server

variable (p : Host)

/-- `release_pressed_modifiers`: the keys of the release events. -/
def releasePressedModifiers (c : Connection) : List Key :=
  if p.os.mobile then [] else c.pressedModifiers

/-- What the drop of a connection releases. -/
def World.released (w : World) : Event → List Key
  | .turn id env t =>
    match w.conns id with
    | none => []
    | some l =>
      match l.turn p w.globals env t with
      | (h, again) =>
        if again || h.conn.portForwardSocket.isSome then [] else releasePressedModifiers p h.conn
  | _ => []

/-- The key event that an effect gives to the input thread, if it is about `key`. -/
def Effect.keyEvent? (key : Key) : Effect → Option KeyEvent
  | .input (.key ke _) => if pressedModifier p ke = some key then some ke else none
  | _ => none

/-- The last event about `key` that the connection handled. -/
def Live.lastEvent (l : Live) (key : Key) : Option KeyEvent :=
  (l.did.filterMap (Effect.keyEvent? p key)).getLast?

def Live.Holds (l : Live) (key : Key) : Prop := ∃ ke, l.lastEvent p key = some ke ∧ ke.down = true

/-- The step drops a connection that alone holds the key. -/
structure World.Leaves (w : World) (e : Event) (id : Nat) (l : Live) (key : Key) : Prop where
  here : w.conns id = some l
  gone : (w.step p e).conns id = none
  down : l.Holds p key
  alone : ∀ id' l', id' ≠ id → w.conns id' = some l' → ¬ l'.Holds p key

/-- No key stays held that the dropped connection alone held. -/
def LeavesNoModifier (w : World) (e : Event) : Prop :=
  ∀ id l key, w.Leaves p e id l key → key ∈ w.released p e

/-- The host is not Linux, and the key went down with a press event. -/
def LeavesPressed (w : World) (e : Event) : Prop :=
  ∀ id l key, w.Leaves p e id l key →
    p.os ≠ .linux ∧ ∃ ke, l.lastEvent p key = some ke ∧ ke.press = true

/-- The key events of a viewer, and the ways it leaves. -/
inductive KeyTurn : Turn → Prop where
  | key (ke : KeyEvent) : KeyTurn (.message (some (.keyEvent ke)))
  | closeReason (reason : String) : KeyTurn (.message (some (.misc (some (.closeReason reason)))))
  | close : KeyTurn (.cm .close)
  | cmErr (e : String) : KeyTurn (.cm (.cmErr e))
  | lost (lock : Bool) : KeyTurn (.lost lock)

def KeyStep (e : Event) : Prop := ∃ id env t, e = .turn id env t ∧ KeyTurn t

variable {p : Host} {env : Env} {c : Connection} {h : Handling}

theorem isPress_modifier {ke : KeyEvent} {key : Key} (about : pressedModifier p ke = some key)
    (desktop : p.os.mobile = false) :
    isPress p ke = true ↔ p.os ≠ .linux ∧ ke.press = true := by
  cases os : p.os <;> simp_all [isPress, Os.mobile]

/-- No key event is handled. -/
structure Quiet (p : Host) (c : Connection) (h : Handling) : Prop where
  pressed : h.conn.pressedModifiers = c.pressedModifiers
  unheard : ∀ key, h.effects.filterMap (Effect.keyEvent? p key) = []

theorem Quiet.start (g : Globals) (c : Connection) : Quiet p c ⟨g, c, []⟩ := ⟨rfl, fun _ => rfl⟩

theorem Quiet.setGlobals (quiet : Quiet p c h) (g : Globals) : Quiet p c (h.setGlobals g) :=
  ⟨quiet.pressed, quiet.unheard⟩

theorem Quiet.setConn (quiet : Quiet p c h) {c' : Connection}
    (same : c'.pressedModifiers = h.conn.pressedModifiers) : Quiet p c (h.setConn c') :=
  ⟨same.trans quiet.pressed, quiet.unheard⟩

theorem Quiet.emit (quiet : Quiet p c h) {e : Effect}
    (silent : ∀ key, Effect.keyEvent? p key e = none) : Quiet p c (h.emit e) where
  pressed := quiet.pressed
  unheard key := by
    rw [Handling.emit_effects, List.filterMap_append, quiet.unheard key]
    simp [silent key]

theorem Quiet.onClose (quiet : Quiet p c h) (lock : Bool) : Quiet p c (onClose p h lock) := by
  unfold Server.onClose
  split
  · exact quiet
  simp only
  refine Quiet.setConn (Quiet.emit ?_ (e := .cm _) fun _ => rfl) rfl
  have closed : Quiet p c (h.setConn { h.conn with closed := true }) := quiet.setConn rfl
  have silenced := Quiet.emit closed (e := .setVoiceCallInputDevice false) fun _ => rfl
  split
  · exact silenced.emit fun _ => rfl
  · exact silenced

theorem Quiet.sendCloseReason (quiet : Quiet p c h) (reason : String) :
    Quiet p c (sendCloseReasonNoRetry h reason) :=
  (quiet.emit (e := .send _) fun _ => rfl).setGlobals _

theorem Quiet.scopeViolation (quiet : Quiet p c h) (message : String) :
    Quiet p c (handleAuthorizedScopeViolation p env h message).1 := by
  have reported : Quiet p c (reportScopeViolation env h message) := by
    unfold reportScopeViolation
    simp only
    split
    · exact quiet
    split
    · refine Quiet.emit ?_ fun _ => rfl
      exact quiet.setConn rfl
    · exact quiet.setConn rfl
  unfold handleAuthorizedScopeViolation
  simp only
  split
  · exact (reported.sendCloseReason _).onClose true
  · exact reported

theorem Quiet.forward (quiet : Quiet p c h) (t : Turn) : Quiet p c (h.forward p t).1 := by
  unfold Handling.forward
  split <;> first | exact (quiet.onClose false).setGlobals _ | exact quiet

/-- What a turn does to the noted modifiers and to the handled key events. A
mobile host gives its key events to the main service. A connection that handles
a key event goes on. -/
inductive TurnKeys (p : Host) (c : Connection) (h : Handling) (again : Bool) : Prop where
  | quiet (quiet : Quiet p c h)
  | mobile (mobile : p.os.mobile = true)
      (unheard : ∀ key, h.effects.filterMap (Effect.keyEvent? p key) = [])
  | handled (ke : KeyEvent) (desktop : p.os.mobile = false)
      (socket : h.conn.portForwardSocket = none) (again : again = true)
      (pressed : ∀ key, key ∈ h.conn.pressedModifiers ↔
        if pressedModifier p ke = some key then isPress p ke = true
        else key ∈ c.pressedModifiers)
      (heard : ∀ key, h.effects.filterMap (Effect.keyEvent? p key) =
        if pressedModifier p ke = some key then [ke] else [])

theorem mem_recordModifier (ke : KeyEvent) (key : Key) :
    key ∈ (recordModifier p h ke).conn.pressedModifiers ↔
      if pressedModifier p ke = some key then isPress p ke = true
      else key ∈ h.conn.pressedModifiers := by
  unfold recordModifier
  cases about : pressedModifier p ke with
  | none => simp
  | some key' =>
    by_cases same : key' = key
    · subst same
      by_cases press : isPress p ke = true <;> simp [press]
    · have other : key ≠ key' := Ne.symm same
      by_cases press : isPress p ke = true <;> simp [press, same, other]

theorem recordModifier_effects (ke : KeyEvent) : (recordModifier p h ke).effects = h.effects := by
  unfold recordModifier
  split <;> rfl

theorem recordModifier_socket (ke : KeyEvent) :
    (recordModifier p h ke).conn.portForwardSocket = h.conn.portForwardSocket := by
  unfold recordModifier
  split <;> rfl

theorem Quiet.onMobileKeyEvent (quiet : Quiet p c h) (ke : KeyEvent)
    (mobile : p.os.mobile = true) (again : Bool) :
    TurnKeys p c (onKeyEvent p env h ke) again := by
  unfold onKeyEvent
  split
  · exact .quiet quiet
  split
  · refine .mobile mobile fun key => ?_
    rw [Handling.emit_effects, recordModifier_effects, List.filterMap_append, quiet.unheard key]
    rfl
  · cases os : p.os <;> simp_all [Os.mobile]

theorem Quiet.onDesktopKeyEvent (quiet : Quiet p c h) (ke : KeyEvent)
    (desktop : p.os.mobile = false) (socket : h.conn.portForwardSocket = none) :
    TurnKeys p c (onKeyEvent p env h ke) true := by
  have here : p.os ≠ .ios ∧ p.os ≠ .android := by
    constructor <;> intro os <;> simp [os, Os.mobile] at desktop
  unfold onKeyEvent
  simp only [here.1, here.2, decide_false, Bool.false_or, if_false]
  split
  · exact .quiet quiet
  split
  · refine .handled ke desktop ?_ rfl (fun key => ?_) fun key => ?_
    · exact (recordModifier_socket ke).trans socket
    · have noted := mem_recordModifier (p := p) (h := h) ke key
      rw [quiet.pressed] at noted
      exact noted
    · have heard : Effect.keyEvent? p key (.input (.key ke (inputPress p ke))) =
          if pressedModifier p ke = some key then some ke else none := rfl
      simp only [updateAutoDisconnectTimer, Handling.setConn_effects, Handling.emit_effects,
        recordModifier_effects, List.filterMap_append, quiet.unheard key, List.nil_append,
        List.filterMap_cons, List.filterMap_nil, heard]
      by_cases about : pressedModifier p ke = some key <;> simp [about]
  · exact .quiet (quiet.setConn rfl)

theorem Quiet.onKeyMessage (quiet : Quiet p c h) (ke : KeyEvent) :
    TurnKeys p c (onMessage p env h (some (.keyEvent ke))).1
      (onMessage p env h (some (.keyEvent ke))).2 := by
  have dispatched : TurnKeys p c (dispatch p env h (some (.keyEvent ke))).1
      (dispatch p env h (some (.keyEvent ke))).2 := by
    simp only [dispatch]
    split <;> rename_i authorized
    · simp only [Bool.and_eq_true, Option.isNone_iff_eq_none] at authorized
      cases os : p.os.mobile with
      | false => exact quiet.onDesktopKeyEvent ke os authorized.2
      | true => exact quiet.onMobileKeyEvent ke os true
    · exact .quiet quiet
  simp only [onMessage, isCloseReason, isLoginRequest, Bool.false_eq_true, if_false]
  split
  · split
    · exact .quiet (quiet.scopeViolation _)
    · exact dispatched
  · exact dispatched

theorem TurnKeys.message {again : Bool} (turned : TurnKeys p c h again) :
    TurnKeys p c h (again && !(h.conn.portForwardSocket.isSome && h.conn.authorized &&
      h.conn.lastTestDelay.isNone)) := by
  cases turned with
  | quiet quiet => exact .quiet quiet
  | mobile mobile unheard => exact .mobile mobile unheard
  | handled ke desktop socket again pressed heard =>
    exact .handled ke desktop socket (by simp [again, socket]) pressed heard

/-- What a turn of a viewer handles. -/
theorem turn_turnKeys {l : Live} {g : Globals} {t : Turn} (turn : KeyTurn t) :
    TurnKeys p l.conn (l.turn p g env t).1 (l.turn p g env t).2 := by
  have start := Quiet.start (p := p) g l.conn
  unfold Live.turn
  split
  · exact .quiet (start.forward t)
  cases turn with
  | key ke => exact ((start.setGlobals _).onKeyMessage ke).message
  | closeReason reason => exact .quiet (((start.setGlobals _).onClose true).setGlobals _)
  | close =>
    have told : Quiet p l.conn (({ globals := g, conn := l.conn } : Handling).setConn
        { l.conn with chatUnanswered := false, fileTransferred := false }) := start.setConn rfl
    exact .quiet ((told.sendCloseReason "").onClose true)
  | cmErr e =>
    simp only [Handling.turn, onCm]
    split
    · exact .quiet (start.onClose false)
    · exact .quiet start
  | lost lock => exact .quiet (start.onClose lock)

/-- The noted modifiers are those whose last event was taken for a press. -/
structure Live.Noted (p : Host) (l : Live) : Prop where
  desktop : p.os.mobile = false → ∀ key, key ∈ l.conn.pressedModifiers ↔
    ∃ ke, l.lastEvent p key = some ke ∧ isPress p ke = true
  mobile : p.os.mobile = true → ∀ key, l.lastEvent p key = none

/-- Nothing was pressed yet. -/
structure Live.Idle (p : Host) (l : Live) : Prop where
  pressed : l.conn.pressedModifiers = []
  unheard : ∀ key, l.did.filterMap (Effect.keyEvent? p key) = []

theorem Live.Idle.noted {l : Live} (idle : l.Idle p) : l.Noted p where
  desktop _ key := by simp [idle.pressed, Live.lastEvent, idle.unheard key]
  mobile _ key := by simp [Live.lastEvent, idle.unheard key]

theorem lastEvent_append {l l' : Live} {key : Key} {effects : List Effect}
    (did : l'.did = l.did ++ effects) :
    l'.lastEvent p key =
      (effects.filterMap (Effect.keyEvent? p key)).getLast?.or (l.lastEvent p key) := by
  rw [Live.lastEvent, did, List.filterMap_append, List.getLast?_append, Live.lastEvent]

theorem Live.Noted.turn {l l' : Live} {again : Bool} (noted : l.Noted p)
    (turned : TurnKeys p l.conn h again) (conn : l'.conn = h.conn)
    (did : l'.did = l.did ++ h.effects) : l'.Noted p := by
  cases turned with
  | quiet quiet =>
    have same (key : Key) : l'.lastEvent p key = l.lastEvent p key := by
      rw [lastEvent_append did, quiet.unheard key]
      rfl
    constructor
    · intro desktop key
      rw [conn, quiet.pressed, same]
      exact noted.desktop desktop key
    · intro mobile key
      rw [same]
      exact noted.mobile mobile key
  | mobile mobile unheard =>
    constructor
    · intro desktop
      simp [desktop] at mobile
    · intro _ key
      rw [lastEvent_append did, unheard key]
      exact noted.mobile mobile key
  | handled ke desktop _ _ pressed heard =>
    constructor
    · intro _ key
      rw [conn, pressed key, lastEvent_append did, heard key]
      by_cases about : pressedModifier p ke = some key
      · simp [about]
      · simpa [about] using noted.desktop desktop key
    · intro mobile
      simp [desktop] at mobile

theorem step_noted (w : World) (e : Event) (noted : ∀ id l, w.conns id = some l → l.Noted p)
    (step : KeyStep e) : ∀ id l, (w.step p e).conns id = some l → l.Noted p := by
  refine @step_conns p (fun _ e => KeyStep e) _ (fun o id => ?_) ?_ w e noted step
  · exact Live.Idle.noted ⟨rfl, fun _ => rfl⟩
  · rintro w id env t l l' found before ⟨_, _, _, eq, turn⟩ after
    cases eq
    obtain ⟨conn, did, -, -⟩ := turn_conns found after
    exact before.turn (turn_turnKeys turn) conn did

/-- The turn that drops a connection. -/
theorem turn_gone {w : World} {id : Nat} {t : Turn} {l : Live} (found : w.conns id = some l)
    (gone : (w.turn p id env t).conns id = none) :
    (l.turn p w.globals env t).2 = false ∧
      (l.turn p w.globals env t).1.conn.portForwardSocket = none := by
  unfold World.turn World.settle at gone
  simp only [found] at gone
  split at gone
  · simp at gone
  split at gone
  · simp at gone
  · simp_all

theorem Leaves.here_turn {w : World} {id id' : Nat} {t : Turn} {l : Live} {key : Key}
    (leaves : w.Leaves p (.turn id' env t) id l key) : id' = id := by
  by_contra other
  have same := turn_conns_ne (p := p) (w := w) env t (Ne.symm other)
  rw [leaves.here] at same
  exact nomatch same.symm.trans leaves.gone

/-- A viewer that leaves releases what was noted for it. -/
theorem Leaves.mem_released {w : World} {e : Event} {id : Nat} {l : Live} {key : Key}
    (leaves : w.Leaves p e id l key) (step : KeyStep e) (desktop : p.os.mobile = false) :
    key ∈ w.released p e ↔ key ∈ l.conn.pressedModifiers := by
  obtain ⟨_, env, t, rfl, turn⟩ := step
  cases Leaves.here_turn leaves
  obtain ⟨ends, socket⟩ := turn_gone leaves.here leaves.gone
  have turned : TurnKeys p l.conn (l.turn p w.globals env t).1 (l.turn p w.globals env t).2 :=
    turn_turnKeys turn
  simp only [World.released, leaves.here, ends, socket, releasePressedModifiers, desktop,
    Option.isSome_none, Bool.or_self, Bool.false_eq_true, if_false]
  cases turned with
  | quiet quiet => rw [quiet.pressed]
  | mobile mobile _ => simp [desktop] at mobile
  | handled _ _ _ again => simp [ends] at again

theorem Leaves.desktop {w : World} {e : Event} {id : Nat} {l : Live} {key : Key}
    (leaves : w.Leaves p e id l key) (noted : l.Noted p) : p.os.mobile = false := by
  cases os : p.os.mobile with
  | false => rfl
  | true =>
    obtain ⟨ke, last, -⟩ := leaves.down
    rw [noted.mobile os key] at last
    exact nomatch last

/-- Every handled event is about its modifier. -/
theorem lastEvent_about {l : Live} {key : Key} {ke : KeyEvent}
    (last : l.lastEvent p key = some ke) : pressedModifier p ke = some key := by
  obtain ⟨e, -, found⟩ := List.mem_filterMap.mp (List.mem_of_getLast? last)
  unfold Effect.keyEvent? at found
  split at found
  · split at found
    · cases found
      assumption
    · exact nomatch found
  · exact nomatch found

theorem Leaves.released_iff {w : World} {e : Event} {id : Nat} {l : Live} {key : Key}
    (leaves : w.Leaves p e id l key) (step : KeyStep e) (noted : l.Noted p) :
    key ∈ w.released p e ↔
      p.os ≠ .linux ∧ ∃ ke, l.lastEvent p key = some ke ∧ ke.press = true := by
  have desktop := Leaves.desktop leaves noted
  rw [Leaves.mem_released leaves step desktop, noted.desktop desktop key]
  constructor
  · rintro ⟨ke, last, press⟩
    obtain ⟨os, press⟩ := (isPress_modifier (lastEvent_about last) desktop).mp press
    exact ⟨os, ke, last, press⟩
  · rintro ⟨os, ke, last, press⟩
    exact ⟨ke, last, (isPress_modifier (lastEvent_about last) desktop).mpr ⟨os, press⟩⟩

theorem leavesNoModifier_iff {w : World} {e : Event} (step : KeyStep e)
    (noted : ∀ id l, w.conns id = some l → l.Noted p) :
    LeavesNoModifier p w e ↔ LeavesPressed p w e := by
  constructor
  · intro none id l key leaves
    exact (Leaves.released_iff leaves step (noted id l leaves.here)).mp (none id l key leaves)
  · intro pressed id l key leaves
    exact (Leaves.released_iff leaves step (noted id l leaves.here)).mpr (pressed id l key leaves)

/-- **What a leaving viewer leaves down.** In every run of key events and
disconnects, exactly those drops leave no modifier held at which every modifier
that only the leaving viewer holds went down with a press event, on a host that
is not Linux. -/
theorem modifiers_released_iff (w : World) (es : List Event)
    (start : ∀ id l, w.conns id = some l → l.Idle p) (steps : ∀ e ∈ es, KeyStep e) :
    Runs.Along (World.step p) (LeavesNoModifier p) w es ↔
      Runs.Along (World.step p) (LeavesPressed p) w es := by
  have noted : ∀ id l, w.conns id = some l → l.Noted p := fun id l found => (start id l found).noted
  clear start
  induction es generalizing w with
  | nil => exact Iff.rfl
  | cons e es ih =>
    have step : KeyStep e := steps e List.mem_cons_self
    have rest := ih (w.step p e) (fun e' mem => steps e' (List.mem_cons_of_mem e mem))
      (step_noted w e noted step)
    exact and_congr (leavesNoModifier_iff step noted) rest

/-- A host whose left shift key has the code 50. -/
def shiftHost (os : Os) : Host :=
  { sampleHost with os, modifierKey := fun code => if code = 50 then some 50 else none }

def shiftKey (down press : Bool) : KeyEvent :=
  { down, press, union := some (.chr 50), mode := some .map }

def shiftTurn (ke : KeyEvent) : Event := .turn 1 {} (.message (some (.keyEvent ke)))

def sampleViewer (id : Nat) : Live where
  conn := { id, ip := .v4 7, salt := "", challenge := "", authorized := true
            authedConnId := some .remote }

def twoViewers : World where
  conns := fun id => if id = 1 ∨ id = 2 then some (sampleViewer id) else none
  next := 3

theorem twoViewers_idle (p : Host) (id : Nat) (l : Live) (found : twoViewers.conns id = some l) :
    l.Idle p := by
  simp only [twoViewers] at found
  split at found
  · cases found
    exact ⟨rfl, fun _ => rfl⟩
  · exact nomatch found

/-- After an event of the first viewer the second still holds nothing. -/
theorem second_holds_nothing {p : Host} {ke : KeyEvent} {id : Nat} {l : Live} (other : id ≠ 1)
    (found : (twoViewers.step p (shiftTurn ke)).conns id = some l) (key : Key) :
    ¬ l.Holds p key := by
  rintro ⟨ke, last, -⟩
  rw [shiftTurn, World.step, turn_conns_ne _ _ other] at found
  rw [Live.lastEvent, (twoViewers_idle p id l found).unheard key] at last
  cases last

/-- On Windows a shift key that went down with a press event is released. -/
theorem modifiers_released_press :
    Runs.Along (World.step (shiftHost .windows)) (LeavesNoModifier (shiftHost .windows)) twoViewers
      [shiftTurn (shiftKey true true), .turn 1 {} (.lost true)] := by
  have steps : ∀ e ∈ [shiftTurn (shiftKey true true), .turn 1 {} (.lost true)], KeyStep e := by
    simp only [List.forall_mem_cons, List.not_mem_nil, false_implies, implies_true, and_true]
    exact ⟨⟨1, {}, _, rfl, .key _⟩, ⟨1, {}, _, rfl, .lost true⟩⟩
  refine (modifiers_released_iff _ _ (twoViewers_idle _) steps).mpr ⟨?_, ?_, trivial⟩
  · intro id l key leaves
    cases Leaves.here_turn leaves
    cases leaves.gone
  · intro id l key leaves
    cases Leaves.here_turn leaves
    refine ⟨by decide, ?_⟩
    obtain ⟨ke, last, -⟩ := leaves.down
    refine ⟨ke, last, ?_⟩
    obtain ⟨e, mem, heard⟩ := List.mem_filterMap.mp (List.mem_of_getLast? last)
    have did : l.did = [.input (.key (shiftKey true true) true)] :=
      congrArg Live.did (Option.some.inj leaves.here).symm
    rw [did, List.mem_singleton] at mem
    subst mem
    simp only [Effect.keyEvent?, Option.ite_none_right_eq_some, Option.some.injEq] at heard
    exact heard.2 ▸ rfl

/-- On Linux a viewer leaves its shift key down. -/
theorem shift_stays_down :
    ¬ Runs.Along (World.step (shiftHost .linux)) (LeavesNoModifier (shiftHost .linux)) twoViewers
      [shiftTurn (shiftKey true false), .turn 1 {} (.lost true)] := by
  rintro ⟨-, none, -⟩
  have alone := @second_holds_nothing (shiftHost .linux) (shiftKey true false)
  have released := none 1 _ 50
    ⟨rfl, rfl, ⟨shiftKey true false, rfl, rfl⟩, fun _ _ other found => alone other found 50⟩
  exact absurd released (by decide)

end CamelliaRemote.Server
