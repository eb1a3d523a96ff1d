import CamelliaRemote.Lib.TreeMaps
import CamelliaRemote.Terminal.Service

/-!
Opening a terminal, `handle_open` of `server/terminal_service.rs`. A request finds its session,
takes over the lowest one on the first open after a reconnection, or starts a new shell, on
Windows behind a helper process. What the platform answers is `OpenEnv`. Whatever fails, fails
before the service is touched.

The ids of a map are listed in ascending order; a `HashMap` lists them in any.
-/

namespace CamelliaRemote.Terminal
open Std (ExtTreeMap)

structure OpenTerminal where
  terminalId : Int
  rows : UInt32
  cols : UInt32
  deriving DecidableEq, Repr

structure TerminalOpened where
  terminalId : Int
  success : Bool
  message : String
  pid : UInt32
  serviceId : String
  replayTerminalOutput : Bool := false
  persistentSessions : List Int := []
  deriving DecidableEq, Repr

/-- What a session keeps of how it was opened. -/
structure SessionInfo where
  pid : UInt32 := 0
  rows : UInt16 := 0
  cols : UInt16 := 0
  isHelperMode : Bool := false
  deriving DecidableEq, Repr

/-- A session is made before it is put into the map. -/
def World.Made (w : World) : Prop :=
  ∀ (terminalId : Int) (session : Nat), w.sessions[terminalId]? = some session →
    session < w.allocated

structure PersistentTerminalService where
  serviceId : String
  world : World
  info : Nat → SessionInfo := fun _ => {}
  made : world.Made

/-- `TerminalServiceProxy`; the token is there on Windows only. -/
structure TerminalServiceProxy where
  serviceId : String
  userToken : Bool := false
  deriving DecidableEq, Repr

structure OpenEnv where
  /-- The chunks that come while the backlog is drained. -/
  arrivals : List Bytes := []
  openpty : Except String Unit := .ok ()
  /-- The process id, if there is one. -/
  spawnCommand : Except String (Option UInt32) := .ok none
  takeWriter : Except String Unit := .ok ()
  tryCloneReader : Except String Unit := .ok ()
  createInputPipe : Except String Unit := .ok ()
  createOutputPipe : Except String Unit := .ok ()
  /-- The process id of the helper. -/
  launchTerminalHelper : Except String UInt32 := .ok 0
  waitForInputPipe : Except String Unit := .ok ()
  waitForOutputPipe : Except String Unit := .ok ()
  isHelperProcessRunning : Bool := true

/-- `anyhow::Context::context`: the text that an error shows. -/
def context {α : Type} (result : Except String α) (text : String) : Except String α :=
  result.mapError fun _ => text

/-- A new session: what it keeps, its state and the message of its response. -/
structure NewSession where
  info : SessionInfo
  session : TerminalSession
  message : String

/-- The shell of a new session. -/
def startShell (env : OpenEnv) (request : OpenTerminal) : Except String NewSession := do
  context env.openpty "Failed to open PTY"
  let child ← context env.spawnCommand "Failed to spawn command"
  context env.takeWriter "Failed to get writer"
  context env.tryCloneReader "Failed to get reader"
  return {
    info := { pid := child.getD 0, rows := request.rows.toUInt16, cols := request.cols.toUInt16 }
    session := .opened
    message := "Terminal opened" }

/-- The helper of a new session; the shell is its child. -/
def startHelper (env : OpenEnv) (request : OpenTerminal) : Except String NewSession := do
  env.createInputPipe
  env.createOutputPipe
  let pid ← env.launchTerminalHelper
  env.waitForInputPipe
  env.waitForOutputPipe
  if !env.isHelperProcessRunning then
    throw s!"Helper process (PID {pid}) exited unexpectedly after pipe connection"
  return {
    info := {
      pid, rows := request.rows.toUInt16, cols := request.cols.toUInt16, isHelperMode := true }
    session := { TerminalSession.opened with child := none }
    message := "Terminal opened (helper mode)" }

namespace PersistentTerminalService

theorem made_insert {w : World} (made : w.Made) (id : Int) (heap : Nat → TerminalSession) :
    World.Made { w with
      sessions := w.sessions.insert id w.allocated
      needsSessionSync := false
      heap
      allocated := w.allocated + 1 } := by
  intro terminalId session found
  rcases TreeMaps.of_insert found with ⟨-, rfl⟩ | ⟨-, old⟩
  · exact Nat.lt_succ_self _
  · exact Nat.lt_succ_of_lt (made terminalId session old)

theorem made_move {w : World} (made : w.Made) {lowestId : Int} {session : Nat}
    (found : w.sessions[lowestId]? = some session) (id : Int) :
    World.Made { w with sessions := (w.sessions.erase lowestId).insert id session } := by
  intro terminalId session' mem
  rcases TreeMaps.of_insert mem with ⟨-, rfl⟩ | ⟨-, old⟩
  · exact made lowestId _ found
  · exact made terminalId _ (TreeMaps.of_erase old).2

/-- On the first open after a reset the lowest session answers for an unknown id. -/
def remap (s : PersistentTerminalService) (terminalId : Int) : PersistentTerminalService :=
  if (s.world.sessions[terminalId]?).isNone ∧ s.world.needsSessionSync then
    match s.world.sessions.keys.min? with
    | none => s
    | some lowestId =>
      match found : s.world.sessions[lowestId]? with
      | none => s
      | some session =>
        { s with
          world := { s.world with
            sessions := (s.world.sessions.erase lowestId).insert terminalId session }
          made := made_move s.made found terminalId }
  else s

def hasPending : SessionState → Bool
  | .active pendingBuffer _ => pendingBuffer.isSome
  | .closed => false

/-- `handle_open` of an existing terminal. -/
def reconnect (s : PersistentTerminalService) (proxy : TerminalServiceProxy) (arrivals : List Bytes)
    (terminalId : Int) (session : Nat) : PersistentTerminalService × TerminalOpened :=
  let world := s.world.apply session (.reconnect arrivals)
  ({ s with world := { world with needsSessionSync := false }, made := s.made },
    { terminalId
      success := true
      message :=
        if hasPending (world.heap session).state then
          "Reconnected to existing terminal with pending output"
        else "Reconnected to existing terminal"
      pid := (s.info session).pid
      serviceId := proxy.serviceId
      replayTerminalOutput := hasPending (world.heap session).state
      persistentSessions :=
        if world.needsSessionSync ∧ 1 < world.sessions.size then
          world.sessions.keys.filter (· ≠ terminalId)
        else [] })

/-- A new session is announced with all that there are, and put into the map. -/
def create (s : PersistentTerminalService) (terminalId : Int) (new : NewSession) :
    PersistentTerminalService × TerminalOpened :=
  ({ s with
      world := { s.world with
        sessions := s.world.sessions.insert terminalId s.world.allocated
        needsSessionSync := false
        heap := Function.update s.world.heap s.world.allocated new.session
        allocated := s.world.allocated + 1 }
      info := Function.update s.info s.world.allocated new.info
      made := made_insert s.made terminalId _ },
    { terminalId
      success := true
      message := new.message
      pid := new.info.pid
      serviceId := s.serviceId
      persistentSessions := if s.world.needsSessionSync then s.world.sessions.keys else [] })

def handleOpenWithHelper (s : PersistentTerminalService) (env : OpenEnv) (request : OpenTerminal) :
    PersistentTerminalService × Except String TerminalOpened :=
  match startHelper env request with
  | .error e => (s, .error e)
  | .ok new => ((s.create request.terminalId new).1, .ok (s.create request.terminalId new).2)

def handleOpen (s : PersistentTerminalService) (proxy : TerminalServiceProxy) (env : OpenEnv)
    (request : OpenTerminal) : PersistentTerminalService × Except String TerminalOpened :=
  let s := s.remap request.terminalId
  match s.world.sessions[request.terminalId]? with
  | some session =>
    let (s, opened) := s.reconnect proxy env.arrivals request.terminalId session
    (s, .ok opened)
  | none =>
    if proxy.userToken then s.handleOpenWithHelper env request
    else
      match startShell env request with
      | .error e => (s, .error e)
      | .ok new => ((s.create request.terminalId new).1, .ok (s.create request.terminalId new).2)

/-- How a request gets its session. -/
inductive Exit (w w' : World) (terminalId : Int) : Prop where
  | found (session : Nat) (here : w.sessions[terminalId]? = some session)
    (same : w'.sessions = w.sessions)
  | moved (lowestId : Int) (session : Nat) (absent : w.sessions[terminalId]? = none)
    (there : w.sessions[lowestId]? = some session)
    (moved : w'.sessions = (w.sessions.erase lowestId).insert terminalId session)
  | created (absent : w.sessions[terminalId]? = none)
    (added : w'.sessions = w.sessions.insert terminalId w.allocated)

/-- The session objects of the map. -/
def objects (w : World) : List Nat := TreeMaps.values w.sessions

variable {s : PersistentTerminalService}

theorem new_notMem_objects (made : s.world.Made) : s.world.allocated ∉ objects s.world := by
  intro mem
  obtain ⟨⟨terminalId, session⟩, found, same⟩ := List.mem_map.mp mem
  have older := made terminalId session (ExtTreeMap.mem_toList_iff_getElem?_eq_some.mp found)
  simp only at same
  omega

theorem remap_cases (s : PersistentTerminalService) (terminalId : Int) :
    s.remap terminalId = s ∨
      ∃ lowestId session, s.world.sessions[terminalId]? = none ∧
        s.world.sessions[lowestId]? = some session ∧
        (s.remap terminalId).world = { s.world with
          sessions := (s.world.sessions.erase lowestId).insert terminalId session } := by
  unfold remap
  split
  · rename_i takes
    split
    · exact .inl rfl
    · rename_i lowestId lowest
      split
      · exact .inl rfl
      · rename_i session found
        exact .inr ⟨lowestId, session, Option.isNone_iff_eq_none.mp takes.1, found, rfl⟩
  · exact .inl rfl

/-- Without a session the request starts a shell or a helper. -/
theorem handleOpen_start {proxy : TerminalServiceProxy} {env : OpenEnv} {request : OpenTerminal}
    (none : (s.remap request.terminalId).world.sessions[request.terminalId]? = none) :
    s.handleOpen proxy env request =
      match if proxy.userToken then startHelper env request else startShell env request with
      | .error e => (s.remap request.terminalId, .error e)
      | .ok new =>
        (((s.remap request.terminalId).create request.terminalId new).1,
          .ok ((s.remap request.terminalId).create request.terminalId new).2) := by
  unfold handleOpen
  simp only [none]
  cases proxy.userToken with
  | true => rfl
  | false => rfl

/-- A request that finds no session after the remap found none before it. -/
theorem remap_none {terminalId : Int}
    (absent : (s.remap terminalId).world.sessions[terminalId]? = none) :
    s.remap terminalId = s ∧ s.world.sessions[terminalId]? = none := by
  rcases s.remap_cases terminalId with same | ⟨lowestId, session, -, -, moved⟩
  · rw [same] at absent
    exact ⟨same, absent⟩
  · simp [moved] at absent

theorem handleOpen_error {proxy : TerminalServiceProxy} {env : OpenEnv} {request : OpenTerminal}
    {e : String} (fails : (s.handleOpen proxy env request).2 = .error e) :
    (s.handleOpen proxy env request).1 = s := by
  cases found : (s.remap request.terminalId).world.sessions[request.terminalId]? with
  | some session => simp [handleOpen, found] at fails
  | none =>
    rw [handleOpen_start found] at fails ⊢
    split at fails
    · exact (remap_none found).1
    · cases fails

/-- The service after a success. -/
structure OpenedRight (s s' : PersistentTerminalService) (terminalId : Int)
    (opened : TerminalOpened) : Prop where
  registered : (s'.world.sessions[terminalId]?).isSome
  exit : Exit s.world s'.world terminalId
  objects : (objects s'.world).Perm (objects s.world) ∨
    s.world.sessions[terminalId]? = none ∧ s.world.allocated ∉ objects s.world ∧
      (objects s'.world).Perm (s.world.allocated :: objects s.world)
  announced : s.world.needsSessionSync = true →
    (terminalId :: opened.persistentSessions).Perm s'.world.sessions.keys
  synced : s'.world.needsSessionSync = false

theorem perm_keys {m : ExtTreeMap Int Nat} {terminalId : Int} {session : Nat}
    (found : m[terminalId]? = some session) :
    (terminalId :: if 1 < m.size then m.keys.filter (· ≠ terminalId) else []).Perm m.keys := by
  have mem : terminalId ∈ m.keys := by
    rw [ExtTreeMap.mem_keys, ExtTreeMap.mem_iff_isSome_getElem?, found]
    rfl
  have others : (if 1 < m.size then m.keys.filter (· ≠ terminalId) else []) =
      m.keys.erase terminalId := by
    rw [ExtTreeMap.nodup_keys.erase_eq_filter]
    split
    · refine List.filter_congr fun id _ => ?_
      simp [bne, Bool.beq_eq_decide_eq]
    · rename_i single
      have length := m.length_keys
      have only : m.keys = [terminalId] := by
        match keys : m.keys, mem with
        | [id], mem => rw [List.mem_singleton.mp mem]
        | _ :: _ :: _, _ =>
          rw [keys, List.length_cons, List.length_cons] at length
          omega
      simp [only]
  rw [others]
  exact (List.perm_cons_erase mem).symm

theorem keys_insert_perm {m : ExtTreeMap Int Nat} {terminalId : Int} {session : Nat}
    (absent : m[terminalId]? = none) :
    (m.insert terminalId session).keys.Perm (terminalId :: m.keys) := by
  have perm := (@TreeMaps.toList_insert_perm _ _ _ _ _ _ _ session absent).map Prod.fst
  rwa [ExtTreeMap.map_fst_toList_eq_keys, List.map_cons, ExtTreeMap.map_fst_toList_eq_keys]
    at perm

theorem reconnect_right {proxy : TerminalServiceProxy} {arrivals : List Bytes} {terminalId : Int}
    {session : Nat} {s₁ : PersistentTerminalService} (exit : Exit s.world s₁.world terminalId)
    (kept : (objects s₁.world).Perm (objects s.world))
    (sync : s₁.world.needsSessionSync = s.world.needsSessionSync)
    (found : s₁.world.sessions[terminalId]? = some session) :
    OpenedRight s (s₁.reconnect proxy arrivals terminalId session).1 terminalId
      (s₁.reconnect proxy arrivals terminalId session).2 := by
  refine ⟨?_, ?_, .inl kept, ?_, rfl⟩
  · change (s₁.world.sessions[terminalId]?).isSome
    rw [found]
    rfl
  · cases exit with
    | found session here same => exact .found session here same
    | moved lowestId session absent there moved => exact .moved lowestId session absent there moved
    | created absent added => exact .created absent added
  · intro isSet
    have announces : (s₁.world.apply session (.reconnect arrivals)).needsSessionSync = true :=
      sync.trans isSet
    have perm := perm_keys found
    simp only [reconnect, announces, true_and]
    exact perm

theorem create_right {terminalId : Int} {new : NewSession}
    (absent : s.world.sessions[terminalId]? = none) :
    OpenedRight s (s.create terminalId new).1 terminalId (s.create terminalId new).2 := by
  refine ⟨?_, .created absent rfl, .inr ⟨absent, new_notMem_objects s.made, ?_⟩, ?_, rfl⟩
  · simp [create]
  · exact TreeMaps.values_insert_perm absent
  · intro isSet
    simp only [create, isSet, if_true]
    exact (keys_insert_perm absent).symm

theorem handleOpen_right {proxy : TerminalServiceProxy} {env : OpenEnv} {request : OpenTerminal}
    {opened : TerminalOpened} (opens : (s.handleOpen proxy env request).2 = .ok opened) :
    OpenedRight s (s.handleOpen proxy env request).1 request.terminalId opened := by
  cases found : (s.remap request.terminalId).world.sessions[request.terminalId]? with
  | some session =>
    simp only [handleOpen, found] at opens ⊢
    cases opens
    rcases s.remap_cases request.terminalId with
      same | ⟨lowestId, taken, absent, there, moved⟩
    · rw [same] at found ⊢
      exact reconnect_right (.found session found rfl) (.refl _) rfl found
    · refine reconnect_right (.moved lowestId taken absent there ?_) ?_ ?_ found
      · rw [moved]
      · rw [objects, moved]
        exact TreeMaps.values_move_perm there absent
      · rw [moved]
  | none =>
    obtain ⟨same, absent⟩ := remap_none found
    rw [handleOpen_start found, same] at opens ⊢
    split at opens
    · cases opens
    · rename_i new started
      cases opens
      exact create_right absent

theorem world_remap (s : PersistentTerminalService) (terminalId : Int) :
    (s.remap terminalId).world = s.world.remap terminalId := by
  unfold remap World.remap World.remapped
  by_cases takes : (s.world.sessions[terminalId]?).isNone ∧ s.world.needsSessionSync
  · rw [if_pos takes, if_pos (by simpa using takes)]
    cases lowest : s.world.sessions.keys.min? with
    | none => rfl
    | some lowestId =>
      dsimp only [Option.bind_some]
      split
      · rename_i absent
        rw [absent]
        rfl
      · rename_i session found
        simp only [found, Option.map_some]
  · rw [if_neg takes, if_neg (by simpa using takes)]

theorem startShell_session {env : OpenEnv} {request : OpenTerminal} {new : NewSession}
    (starts : startShell env request = .ok new) : new.session = .opened := by
  unfold startShell at starts
  cases first : context env.openpty "Failed to open PTY" with
  | error e => simp [first, bind, Except.bind] at starts
  | ok _ =>
    cases second : context env.spawnCommand "Failed to spawn command" with
    | error e => simp [first, second, bind, Except.bind] at starts
    | ok child =>
      cases third : context env.takeWriter "Failed to get writer" with
      | error e => simp [first, second, third, bind, Except.bind] at starts
      | ok _ =>
        cases fourth : context env.tryCloneReader "Failed to get reader" with
        | error e => simp [first, second, third, fourth, bind, Except.bind] at starts
        | ok _ =>
          simp only [first, second, third, fourth, bind, Except.bind, pure, Except.pure] at starts
          cases starts
          rfl

/-- The request is an open of the world, which creates if a shell can be started. -/
theorem world_handleOpen {proxy : TerminalServiceProxy} (direct : proxy.userToken = false)
    (env : OpenEnv) (request : OpenTerminal) :
    (s.handleOpen proxy env request).1.world =
      s.world.handleOpen request.terminalId env.arrivals (startShell env request).isOk := by
  rw [World.handleOpen, ← world_remap, World.openSession]
  cases found : (s.remap request.terminalId).world.sessions[request.terminalId]? with
  | some session =>
    simp only [handleOpen, found]
    rfl
  | none =>
    rw [handleOpen_start found, direct]
    cases starts : startShell env request with
    | error e => rfl
    | ok new =>
      simp only [Bool.false_eq_true, if_false, create, startShell_session starts]
      rfl

/-- The event opens a terminal. -/
def Opens (w : World) : Event → Prop
  | .handleOpen terminalId _ created =>
    ((w.remap terminalId).sessions[terminalId]?).isSome ∨ created = true
  | _ => False

/-- Only an open clears the flag. -/
theorem sync_step {w : World} {e : Event} (fails : ¬ Opens w e)
    (sync : w.needsSessionSync = true) : (w.step e).needsSessionSync = true := by
  cases e with
  | send | shellExits | finishReader | snapshot => exact sync
  | resetStatus => rfl
  | handleOpen terminalId arrivals created =>
    obtain ⟨absent, notCreated⟩ := not_or.mp fails
    have none : (w.remap terminalId).sessions[terminalId]? = none := by simpa using absent
    have kept : (w.remap terminalId).needsSessionSync = w.needsSessionSync := by
      unfold World.remap
      split
      · rfl
      · rfl
    simp only [World.step, World.handleOpen, World.openSession]
    rw [none, if_neg notCreated]
    exact kept.trans sync
  | handleClose terminalId =>
    simp only [World.step, World.handleClose]
    split
    · exact sync
    · exact sync
  | process poll i arrivals waitFails resizeOk =>
    simp only [World.step]
    split
    · exact sync
    · split
      · exact sync
      · exact sync
  | skip poll i =>
    simp only [World.step]
    split
    · exact sync
    · exact sync
  | cleanup poll =>
    simp only [World.step]
    split
    · exact sync
    · split
      · exact (World.cleanUp_frame _ _ _).2.trans sync
      · exact sync

theorem sync_until_opened (w : World) (isPersistent : Bool) {es : List Event}
    (fail : Runs.Along World.step (fun w e => ¬ Opens w e) (w.resetStatus isPersistent) es) :
    (Runs.run World.step (w.resetStatus isPersistent) es).needsSessionSync = true :=
  Runs.invariant (I := fun w => w.needsSessionSync = true)
    (fun _ _ sync fails => sync_step fails sync) rfl fail

/-- **Opening keeps the sessions**: what fails changes nothing, what succeeds has the session under
the requested id, keeps every session object and adds one only if none is reused. The first
success after a reset announces exactly the sessions there are, each once. -/
theorem open_keeps_sessions (s : PersistentTerminalService) (proxy : TerminalServiceProxy)
    (env : OpenEnv) (request : OpenTerminal) :
    (∀ e, (s.handleOpen proxy env request).2 = .error e →
      (s.handleOpen proxy env request).1 = s) ∧
    (∀ opened, (s.handleOpen proxy env request).2 = .ok opened →
      OpenedRight s (s.handleOpen proxy env request).1 request.terminalId opened) ∧
    ∀ (w : World) (isPersistent : Bool) (es : List Event),
      Runs.Along World.step (fun w e => ¬ Opens w e) (w.resetStatus isPersistent) es →
        s.world = Runs.run World.step (w.resetStatus isPersistent) es →
          ∀ opened, (s.handleOpen proxy env request).2 = .ok opened →
            (request.terminalId :: opened.persistentSessions).Perm
              (s.handleOpen proxy env request).1.world.sessions.keys := by
  refine ⟨fun _ => handleOpen_error, fun _ => handleOpen_right, ?_⟩
  intro w isPersistent es fail reached opened opens
  have sync : s.world.needsSessionSync = true := reached ▸ sync_until_opened w isPersistent fail
  exact (handleOpen_right opens).announced sync

/-- Two terminals are open when the connection is lost. -/
def lost : World where
  sessions := (∅ : ExtTreeMap Int Nat).insert 1 0 |>.insert 2 1
  heap := fun _ => .opened
  allocated := 2

/-- What comes between the reset and the next open. -/
def meanwhile : List Event := [.send 0 [104, 105], .snapshot true, .handleClose 9]

theorem meanwhile_made : (Runs.run World.step (lost.resetStatus true) meanwhile).Made := by
  intro terminalId session found
  show session < 2
  rcases TreeMaps.of_insert found with ⟨-, rfl⟩ | ⟨-, old⟩
  · decide
  · rcases TreeMaps.of_insert old with ⟨-, rfl⟩ | ⟨-, none⟩
    · decide
    · simp at none

def regained : PersistentTerminalService where
  serviceId := "ts"
  world := Runs.run World.step (lost.resetStatus true) meanwhile
  made := meanwhile_made

theorem open_keeps_sessions_regained :
    (regained.handleOpen ⟨"ts", false⟩ {} ⟨5, 24, 80⟩).2.toOption.map (·.persistentSessions) =
        some [2] ∧
      [5, 2].Perm
        (regained.handleOpen ⟨"ts", false⟩ {} ⟨5, 24, 80⟩).1.world.sessions.keys := by
  refine ⟨by decide +kernel, ?_⟩
  exact (open_keeps_sessions regained ⟨"ts", false⟩ {} ⟨5, 24, 80⟩).2.2 lost true meanwhile
    ⟨by simp [Opens], ⟨by simp [Opens], ⟨by simp [Opens], trivial⟩⟩⟩ rfl _ rfl

end PersistentTerminalService

end CamelliaRemote.Terminal
