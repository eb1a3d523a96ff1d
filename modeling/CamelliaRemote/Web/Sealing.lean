import CamelliaRemote.Lib.Runs
import CamelliaRemote.Web.Channel
import CamelliaRemote.Web.Session

namespace CamelliaRemote.Web
open Codec Runs

/-- The frame is sealed by the cipher that was set for its socket. -/
def Frame.Sealed (f : Frame) : Prop :=
  ∃ c, f.sealedBy = some c ∧ c.socket = some f.socket ∧
    f.payload = (c.cipher.encrypt c.box f.data).2

/-- What may be handed to a socket. -/
def Frame.Permitted (f : Frame) : Prop :=
  f.origin = .relayJoin ∨ f.origin = .publicKey ∨ f.Sealed

namespace WebSocketTransport

variable {t : WebSocketTransport}

/-- The socket is open and has no cipher yet. -/
def inHandshake (t : WebSocketTransport) : Bool := t.isOpen && t.cipher.isNone

structure Guarded (t : WebSocketTransport) : Prop where
  fits : ∀ id c, t.socket = some id → t.cipher = some c → c.socket = some id
  permitted : ∀ f ∈ t.frames, f.Permitted

/-! ## Operations that send nothing -/

@[simp] theorem closeSocket_socket (id : Nat) : (t.closeSocket id).socket = t.socket := by
  unfold closeSocket
  split <;> rfl

@[simp] theorem closeSocket_cipher (id : Nat) : (t.closeSocket id).cipher = t.cipher := by
  unfold closeSocket
  split <;> rfl

@[simp] theorem closeSocket_frames (id : Nat) : (t.closeSocket id).frames = t.frames := by
  unfold closeSocket
  split <;> rfl

@[simp] theorem closePrevious_frames : t.closePrevious.frames = t.frames := by
  unfold closePrevious
  split
  · exact closeSocket_frames _
  · rfl

@[simp] theorem finish_socket (id : Nat) (ok : Bool) : (t.finish id ok).socket = t.socket := by
  unfold finish
  split <;> rfl

@[simp] theorem finish_cipher (id : Nat) (ok : Bool) : (t.finish id ok).cipher = t.cipher := by
  unfold finish
  split <;> rfl

@[simp] theorem finish_frames (id : Nat) (ok : Bool) : (t.finish id ok).frames = t.frames := by
  unfold finish
  split <;> rfl

/-- The current socket is kept or given up, with the cipher and the frames as they
are. -/
theorem Guarded.keep {u : WebSocketTransport} (h : t.Guarded)
    (socket : u.socket = t.socket ∨ u.socket = none) (cipher : u.cipher = t.cipher)
    (frames : u.frames = t.frames) : u.Guarded := by
  constructor
  · intro id c current set
    rcases socket with same | given
    · exact h.fits id c (same ▸ current) (cipher ▸ set)
    · rw [given] at current
      exact absurd current (by simp)
  · rw [frames]
    exact h.permitted

theorem Guarded.closeSocket (h : t.Guarded) (id : Nat) : (t.closeSocket id).Guarded :=
  h.keep (.inl (closeSocket_socket id)) (closeSocket_cipher id) (closeSocket_frames id)

theorem Guarded.onOpen (h : t.Guarded) (id : Nat) : (t.onOpen id).Guarded := by
  unfold WebSocketTransport.onOpen
  dsimp only
  split
  · exact h.keep (by simp [setReady]) (by simp [setReady]) (by simp [setReady])
  · exact h.keep (by simp [setReady]) (by simp [setReady]) (by simp [setReady])

theorem Guarded.onError (h : t.Guarded) (id : Nat) : (t.onError id).Guarded := by
  unfold WebSocketTransport.onError
  dsimp only
  split <;> exact h.keep (by simp) (by simp) (by simp)

theorem Guarded.onClose (h : t.Guarded) (id : Nat) : (t.onClose id).1.Guarded := by
  unfold WebSocketTransport.onClose
  dsimp only
  split
  · exact h.keep (.inl rfl) rfl rfl
  · exact h.keep (by simp) (by simp [setReady]) (by simp [setReady])

theorem Guarded.onTimeout (h : t.Guarded) (id : Nat) : (t.onTimeout id).Guarded := by
  unfold WebSocketTransport.onTimeout
  split
  · exact h
  · dsimp only
    split <;> exact h.keep (by simp) (by simp) (by simp)

theorem Guarded.close (h : t.Guarded) : t.close.Guarded where
  fits id c current _ := absurd current (by simp [WebSocketTransport.close])
  permitted := by
    simpa [WebSocketTransport.close] using h.permitted

theorem Guarded.connect (h : t.Guarded) (constructed : Bool) :
    (t.connect constructed).1.Guarded := by
  unfold WebSocketTransport.connect
  split
  · exact h
  · dsimp only
    split
    · exact ⟨fun id c _ set => absurd set (by simp), by simpa using h.permitted⟩
    · exact ⟨fun id c _ set => absurd set (by simp), by simpa using h.permitted⟩

theorem Guarded.setCipher (h : t.Guarded) (cipher : Option (SecretBox × SecretBoxCipher)) :
    (t.setCipher cipher).Guarded where
  fits id c current set := by
    obtain ⟨_, _, rfl⟩ := Option.map_eq_some_iff.mp set
    exact current
  permitted := h.permitted

theorem Guarded.onMessage (h : t.Guarded) (data : Bytes) (opened : Option Bytes) :
    (t.onMessage data opened).1.Guarded := by
  unfold WebSocketTransport.onMessage
  split
  · exact h
  · rename_i c set
    refine ⟨fun id c' current set' => ?_, h.permitted⟩
    obtain rfl := Option.some.inj set'
    exact h.fits id c current set

/-! ## Sending -/

theorem send_isOpen (origin : Origin) (data : Bytes) :
    (t.send origin data).isOpen = t.isOpen := by
  unfold send
  split
  · rfl
  · split
    · split <;> rfl
    · rfl

theorem send_cipher_isNone (origin : Origin) (data : Bytes) :
    (t.send origin data).cipher.isNone = t.cipher.isNone := by
  unfold send
  split
  · rfl
  · split
    · split
      · rfl
      · rename_i set
        rw [set]
        rfl
    · rfl

@[simp] theorem send_inHandshake (origin : Origin) (data : Bytes) :
    (t.send origin data).inHandshake = t.inHandshake := by
  rw [inHandshake, send_isOpen, send_cipher_isNone, inHandshake]

theorem Guarded.send (h : t.Guarded) {origin : Origin} (data : Bytes)
    (outside : origin = .application → t.inHandshake = false) : (t.send origin data).Guarded := by
  unfold WebSocketTransport.send
  split
  · exact h
  · rename_i id current
    split
    · rename_i opened
      split
      · rename_i unset
        refine ⟨h.fits, List.forall_mem_append.mpr ⟨h.permitted, ?_⟩⟩
        simp only [List.forall_mem_singleton, Frame.Permitted]
        cases origin with
        | relayJoin => exact .inl rfl
        | publicKey => exact .inr (.inl rfl)
        | application =>
          have handshake := outside rfl
          rw [inHandshake, opened, unset] at handshake
          exact absurd handshake (by decide)
      · rename_i c set
        refine ⟨?_, List.forall_mem_append.mpr ⟨h.permitted, ?_⟩⟩
        · intro id' c' current' set'
          obtain rfl := Option.some.inj set'
          exact h.fits id' c current' set
        · simp only [List.forall_mem_singleton, Frame.Permitted]
          exact .inr (.inr ⟨c, rfl, h.fits id c current set, rfl⟩)
    · exact h

/-! ## Leaks -/

/-- An application message went out in the clear. -/
def Leaks (t : WebSocketTransport) : Prop := ∃ f ∈ t.frames, ¬ f.Permitted

theorem frames_send (origin : Origin) (data : Bytes) : t.frames ⊆ (t.send origin data).frames := by
  unfold send
  split
  · exact List.Subset.refl _
  · split
    · split <;> exact List.subset_append_left _ _
    · exact List.Subset.refl _

theorem Leaks.send (h : t.Leaks) (origin : Origin) (data : Bytes) :
    (t.send origin data).Leaks := by
  obtain ⟨f, mem, leak⟩ := h
  exact ⟨f, frames_send origin data mem, leak⟩

theorem leaks_of_send (handshake : t.inHandshake = true) (data : Bytes) :
    (t.send .application data).Leaks := by
  simp only [inHandshake, Bool.and_eq_true, Option.isNone_iff_eq_none] at handshake
  obtain ⟨opened, unset⟩ := handshake
  cases current : t.socket with
  | none => simp [isOpen, current] at opened
  | some id =>
    refine ⟨⟨id, .application, data, data, none⟩, ?_, ?_⟩
    · simp [WebSocketTransport.send, current, opened, unset]
    · rintro (join | reply | ⟨c, sealedBy, -⟩)
      · exact absurd join (by simp)
      · exact absurd reply (by simp)
      · exact absurd sealedBy (by simp)

end WebSocketTransport

namespace WebSession
open WebSocketTransport

variable {setup : Setup} {s : WebSession}

/-! ## Sessions without direct IP access -/

def Await.ordinary : Await → Bool
  | .directIp _ | .directIpAccess _ => false
  | _ => true

/-- No call of `connect` is for direct IP access, and none will be. -/
structure Ordinary (setup : Setup) (s : WebSession) : Prop where
  calls : ∀ c ∈ s.calls, setup.directEndpoint c.context = false ∧ Await.ordinary c.awaiting = true
  context : ∀ context, s.context = some context → setup.directEndpoint context = false
  timer : ∀ entry, s.reconnectTimer = some entry → setup.directEndpoint entry.1 = false

theorem Ordinary.goTo (h : Ordinary setup s) (c : Call) {next : Await}
    (ordinary : Await.ordinary next = true) : Ordinary setup (s.goTo c next) := by
  refine ⟨fun c' mem => ?_, h.context, h.timer⟩
  obtain ⟨before, was, rfl⟩ := List.mem_map.mp mem
  split
  · exact ⟨(h.calls before was).1, ordinary⟩
  · exact h.calls before was

theorem Ordinary.endCall (h : Ordinary setup s) (c : Call) : Ordinary setup (s.endCall c) :=
  ⟨fun c' mem => h.calls c' (List.mem_filter.mp mem).1, h.context, h.timer⟩

theorem Ordinary.finalizeClosedState (h : Ordinary setup s) :
    Ordinary setup s.finalizeClosedState := by
  unfold WebSession.finalizeClosedState
  split
  · exact h
  · exact ⟨h.calls, h.context, fun _ armed => absurd armed (by simp)⟩

theorem Ordinary.scheduleAutoReconnect (h : Ordinary setup s) :
    Ordinary setup s.scheduleAutoReconnect := by
  unfold WebSession.scheduleAutoReconnect
  split
  · exact h.finalizeClosedState
  · rename_i context known
    refine ⟨h.calls, h.context, fun entry armed => ?_⟩
    obtain rfl := Option.some.inj armed
    exact h.context context known

theorem Ordinary.startConnect (h : Ordinary setup s) {context : SessionContext}
    (ordinary : setup.directEndpoint context = false) (attempt : Option Nat) :
    Ordinary setup (s.startConnect context attempt) := by
  refine ⟨?_, ?_, fun _ armed => absurd armed (by simp [WebSession.startConnect])⟩
  · simp only [WebSession.startConnect, List.forall_mem_append, List.forall_mem_singleton]
    exact ⟨h.calls, ordinary, rfl⟩
  · intro context' set
    obtain rfl := Option.some.inj set
    exact ordinary

theorem Ordinary.rejectConnect (h : Ordinary setup s) (c : Call) :
    Ordinary setup (s.rejectConnect c) := by
  have reset : Ordinary setup { s with
      keepaliveTimer := false
      transport := (s.transport.setCipher none).close
      state := .idle } := ⟨h.calls, h.context, h.timer⟩
  unfold WebSession.rejectConnect
  dsimp only
  split
  · exact reset.goTo c rfl
  · exact reset.endCall c

/-- Sending changes nothing but the transport. -/
theorem sendMessage_eq (s : WebSession) (origin : Origin) (data : Bytes) :
    ∃ t, s.sendMessage origin data = { s with transport := t } := by
  unfold WebSession.sendMessage
  split
  · exact ⟨_, rfl⟩
  · exact ⟨s.transport, rfl⟩

theorem requestInitialVideoRefresh_eq (setup : Setup) (s : WebSession) :
    ∃ t, requestInitialVideoRefresh setup s = { s with transport := t } := by
  unfold requestInitialVideoRefresh
  split
  · exact sendMessage_eq s _ _
  · exact ⟨s.transport, rfl⟩

theorem switchDisplay_eq (setup : Setup) (s : WebSession) (target : Nat) :
    ∃ t display,
      switchDisplay setup s target = { s with transport := t, requestedDisplay := display } := by
  unfold WebSession.switchDisplay
  split
  · dsimp only
    obtain ⟨t, sent⟩ := sendMessage_eq { s with requestedDisplay := some target } .application
      (setup.switchDisplay target)
    rw [sent]
    obtain ⟨t', refreshed⟩ := requestInitialVideoRefresh_eq setup
      { s with transport := t, requestedDisplay := some target }
    exact ⟨t', some target, refreshed⟩
  · exact ⟨s.transport, s.requestedDisplay, rfl⟩

/-- The end of `connect`, but for what it sends. -/
theorem connected_eq (setup : Setup) (s : WebSession) (c : Call) :
    ∃ t display, s.connected setup c =
      { s with
        state := .connected
        keepaliveTimer := true
        reconnectAttempts := 0
        transport := t
        requestedDisplay := display }.endCall c := by
  unfold WebSession.connected
  dsimp only
  obtain ⟨t, refreshed⟩ := requestInitialVideoRefresh_eq setup
    { s with state := .connected, keepaliveTimer := true }
  rw [refreshed]
  dsimp only
  split
  · rename_i target _
    obtain ⟨t', display, switched⟩ := switchDisplay_eq setup
      { s with state := .connected, keepaliveTimer := true, transport := t } target
    rw [switched]
    exact ⟨t', display, rfl⟩
  · exact ⟨t, s.requestedDisplay, rfl⟩

theorem Ordinary.connected (h : Ordinary setup s) (c : Call) :
    Ordinary setup (s.connected setup c) := by
  obtain ⟨t, display, eq⟩ := connected_eq setup s c
  rw [eq]
  refine Ordinary.endCall ?_ c
  exact ⟨h.calls, h.context, h.timer⟩

theorem Ordinary.openSocket (h : Ordinary setup s) (c : Call) (via : Via) (signedIdPk : Bytes)
    (constructed : Bool) : Ordinary setup (s.openSocket c via signedIdPk constructed) := by
  unfold WebSession.openSocket
  refine Ordinary.goTo ?_ c rfl
  exact ⟨h.calls, h.context, h.timer⟩

theorem Ordinary.secureConnection (h : Ordinary setup s) (c : Call) (via : Via)
    (inbox : List Bytes) : Ordinary setup (s.secureConnection setup c via inbox) := by
  unfold WebSession.secureConnection
  split
  · exact h.goTo c rfl
  · split
    · exact h.goTo c rfl
    · exact h.goTo c rfl

theorem Ordinary.resume (h : Ordinary setup s) {c : Call} (mem : c ∈ s.calls) (answer : Answer) :
    Ordinary setup (s.resume setup c answer) := by
  obtain ⟨ordinary, at_⟩ := h.calls c mem
  unfold WebSession.resume
  split
  · split
    · exact h.rejectConnect c
    · dsimp only
      rw [ordinary, if_neg (by decide)]
      have loaded : Ordinary setup { s with proto := true } := ⟨h.calls, h.context, h.timer⟩
      split
      · exact loaded.rejectConnect c
      · split
        · exact loaded.rejectConnect c
        · exact loaded.goTo c rfl
  · rename_i promise suspended
    rw [suspended] at at_
    exact absurd at_ (by simp [Await.ordinary])
  · rename_i ok suspended
    rw [suspended] at at_
    exact absurd at_ (by simp [Await.ordinary])
  · split
    · exact h.rejectConnect c
    · split
      · exact h.openSocket c _ _ _
      · exact h.openSocket c _ _ _
  · split
    · exact h.goTo c rfl
    · exact h.openSocket c _ _ _
  · split
    · exact h
    · exact h.goTo c rfl
    · split
      · exact h.secureConnection c _ _
      · obtain ⟨t, sent⟩ := sendMessage_eq s .relayJoin (setup.relayJoin c.context _)
        rw [sent]
        refine Ordinary.goTo ?_ c rfl
        exact ⟨h.calls, h.context, h.timer⟩
  · exact h.secureConnection c _ _
  · split
    · exact h.goTo c rfl
    · split
      · dsimp only
        obtain ⟨t, sent⟩ := sendMessage_eq s .publicKey answer.publicKey
        rw [sent]
        refine Ordinary.goTo ?_ c rfl
        exact ⟨h.calls, h.context, h.timer⟩
      · exact h.goTo c rfl
  · exact h.goTo c rfl
  · split
    · exact h.goTo c rfl
    · split
      · refine Ordinary.goTo ?_ c rfl
        exact ⟨h.calls, h.context, h.timer⟩
      · exact h.goTo c rfl
  · exact h.connected c
  · exact h.rejectConnect c
  · dsimp only
    split
    · exact h.endCall c
    · split
      · exact (h.endCall c).finalizeClosedState
      · exact (h.endCall c).scheduleAutoReconnect

theorem Ordinary.handleTransportClose (h : Ordinary setup s) (event : CloseEvent) :
    Ordinary setup (s.handleTransportClose event) := by
  unfold WebSession.handleTransportClose
  split
  · exact h
  · split
    · exact h
    · split
      · exact h.scheduleAutoReconnect
      · exact h.finalizeClosedState

theorem Await.ordinary_push (data : Bytes) (a : Await) :
    Await.ordinary (Await.push data a) = Await.ordinary a := by
  cases a <;> rfl

theorem Ordinary.onMessage (h : Ordinary setup s) (id : Nat) (data : Bytes)
    (opened : Option Bytes) : Ordinary setup (s.onMessage id data opened) := by
  unfold WebSession.onMessage
  split
  · exact h
  · split
    · exact ⟨h.calls, h.context, h.timer⟩
    · refine ⟨fun c mem => ?_, h.context, h.timer⟩
      obtain ⟨before, was, rfl⟩ := List.mem_map.mp mem
      rw [Await.ordinary_push]
      exact h.calls before was

theorem Ordinary.step (h : Ordinary setup s) {e : SessionEvent}
    (ordinary : ∀ context, e = .connect context → setup.directEndpoint context = false) :
    Ordinary setup (s.step setup e) := by
  cases e with
  | connect context => exact h.startConnect (ordinary context rfl) none
  | close =>
    have closing : Ordinary setup { s with manualClose := true, reconnectTimer := none } :=
      ⟨h.calls, h.context, fun _ armed => absurd armed (by simp)⟩
    exact ⟨closing.finalizeClosedState.calls, closing.finalizeClosedState.context,
      closing.finalizeClosedState.timer⟩
  | resume id answer =>
    dsimp only [WebSession.step]
    split
    · rename_i c found
      exact h.resume (List.mem_of_find?_eq_some found) answer
    · exact h
  | socketOpen id =>
    dsimp only [WebSession.step]
    split
    · exact ⟨h.calls, h.context, h.timer⟩
    · exact h
  | socketError id => exact ⟨h.calls, h.context, h.timer⟩
  | socketClosing id => exact ⟨h.calls, h.context, h.timer⟩
  | socketClose id event =>
    have told : Ordinary setup { s with transport := (s.transport.onClose id).1 } :=
      ⟨h.calls, h.context, h.timer⟩
    dsimp only [WebSession.step]
    split
    · exact told.handleTransportClose event
    · exact told
  | socketTimeout id => exact ⟨h.calls, h.context, h.timer⟩
  | socketMessage id data opened => exact h.onMessage id data opened
  | reconnectTimeout =>
    dsimp only [WebSession.step]
    split
    · exact h
    · rename_i context attempt armed
      have fired : Ordinary setup { s with reconnectTimer := none } :=
        ⟨h.calls, h.context, fun _ armed => absurd armed (by simp)⟩
      split
      · exact fired
      · exact fired.startConnect (h.timer _ armed) _
  | keepaliveInterval heartbeat =>
    obtain ⟨t, sent⟩ := sendMessage_eq s .application heartbeat
    dsimp only [WebSession.step, sendClientHeartbeat]
    rw [sent]
    split
    · split
      · exact h
      · exact ⟨h.calls, h.context, h.timer⟩
    · exact h
  | sendMessage data =>
    obtain ⟨t, sent⟩ := sendMessage_eq s .application data
    dsimp only [WebSession.step]
    rw [sent]
    exact ⟨h.calls, h.context, h.timer⟩
  | sendBinary data => exact ⟨h.calls, h.context, h.timer⟩
  | switchDisplay target =>
    obtain ⟨t, display, switched⟩ := switchDisplay_eq setup s target
    dsimp only [WebSession.step]
    rw [switched]
    exact ⟨h.calls, h.context, h.timer⟩

/-! ## Application messages -/

/-- The end of `connect` sends application messages of its own. -/
def endSends (setup : Setup) (s : WebSession) : Bool :=
  s.proto && (setup.videoSession && !s.manualClose || s.requestedDisplay.isSome)

/-- The event hands an application message to the transport. -/
def sendsApplication (setup : Setup) (s : WebSession) : SessionEvent → Bool
  | .sendMessage _ | .switchDisplay _ => s.proto
  | .sendBinary _ => true
  | .keepaliveInterval _ => s.keepaliveTimer && s.state = .connected && s.proto
  | .resume id _ =>
    (s.calls.find? (·.id = id)).any fun c => c.awaiting = .routed && endSends setup s
  | _ => false

theorem guarded_sendMessage (guarded : s.transport.Guarded) {origin : Origin} (data : Bytes)
    (outside : origin = .application → s.proto = true → s.transport.inHandshake = false) :
    (s.sendMessage origin data).transport.Guarded := by
  unfold WebSession.sendMessage
  split
  · rename_i loaded
    exact guarded.send data fun application => outside application loaded
  · exact guarded

@[simp] theorem sendMessage_inHandshake (s : WebSession) (origin : Origin) (data : Bytes) :
    (s.sendMessage origin data).transport.inHandshake = s.transport.inHandshake := by
  unfold WebSession.sendMessage
  split
  · exact send_inHandshake origin data
  · rfl

@[simp] theorem requestInitialVideoRefresh_inHandshake (setup : Setup) (s : WebSession) :
    (requestInitialVideoRefresh setup s).transport.inHandshake = s.transport.inHandshake := by
  unfold requestInitialVideoRefresh
  split
  · exact sendMessage_inHandshake s _ _
  · rfl

theorem guarded_requestInitialVideoRefresh (guarded : s.transport.Guarded)
    (outside : s.proto = true → setup.videoSession = true → s.manualClose = false →
      s.transport.inHandshake = false) :
    (requestInitialVideoRefresh setup s).transport.Guarded := by
  unfold requestInitialVideoRefresh
  split
  · rename_i wanted
    simp only [Bool.and_eq_true, Bool.not_eq_true'] at wanted
    exact guarded_sendMessage guarded _ fun _ loaded => outside loaded wanted.1.1 wanted.1.2
  · exact guarded

theorem guarded_switchDisplay (guarded : s.transport.Guarded) (target : Nat)
    (outside : s.proto = true → s.transport.inHandshake = false) :
    (switchDisplay setup s target).transport.Guarded := by
  unfold WebSession.switchDisplay
  split
  · rename_i loaded
    have outside := outside loaded
    dsimp only
    refine guarded_requestInitialVideoRefresh ?_ fun _ _ _ => ?_
    · refine guarded_sendMessage ?_ _ fun _ _ => outside
      exact guarded
    · rw [sendMessage_inHandshake]
      exact outside
  · exact guarded

theorem guarded_connected (guarded : s.transport.Guarded) (c : Call)
    (outside : endSends setup s = true → s.transport.inHandshake = false) :
    (s.connected setup c).transport.Guarded := by
  have first : (requestInitialVideoRefresh setup
      { s with state := .connected, keepaliveTimer := true }).transport.Guarded := by
    refine guarded_requestInitialVideoRefresh guarded fun loaded video manual => outside ?_
    simp [endSends, show s.proto = true from loaded, video, show s.manualClose = false from manual]
  obtain ⟨t, refreshed⟩ := requestInitialVideoRefresh_eq setup
    { s with state := .connected, keepaliveTimer := true }
  unfold WebSession.connected
  dsimp only
  split
  · rename_i target requested
    refine guarded_switchDisplay first _ fun loaded => ?_
    rw [refreshed] at requested loaded
    rw [requestInitialVideoRefresh_inHandshake]
    refine outside ?_
    simp [endSends, show s.proto = true from loaded,
      show s.requestedDisplay = some target from requested]
  · exact first

theorem guarded_rejectConnect (guarded : s.transport.Guarded) (c : Call) :
    (s.rejectConnect c).transport.Guarded := by
  unfold WebSession.rejectConnect
  dsimp only
  split <;> exact (guarded.setCipher none).close

theorem guarded_openSocket (guarded : s.transport.Guarded) (c : Call) (via : Via)
    (signedIdPk : Bytes) (constructed : Bool) :
    (s.openSocket c via signedIdPk constructed).transport.Guarded :=
  guarded.connect constructed

theorem secureConnection_transport (setup : Setup) (s : WebSession) (c : Call) (via : Via)
    (inbox : List Bytes) : (s.secureConnection setup c via inbox).transport = s.transport := by
  unfold WebSession.secureConnection
  split
  · rfl
  · split <;> rfl

theorem finalizeClosedState_transport (s : WebSession) :
    s.finalizeClosedState.transport = s.transport := by
  unfold WebSession.finalizeClosedState
  split <;> rfl

theorem scheduleAutoReconnect_transport (s : WebSession) :
    s.scheduleAutoReconnect.transport = s.transport := by
  unfold WebSession.scheduleAutoReconnect
  split
  · exact finalizeClosedState_transport s
  · rfl

theorem guarded_resume (ordinary : Ordinary setup s) (guarded : s.transport.Guarded) {c : Call}
    (mem : c ∈ s.calls) (answer : Answer)
    (outside : c.awaiting = .routed → endSends setup s = true →
      s.transport.inHandshake = false) :
    (s.resume setup c answer).transport.Guarded := by
  obtain ⟨notDirect, awaits⟩ := ordinary.calls c mem
  unfold WebSession.resume
  split
  · split
    · exact guarded_rejectConnect guarded c
    · dsimp only
      rw [notDirect, if_neg (by decide)]
      have loaded : ({ s with proto := true } : WebSession).transport.Guarded := guarded
      split
      · exact guarded_rejectConnect loaded c
      · split
        · exact guarded_rejectConnect loaded c
        · exact guarded
  · rename_i promise suspended
    rw [suspended] at awaits
    exact absurd awaits (by simp [Await.ordinary])
  · rename_i ok suspended
    rw [suspended] at awaits
    exact absurd awaits (by simp [Await.ordinary])
  · split
    · exact guarded_rejectConnect guarded c
    · split
      · exact guarded_openSocket guarded c _ _ _
      · exact guarded_openSocket guarded c _ _ _
  · split
    · exact guarded
    · exact guarded_openSocket guarded c _ _ _
  · split
    · exact guarded
    · exact guarded
    · split
      · rw [secureConnection_transport]
        exact guarded
      · exact guarded_sendMessage guarded _ fun join => absurd join (by decide)
  · rw [secureConnection_transport]
    exact guarded
  · split
    · exact guarded
    · split
      · exact (guarded_sendMessage guarded _ fun reply => absurd reply (by decide)).setCipher _
      · exact guarded
  · exact guarded
  · split
    · exact guarded
    · split
      · exact guarded.close
      · exact guarded
  · rename_i suspended
    exact guarded_connected guarded c (outside suspended)
  · exact guarded_rejectConnect guarded c
  · dsimp only
    split
    · exact guarded
    · split
      · rw [finalizeClosedState_transport]
        exact guarded
      · rw [scheduleAutoReconnect_transport]
        exact guarded

theorem guarded_step (ordinary : Ordinary setup s) (guarded : s.transport.Guarded)
    (e : SessionEvent)
    (outside : sendsApplication setup s e = true → s.transport.inHandshake = false) :
    (s.step setup e).transport.Guarded := by
  cases e with
  | connect context => exact guarded
  | close =>
    refine WebSocketTransport.Guarded.close ?_
    rw [finalizeClosedState_transport]
    exact guarded
  | resume id answer =>
    dsimp only [WebSession.step]
    split
    · rename_i c found
      refine guarded_resume ordinary guarded (List.mem_of_find?_eq_some found) answer ?_
      intro routed sends
      refine outside ?_
      rw [sendsApplication, found]
      simp [routed, sends]
    · exact guarded
  | socketOpen id =>
    dsimp only [WebSession.step]
    split
    · exact guarded.onOpen id
    · exact guarded
  | socketError id => exact guarded.onError id
  | socketClosing id => exact guarded.closeSocket id
  | socketClose id event =>
    dsimp only [WebSession.step]
    split
    · unfold WebSession.handleTransportClose
      split
      · exact guarded.onClose id
      · split
        · exact guarded.onClose id
        · split
          · rw [scheduleAutoReconnect_transport]
            exact guarded.onClose id
          · rw [finalizeClosedState_transport]
            exact guarded.onClose id
    · exact guarded.onClose id
  | socketTimeout id => exact guarded.onTimeout id
  | socketMessage id data opened =>
    have received := guarded.onMessage data opened
    dsimp only [WebSession.step]
    unfold WebSession.onMessage
    split
    · exact guarded
    · split
      · rename_i t failed
        rw [failed] at received
        exact received
      · rename_i t payload delivered
        rw [delivered] at received
        exact received
  | reconnectTimeout =>
    dsimp only [WebSession.step]
    split
    · exact guarded
    · split <;> exact guarded
  | keepaliveInterval heartbeat =>
    dsimp only [WebSession.step, sendClientHeartbeat]
    split
    · rename_i armed
      split
      · exact guarded
      · rename_i connected
        refine guarded_sendMessage guarded heartbeat fun _ loaded => outside ?_
        simp only [sendsApplication, armed, loaded]
        simpa using connected
    · exact guarded
  | sendMessage data => exact guarded_sendMessage guarded data fun _ loaded => outside loaded
  | sendBinary data => exact guarded.send data fun _ => outside rfl
  | switchDisplay target => exact guarded_switchDisplay guarded target outside

/-! ## A message in a handshake leaks -/

theorem leaks_sendMessage (loaded : s.proto = true) (handshake : s.transport.inHandshake = true)
    (data : Bytes) : (s.sendMessage .application data).transport.Leaks := by
  rw [WebSession.sendMessage, if_pos loaded]
  exact leaks_of_send handshake data

theorem Leaks.sendMessage (h : s.transport.Leaks) (origin : Origin) (data : Bytes) :
    (s.sendMessage origin data).transport.Leaks := by
  unfold WebSession.sendMessage
  split
  · exact WebSocketTransport.Leaks.send h origin data
  · exact h

theorem Leaks.requestInitialVideoRefresh (h : s.transport.Leaks) :
    (requestInitialVideoRefresh setup s).transport.Leaks := by
  unfold WebSession.requestInitialVideoRefresh
  split
  · exact Leaks.sendMessage h _ _
  · exact h

theorem Leaks.switchDisplay (h : s.transport.Leaks) (target : Nat) :
    (switchDisplay setup s target).transport.Leaks := by
  unfold WebSession.switchDisplay
  split
  · refine Leaks.requestInitialVideoRefresh (Leaks.sendMessage ?_ _ _)
    exact h
  · exact h

theorem leaks_switchDisplay (loaded : s.proto = true)
    (handshake : s.transport.inHandshake = true) (target : Nat) :
    (switchDisplay setup s target).transport.Leaks := by
  rw [WebSession.switchDisplay, if_pos loaded]
  refine Leaks.requestInitialVideoRefresh (leaks_sendMessage ?_ ?_ _)
  · exact loaded
  · exact handshake

theorem leaks_connected (c : Call) (sends : endSends setup s = true)
    (handshake : s.transport.inHandshake = true) : (s.connected setup c).transport.Leaks := by
  simp only [endSends, Bool.and_eq_true, Bool.or_eq_true, Bool.not_eq_true'] at sends
  obtain ⟨loaded, what⟩ := sends
  obtain ⟨t, refreshed⟩ := requestInitialVideoRefresh_eq setup
    { s with state := .connected, keepaliveTimer := true }
  have same := requestInitialVideoRefresh_inHandshake setup
    { s with state := .connected, keepaliveTimer := true }
  unfold WebSession.connected
  dsimp only
  rcases what with ⟨video, manual⟩ | requested
  · have first : (requestInitialVideoRefresh setup
        { s with state := .connected, keepaliveTimer := true }).transport.Leaks := by
      unfold requestInitialVideoRefresh
      rw [if_pos (by simp [video, manual])]
      refine leaks_sendMessage ?_ ?_ _
      · exact loaded
      · exact handshake
    split
    · exact Leaks.switchDisplay first _
    · exact first
  · obtain ⟨target, requested⟩ := Option.isSome_iff_exists.mp requested
    rw [refreshed] at same ⊢
    dsimp only
    rw [requested]
    refine leaks_switchDisplay ?_ ?_ target
    · exact loaded
    · exact same.trans handshake

theorem leaks_step (e : SessionEvent) (sends : sendsApplication setup s e = true)
    (handshake : s.transport.inHandshake = true) : (s.step setup e).transport.Leaks := by
  cases e with
  | resume id answer =>
    dsimp only [WebSession.step]
    cases found : s.calls.find? (·.id = id) with
    | none =>
      rw [sendsApplication, found] at sends
      exact absurd sends (by simp)
    | some c =>
      rw [sendsApplication, found, Option.any_some, Bool.and_eq_true, decide_eq_true_eq] at sends
      obtain ⟨routed, sends⟩ := sends
      dsimp only
      rw [WebSession.resume, routed]
      exact leaks_connected c sends handshake
  | keepaliveInterval heartbeat =>
    simp only [sendsApplication, Bool.and_eq_true, decide_eq_true_eq] at sends
    obtain ⟨⟨armed, connected⟩, loaded⟩ := sends
    dsimp only [WebSession.step, sendClientHeartbeat]
    rw [if_pos armed, if_neg (by simp [connected])]
    exact leaks_sendMessage loaded handshake heartbeat
  | sendMessage data => exact leaks_sendMessage sends handshake data
  | sendBinary data => exact leaks_of_send handshake data
  | switchDisplay target => exact leaks_switchDisplay sends handshake target
  | _ => exact absurd sends (by simp [sendsApplication])

/-! ## Runs -/

/-- Application messages fall outside the handshake. -/
def OutsideHandshake (setup : Setup) (s : WebSession) (e : SessionEvent) : Prop :=
  sendsApplication setup s e = true → s.transport.inHandshake = false

instance (setup : Setup) (s : WebSession) (e : SessionEvent) :
    Decidable (OutsideHandshake setup s e) :=
  inferInstanceAs (Decidable (sendsApplication setup s e = true → _))

/-- What a run without direct IP access keeps. -/
structure Safe (setup : Setup) (s : WebSession) : Prop where
  ordinary : Ordinary setup s
  guarded : s.transport.Guarded

theorem safe_new (setup : Setup) : Safe setup {} where
  ordinary := {
    calls := fun _ mem => absurd mem List.not_mem_nil
    context := fun _ known => absurd known (by simp)
    timer := fun _ armed => absurd armed (by simp) }
  guarded := {
    fits := fun _ _ current => absurd current (by simp)
    permitted := fun _ mem => absurd mem List.not_mem_nil }

end WebSession

open WebSession WebSocketTransport

/-- **No plaintext.** In a session without direct IP access every frame that was
handed to a socket, at every moment of a run, is a relay join, a reply with the key
or sealed by the cipher set for that socket, if and only if no event of the run
hands an application message to the transport while its socket is open and has no
cipher yet. -/
theorem no_plaintext_iff (setup : Setup) (es : List SessionEvent)
    (route : ∀ context, SessionEvent.connect context ∈ es →
      setup.directEndpoint context = false) :
    (∀ past, past <+: es →
      ∀ f ∈ (run (WebSession.step setup) {} past).transport.frames, f.Permitted) ↔
      Along (WebSession.step setup) (OutsideHandshake setup) {} es := by
  constructor
  · clear route
    intro permitted
    induction es using List.reverseRecOn with
    | nil => trivial
    | append_singleton es e ih =>
      have earlier := ih fun past inside => permitted past (inside.trans (List.prefix_append _ _))
      refine along_snoc.mpr ⟨earlier, fun sends => ?_⟩
      rw [← Bool.not_eq_true]
      intro handshake
      obtain ⟨f, mem, leak⟩ := leaks_step e sends handshake
      refine leak (permitted (es ++ [e]) List.prefix_rfl f ?_)
      rw [run_append]
      exact mem
  · rintro outside past ⟨rest, rfl⟩
    have ordinary : Along (WebSession.step setup) (fun _ e => ∀ context,
        e = .connect context → setup.directEndpoint context = false) {} past := by
      refine along_of_forall_mem (fun e mem context is => ?_) _
      exact route context (List.mem_append_left _ (is ▸ mem))
    have admitted := along_and.mpr ⟨ordinary, (along_append.mp outside).1⟩
    have safe := invariant (I := Safe setup)
      (fun s e safe admitted => ⟨safe.ordinary.step admitted.1,
        guarded_step safe.ordinary safe.guarded e admitted.2⟩) (safe_new setup) admitted
    exact safe.guarded.permitted

/-! A session over a relay, up to a message of the user. -/

def relaySetup : Setup where
  directTarget := false
  videoSession := true
  signPk _ _ := some [1]
  identifies _ _ := true
  relayJoin _ _ := [2]
  refreshVideo := [3]
  switchDisplay _ := [4]

def relayContext : SessionContext := ⟨"rendezvous", "key", false⟩

def relayAnswer : Answer where
  ok := true
  route := .relay ⟨[5], "uuid"⟩
  relayInfo := ⟨[5], "uuid"⟩
  constructed := true
  box := plainBox
  publicKey := [6]

/-- `connect` up to the opening of the relay's socket. -/
def relayOpening : List SessionEvent :=
  [.connect relayContext, .resume 0 relayAnswer, .resume 0 relayAnswer, .socketOpen 0]

/-- The rest of `connect`. -/
def relayHandshake : List SessionEvent :=
  [.resume 0 relayAnswer, .resume 0 relayAnswer, .socketMessage 0 [7] none,
    .resume 0 relayAnswer, .resume 0 relayAnswer, .resume 0 relayAnswer, .resume 0 relayAnswer]

/-- A message after the handshake is sealed. -/
theorem no_plaintext_after_handshake :
    let es := relayOpening ++ relayHandshake ++ [SessionEvent.sendMessage [8]]
    (run (WebSession.step relaySetup) {} es).transport.frames.map Frame.origin =
        [.relayJoin, .publicKey, .application, .application] ∧
      ∀ past, past <+: es →
        ∀ f ∈ (run (WebSession.step relaySetup) {} past).transport.frames, f.Permitted := by
  refine ⟨by decide +kernel, (no_plaintext_iff relaySetup _ ?_).mpr (by decide +kernel)⟩
  intro context mem
  simp only [relayOpening, relayHandshake, List.cons_append, List.nil_append, List.mem_cons,
    SessionEvent.connect.injEq, reduceCtorEq, List.not_mem_nil, or_false] at mem
  rw [mem]
  rfl

/-- A message between the opening of the socket and the handshake goes out as it
is. -/
theorem plaintext_before_handshake :
    ¬ ∀ f ∈ (run (WebSession.step relaySetup) {}
      (relayOpening ++ [SessionEvent.sendMessage [8]])).transport.frames, f.Permitted := by
  intro permitted
  have frames : (run (WebSession.step relaySetup) {}
      (relayOpening ++ [SessionEvent.sendMessage [8]])).transport.frames =
        [⟨0, .application, [8], [8], none⟩] := rfl
  rw [frames, List.forall_mem_singleton] at permitted
  rcases permitted with join | reply | ⟨c, sealedBy, -⟩
  · exact absurd join (by decide)
  · exact absurd reply (by decide)
  · exact absurd sealedBy (by simp)

end CamelliaRemote.Web
