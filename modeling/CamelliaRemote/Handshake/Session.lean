import CamelliaRemote.Lib.Symbolic

/-!
The native handshake, `src/client.rs`, `src/server.rs` and `src/common.rs`. The rendezvous server
certifies the signing key of a peer for its id. The host signs a fresh box key together with its
id, the client checks both signatures and both ids, and sends a fresh session key in a box. Either
side goes on only with that key on its stream.

Messages are symbolic terms; a length of 32 bytes is that of a public key. A fresh session key is
named after the message it is made for and the key it is sealed for. Whatever the network, the
relay or the rendezvous server answers is a field of an environment, as is every failure of a
library call. Addresses, NAT types and timeouts, which only decide what is answered, are left out.
-/

namespace CamelliaRemote.Handshake
open Symbolic

inductive Name where
  /-- The signing key of the rendezvous server. -/
  | rendezvous
  /-- The box key of the rendezvous server in one key exchange. -/
  | exchange (i : Nat)
  /-- The signing key of a host. -/
  | host (h : Nat)
  /-- The box key that a host makes for one connection. -/
  | boxKey (s : Nat)
  /-- The box key made for the `i`-th message with a session key. -/
  | ephemeral (i : Nat)
  /-- The session key in the `i`-th such message, which is sealed for `recipient`. -/
  | session (i : Nat) (recipient : Name)
  | attacker (i : Nat)
  deriving DecidableEq, Repr

abbrev Term := Symbolic.Term Name

inductive Message where
  | signedId (id : Term)
  | publicKey (asymmetricValue symmetricValue : Term)
  | other
  deriving DecidableEq, Repr

def Message.terms : Message → List Term
  | .signedId id => [id]
  | .publicKey asymmetricValue symmetricValue => [asymmetricValue, symmetricValue]
  | .other => []

/-- One message read from a stream; a malformed one is `bytes none`. -/
inductive Read where
  | timedOut
  | closed
  | failed (error : String)
  | bytes (msg : Option Message)
  deriving DecidableEq, Repr

def Read.terms : Read → List Term
  | .bytes (some msg) => msg.terms
  | _ => []

structure Stream where
  key : Option Term := none
  deriving DecidableEq, Repr

/-- `set_key`, on a transport that may not turn encryption on. -/
def Stream.setKey (conn : Stream) (activates : Bool) (key : Term) : Stream :=
  if activates then { key := some key } else conn

def Stream.isSecured (conn : Stream) : Bool := conn.key.isSome

/-- The protobuf `IdPk`. -/
def idPk (id : String) (pk : Term) : Term := .pair (.text id) pk

def parseIdPk : Term → Option (String × Term)
  | .pair (.text id) pk => some (id, pk)
  | _ => none

def getPk : Term → Option Name
  | .pub n => some n
  | _ => none

def decodeIdPk (signed : Term) (key : Name) : Except String (String × Name) :=
  match verify signed key with
  | none => .error "Signature mismatch"
  | some raw =>
    match parseIdPk raw with
    | none => .error "malformed IdPk"
    | some (id, pk) =>
      match getPk pk with
      | none => .error "Wrong their public length"
      | some pk => .ok (id, pk)

/-- The `i`-th message with a session key: the public value, the sealed key and the key. -/
def createSymmetricKeyMsg (i : Nat) (theirPk : Name) : Term × Term × Name :=
  (.pub (.ephemeral i), .box (.sec (.session i theirPk)) (.ephemeral i) theirPk,
    .session i theirPk)

/-- `RS_PUB_KEY`, and what `get_rs_pk` reads from a key. -/
structure Config where
  rsPubKey : String
  getRsPk : String → Option Name

def Config.rsPk (config : Config) (key : String) : Option Name :=
  config.getRsPk (if key = "" then config.rsPubKey else key)

/-- What happens while a session key is sent: `seals` is `box_::seal`. -/
structure KeyEnv where
  seals : Bool := true
  sends : Except String Unit := .ok ()
  activates : Bool := true

/-- What happens in the handshake of a client: `validKey` is `PublicKey::from_slice`. -/
structure SecureEnv where
  validKey : Bool := true
  read : Read
  send : KeyEnv := {}

def validateSignedPeerIdentity (peerId : String) (signedIdentity : Option Term)
    (rendezvousKey : Name) (validKey : Bool) : Except String Name :=
  match signedIdentity with
  | none => .error "Handshake failed: rendezvous server omitted the signed peer identity"
  | some signedIdentity =>
    match decodeIdPk signedIdentity rendezvousKey with
    | .error _ => .error "Handshake failed: invalid signed peer identity"
    | .ok (signedPeerId, peerSigningKey) =>
      if signedPeerId ≠ peerId then
        .error "Handshake failed: signed peer identity does not match the requested peer"
      else if validKey then .ok peerSigningKey
      else .error "Handshake failed: peer signing key is invalid"

/-- The message of the host, checked against the signing key of the peer. -/
def readPeerKey (peerId : String) (signPk : Name) : Read → Except String Name
  | .timedOut => .error "deadline has elapsed"
  | .closed => .error "Handshake failed: peer disconnected"
  | .failed e => .error e
  | .bytes none => .error "Handshake failed: malformed peer response"
  | .bytes (some (.signedId id)) =>
    match decodeIdPk id signPk with
    | .error _ => .error "Handshake failed: invalid peer key signature"
    | .ok (signedPeerId, theirPk) =>
      if signedPeerId ≠ peerId then
        .error "Handshake failed: peer key identity does not match the requested peer"
      else .ok theirPk
  | .bytes (some _) => .error "Handshake failed: signed peer key was required"

/-- What a client has done: what went over the network, its stream and the result. -/
structure Secured (α : Type) where
  sent : List Term
  conn : Stream
  result : Except String α

def Secured.map {α β : Type} (f : α → β) (secured : Secured α) : Secured β :=
  ⟨secured.sent, secured.conn, secured.result.map f⟩

/-- Nothing was sent, and the stream is as it was. -/
def Secured.fail {α : Type} (conn : Stream) (e : String) : Secured α := ⟨[], conn, .error e⟩

/-- A session key for `theirPk` is made, sent and put on the stream; `inactive` is the error of
a stream that is not secured then. -/
def sendSessionKey (i : Nat) (theirPk : Name) (inactive : String) (env : KeyEnv)
    (conn : Stream) : Secured Unit :=
  if env.seals then
    let (asymmetricValue, symmetricValue, key) := createSymmetricKeyMsg i theirPk
    let sent := [asymmetricValue, symmetricValue]
    match env.sends with
    | .error e => ⟨sent, conn, .error e⟩
    | .ok () =>
      let conn := conn.setKey env.activates (.sec key)
      if conn.isSecured then ⟨sent, conn, .ok ()⟩ else ⟨sent, conn, .error inactive⟩
  else .fail conn "Handshake failed: session key encryption failed"

def secureConnection (config : Config) (i : Nat) (peerId : String) (signedIdPk : Option Term)
    (key : String) (env : SecureEnv) (conn : Stream) : Secured Name :=
  match config.rsPk key with
  | none => .fail conn "Handshake failed: rendezvous signing key is missing or invalid"
  | some rsPk =>
    match validateSignedPeerIdentity peerId signedIdPk rsPk env.validKey with
    | .error e => .fail conn e
    | .ok peerSigningKey =>
      match readPeerKey peerId peerSigningKey env.read with
      | .error e => .fail conn e
      | .ok theirPk =>
        (sendSessionKey i theirPk "Handshake failed: encrypted transport was not activated"
          env.send conn).map fun () => peerSigningKey

/-- A stream to the peer: the signing key is the one `secure_connection` gives back. -/
structure Connected where
  conn : Stream
  direct : Bool
  pk : Name
  typ : String
  deriving DecidableEq, Repr

/-- `dial` is the first of the TCP, UDP and IPv6 attempts that succeeds, with its kind. -/
structure ConnectEnv where
  dial : Except String String
  forceRelay : Bool
  requestRelay : Except String Unit
  secure : SecureEnv

/-- A stream through the relay. -/
def viaRelay (relayServer : String) (env : ConnectEnv) : Except String (Bool × String) :=
  if relayServer = "" then .error "Failed to make direct connection to remote desktop"
  else
    match env.requestRelay with
    | .error e => .error ("Failed to connect via relay server: " ++ e)
    | .ok () => .ok (false, "Relay")

def route (relayServer : String) (env : ConnectEnv) : Except String (Bool × String) :=
  match env.dial with
  | .ok typ => if env.forceRelay then viaRelay relayServer env else .ok (true, typ)
  | .error _ => viaRelay relayServer env

/-- The stream as it is after the handshake on a fresh one. -/
def handshaken (config : Config) (i : Nat) (peerId : String) (signedIdPk : Option Term)
    (key : String) (env : SecureEnv) (direct : Bool) (typ : String) : Secured Connected :=
  let secured := secureConnection config i peerId signedIdPk key env {}
  secured.map fun pk => { conn := secured.conn, direct, pk, typ }

def connect (config : Config) (i : Nat) (peerId : String) (signedIdPk : Option Term)
    (relayServer key : String) (env : ConnectEnv) : Secured Connected :=
  match route relayServer env with
  | .error e => .fail {} e
  | .ok (direct, typ) => handshaken config i peerId signedIdPk key env.secure direct typ

inductive PunchFailure where
  | idNotExist
  | offline
  | licenseMismatch
  | licenseOveruse
  | other
  deriving DecidableEq, Repr

/-- `socketAddr` is the port of the address in it. -/
structure PunchHoleResponse where
  socketAddr : Option Nat
  otherFailure : String := ""
  failure : PunchFailure := .other
  pk : Option Term
  relayServer : String := ""

structure RelayResponse where
  pk : Option Term

inductive RendezvousAnswer where
  | punchHoleResponse (ph : PunchHoleResponse)
  | relayResponse (rr : RelayResponse)
  | other

def RendezvousAnswer.pk : RendezvousAnswer → Option Term
  | .punchHoleResponse ph => ph.pk
  | .relayResponse rr => rr.pk
  | .other => none

structure Attempt where
  sends : Except String Unit := .ok ()
  answer : Option RendezvousAnswer

def PunchHoleResponse.error (ph : PunchHoleResponse) : String :=
  if ph.otherFailure ≠ "" then ph.otherFailure
  else
    match ph.failure with
    | .idNotExist => "ID does not exist"
    | .offline => "Remote desktop is offline"
    | .licenseMismatch => "Key mismatch"
    | .licenseOveruse => "Key overuse"
    | .other => "other punch hole failure"

/-- How the loop of punch attempts ends. -/
inductive Punched where
  | failed (error : String)
  | relayed (rr : RelayResponse)
  | punched (port : Nat) (ph : PunchHoleResponse)
  | unanswered

def punch : List Attempt → Punched
  | [] => .unanswered
  | attempt :: attempts =>
    match attempt.sends with
    | .error e => .failed e
    | .ok () =>
      match attempt.answer with
      | some (.punchHoleResponse ph) =>
        match ph.socketAddr with
        | none => .failed ph.error
        | some port => .punched port ph
      | some (.relayResponse rr) => .relayed rr
      | some .other => punch attempts
      | none => punch attempts

/-- `dialRelay` is the first of the IPv6 and relay attempts that succeeds after a relay
response, with its kind. -/
structure StartEnv where
  socket : Except String Unit
  secureTcp : Except String Unit
  attempt₁ : Attempt
  attempt₂ : Attempt
  attempt₃ : Attempt
  dialRelay : Except String String
  connect : ConnectEnv

def StartEnv.attempts (env : StartEnv) : List Attempt :=
  [env.attempt₁, env.attempt₂, env.attempt₃]

/-- All that a client reads from others on the way. -/
def StartEnv.terms (env : StartEnv) : List Term :=
  (env.attempts.filterMap fun a => a.answer.bind RendezvousAnswer.pk) ++
    env.connect.secure.read.terms

/-- `_start_inner`, whose second result says that `connect` was used. -/
def startInner (config : Config) (i : Nat) (peer key : String) (env : StartEnv) :
    Secured (Connected × Bool) :=
  match env.socket, env.secureTcp with
  | .error e, _ => .fail {} e
  | _, .error e => .fail {} ("Failed to secure rendezvous connection: " ++ e)
  | .ok (), .ok () =>
    match punch env.attempts with
    | .failed e => .fail {} e
    | .unanswered => .fail {} "Failed to connect via rendezvous server"
    | .relayed rr =>
      match env.dialRelay with
      | .error e => .fail {} e
      | .ok typ =>
        (handshaken config i peer rr.pk key env.connect.secure (typ == "IPv6") typ).map
          fun c => (c, false)
    | .punched port ph =>
      if port = 0 then .fail {} "Failed to connect via rendezvous server"
      else (connect config i peer ph.pk ph.relayServer key env.connect).map fun c => (c, true)

/-- `keys` is the key exchange message of the rendezvous server, or anything else. -/
structure ExchangeEnv where
  keys : Except String (Option (List Term))
  send : KeyEnv := {}

def ExchangeEnv.terms (env : ExchangeEnv) : List Term :=
  match env.keys with
  | .ok (some keys) => keys
  | _ => []

/-- A session key for the rendezvous server itself. -/
def secureTcp (rsPk : Option Name) (i : Nat) (env : ExchangeEnv) (conn : Stream) :
    Secured Unit :=
  match rsPk, env.keys with
  | none, _ => .fail conn "Handshake failed: invalid public key from rendezvous server"
  | some _, .error e => .fail conn e
  | some _, .ok none => .fail conn "Handshake failed: key exchange response was required"
  | some rsPk, .ok (some [signed]) =>
    match verify signed rsPk with
    | none => .fail conn "Signature mismatch in key exchange"
    | some raw =>
      match getPk raw with
      | none => .fail conn "Wrong their public length in key exchange"
      | some theirPk =>
        sendSessionKey i theirPk "Handshake failed: secure channel was not activated"
          env.send conn
  | some _, .ok (some _) => .fail conn "Handshake failed: invalid key exchange message"

structure OfferEnv where
  secure : Bool := true
  /-- The key pair has the right lengths. -/
  keyPair : Bool := true
  validKey : Bool := true
  sends : Except String Unit := .ok ()

/-- The first half: host `h` offers a box key for connection `s`, signed with its id. -/
def offerIdentity (s h : Nat) (id : String) (env : OfferEnv) : List Term × Except String Unit :=
  if env.secure = false then
    ([], .error "Handshake failed: unauthenticated peer connections are disabled")
  else if env.keyPair = false then
    ([], .error "Handshake failed: local signing identity is unavailable")
  else if env.validKey = false then
    ([], .error "Handshake failed: invalid local signing key")
  else ([.sign (idPk id (.pub (.boxKey s))) (.host h)], env.sends)

/-- The second half, up to `Connection::start` with the stream that is the result. -/
def acceptSessionKey (s : Nat) (read : Read) (activates : Bool) : Except String Stream :=
  match read with
  | .timedOut => .error "deadline has elapsed"
  | .closed => .error "Handshake failed: peer disconnected"
  | .failed e => .error e
  | .bytes none => .error "Handshake failed: malformed peer response"
  | .bytes (some (.publicKey asymmetricValue symmetricValue)) =>
    match getPk asymmetricValue with
    | none => .error "Handshake failed: invalid peer session-key length"
    | some theirPk =>
      match openBox symmetricValue theirPk (.boxKey s) with
      | none => .error "Encrypt::decode"
      | some key =>
        let conn := Stream.setKey {} activates key
        if conn.isSecured then .ok conn
        else .error "Handshake failed: encrypted transport was not activated"
  | .bytes (some _) => .error "Handshake failed: peer session key was required"

theorem decodeIdPk_eq_ok {t : Term} {key : Name} {id : String} {pk : Name} :
    decodeIdPk t key = .ok (id, pk) ↔ t = .sign (idPk id (.pub pk)) key := by
  constructor
  · intro h
    unfold decodeIdPk at h
    split at h
    · exact absurd h (by simp)
    · rename_i raw signed
      split at h
      · exact absurd h (by simp)
      · rename_i id' pk' parsed
        split at h
        · exact absurd h (by simp)
        · rename_i n found
          obtain ⟨rfl, rfl⟩ := Prod.mk.inj (Except.ok.inj h)
          rw [verify_eq_some] at signed
          subst signed
          unfold parseIdPk at parsed
          split at parsed
          · obtain ⟨rfl, rfl⟩ := Prod.mk.inj (Option.some.inj parsed)
            unfold getPk at found
            split at found
            · obtain rfl := Option.some.inj found
              rfl
            · exact absurd found (by simp)
          · exact absurd parsed (by simp)
  · rintro rfl
    simp [decodeIdPk, verify, idPk, parseIdPk, getPk]

theorem validateSignedPeerIdentity_eq_ok {peerId : String} {signedIdentity : Option Term}
    {rsPk pk : Name} {validKey : Bool}
    (h : validateSignedPeerIdentity peerId signedIdentity rsPk validKey = .ok pk) :
    signedIdentity = some (.sign (idPk peerId (.pub pk)) rsPk) := by
  unfold validateSignedPeerIdentity at h
  split at h
  · exact absurd h (by simp)
  · split at h
    · exact absurd h (by simp)
    · rename_i decoded
      split at h
      · exact absurd h (by simp)
      · rename_i same
        split at h
        · obtain rfl := Except.ok.inj h
          obtain rfl := not_not.mp same
          rw [decodeIdPk_eq_ok.mp decoded]
        · exact absurd h (by simp)

theorem readPeerKey_eq_ok {peerId : String} {signPk theirPk : Name} {read : Read}
    (h : readPeerKey peerId signPk read = .ok theirPk) :
    read = .bytes (some (.signedId (.sign (idPk peerId (.pub theirPk)) signPk))) := by
  match read, h with
  | .bytes (some (.signedId id)), h =>
    simp only [readPeerKey] at h
    split at h
    · exact absurd h (by simp)
    · rename_i decoded
      split at h
      · exact absurd h (by simp)
      · rename_i same
        obtain rfl := Except.ok.inj h
        obtain rfl := not_not.mp same
        rw [decodeIdPk_eq_ok.mp decoded]

/-- What a client sends: nothing, or the message with its session key. -/
def KeyMessage (i : Nat) (sent : List Term) : Prop :=
  sent = [] ∨ ∃ theirPk,
    sent = [.pub (.ephemeral i), .box (.sec (.session i theirPk)) (.ephemeral i) theirPk]

theorem sendSessionKey_sent (i : Nat) (theirPk : Name) (inactive : String) (env : KeyEnv)
    (conn : Stream) : KeyMessage i (sendSessionKey i theirPk inactive env conn).sent := by
  unfold sendSessionKey
  by_cases seals : env.seals = true
  · rw [if_pos seals]
    refine .inr ⟨theirPk, ?_⟩
    cases env.sends with
    | error e => rfl
    | ok =>
      by_cases active : (conn.setKey env.activates (.sec (.session i theirPk))).isSecured = true
      · simp [createSymmetricKeyMsg, active]
      · simp [createSymmetricKeyMsg, active]
  · rw [if_neg seals]
    exact .inl rfl

theorem sendSessionKey_ok {i : Nat} {theirPk : Name} {inactive : String} {env : KeyEnv}
    (h : (sendSessionKey i theirPk inactive env {}).result = .ok ()) :
    (sendSessionKey i theirPk inactive env {}).conn = ⟨some (.sec (.session i theirPk))⟩ := by
  unfold sendSessionKey at h ⊢
  split at h
  · rename_i seals
    simp only [seals, if_true, createSymmetricKeyMsg] at h ⊢
    split at h
    · exact absurd h (by simp)
    · by_cases activates : env.activates = true
      · simp [activates, Stream.setKey, Stream.isSecured]
      · simp [activates, Stream.setKey, Stream.isSecured] at h
  · exact absurd h (by simp [Secured.fail])

theorem Secured.map_ok {α β : Type} {f : α → β} {secured : Secured α} {b : β}
    (h : (secured.map f).result = .ok b) : ∃ a, secured.result = .ok a ∧ f a = b := by
  cases found : secured.result with
  | error e => simp [Secured.map, found, Except.map] at h
  | ok a => exact ⟨a, rfl, by simpa [Secured.map, found, Except.map] using h⟩

section Client

variable {config : Config} {i : Nat} {peerId key : String} {signedIdPk : Option Term}

theorem secureConnection_sent (env : SecureEnv) (conn : Stream) :
    KeyMessage i (secureConnection config i peerId signedIdPk key env conn).sent := by
  unfold secureConnection
  split
  · exact .inl rfl
  · split
    · exact .inl rfl
    · split
      · exact .inl rfl
      · exact sendSessionKey_sent i _ _ _ _

/-- Both signatures were checked for the requested id, and the stream has the new key. -/
def Verified (config : Config) (i : Nat) (peerId key : String) (signedIdPk : Option Term)
    (read : Read) (pk : Name) (conn : Stream) : Prop :=
  ∃ rsPk theirPk, config.rsPk key = some rsPk ∧
    signedIdPk = some (.sign (idPk peerId (.pub pk)) rsPk) ∧
    read = .bytes (some (.signedId (.sign (idPk peerId (.pub theirPk)) pk))) ∧
    conn = ⟨some (.sec (.session i theirPk))⟩

theorem secureConnection_ok {env : SecureEnv} {pk : Name}
    (h : (secureConnection config i peerId signedIdPk key env {}).result = .ok pk) :
    Verified config i peerId key signedIdPk env.read pk
      (secureConnection config i peerId signedIdPk key env {}).conn := by
  cases isKey : config.rsPk key with
  | none => simp [secureConnection, isKey, Secured.fail] at h
  | some rsPk =>
    cases valid : validateSignedPeerIdentity peerId signedIdPk rsPk env.validKey with
    | error e => simp [secureConnection, isKey, valid, Secured.fail] at h
    | ok signPk =>
      cases found : readPeerKey peerId signPk env.read with
      | error e => simp [secureConnection, isKey, valid, found, Secured.fail] at h
      | ok theirPk =>
        simp only [secureConnection, isKey, valid, found] at h ⊢
        obtain ⟨_, ok, rfl⟩ := Secured.map_ok h
        exact ⟨rsPk, theirPk, isKey, validateSignedPeerIdentity_eq_ok valid,
          readPeerKey_eq_ok found, sendSessionKey_ok ok⟩

theorem handshaken_sent (env : SecureEnv) (direct : Bool) (typ : String) :
    KeyMessage i (handshaken config i peerId signedIdPk key env direct typ).sent :=
  secureConnection_sent env {}

theorem handshaken_ok {env : SecureEnv} {direct : Bool} {typ : String} {r : Connected}
    (h : (handshaken config i peerId signedIdPk key env direct typ).result = .ok r) :
    Verified config i peerId key signedIdPk env.read r.pk r.conn := by
  obtain ⟨pk, ok, rfl⟩ := Secured.map_ok h
  exact secureConnection_ok ok

theorem connect_sent (relayServer : String) (env : ConnectEnv) :
    KeyMessage i (connect config i peerId signedIdPk relayServer key env).sent := by
  unfold connect
  split
  · exact .inl rfl
  · exact handshaken_sent _ _ _

theorem connect_ok {relayServer : String} {env : ConnectEnv} {r : Connected}
    (h : (connect config i peerId signedIdPk relayServer key env).result = .ok r) :
    Verified config i peerId key signedIdPk env.secure.read r.pk r.conn := by
  unfold connect at h
  split at h
  · exact absurd h (by simp [Secured.fail])
  · exact handshaken_ok h

/-- What a punch attempt is answered with is among the answers. -/
theorem punch_answer {attempts : List Attempt} :
    (∀ rr, punch attempts = .relayed rr →
      ∃ a ∈ attempts, a.answer = some (.relayResponse rr)) ∧
    ∀ port ph, punch attempts = .punched port ph →
      ∃ a ∈ attempts, a.answer = some (.punchHoleResponse ph) := by
  induction attempts with
  | nil => simp [punch]
  | cons a attempts ih =>
    have later : ∀ {answer : RendezvousAnswer}, (∃ b ∈ attempts, b.answer = some answer) →
        ∃ b ∈ a :: attempts, b.answer = some answer :=
      fun ⟨b, mem, eq⟩ => ⟨b, List.mem_cons_of_mem _ mem, eq⟩
    unfold punch
    split
    · simp
    · split
      · rename_i ph answered
        split
        · simp
        · refine ⟨by simp, ?_⟩
          rintro port ph' ⟨⟩
          exact ⟨a, List.mem_cons_self, answered⟩
      · rename_i rr answered
        refine ⟨?_, by simp⟩
        rintro rr' ⟨⟩
        exact ⟨a, List.mem_cons_self, answered⟩
      · exact ⟨fun rr eq => later (ih.1 rr eq), fun port ph eq => later (ih.2 port ph eq)⟩
      · exact ⟨fun rr eq => later (ih.1 rr eq), fun port ph eq => later (ih.2 port ph eq)⟩

theorem startInner_sent (env : StartEnv) :
    KeyMessage i (startInner config i peerId key env).sent := by
  unfold startInner
  split
  · exact .inl rfl
  · exact .inl rfl
  · split
    · exact .inl rfl
    · exact .inl rfl
    · rename_i rr _
      split
      · exact .inl rfl
      · rename_i typ _
        exact handshaken_sent env.connect.secure (typ == "IPv6") typ
    · rename_i ph _
      split
      · exact .inl rfl
      · exact connect_sent ph.relayServer env.connect

theorem StartEnv.mem_terms {env : StartEnv} {a : Attempt} {answer : RendezvousAnswer} {t : Term}
    (mem : a ∈ env.attempts) (answered : a.answer = some answer) (pk : answer.pk = some t) :
    t ∈ env.terms := by
  refine List.mem_append_left _ (List.mem_filterMap.mpr ⟨a, mem, ?_⟩)
  rw [answered]
  exact pk

/-- **Every route ends in the handshake.** A stream comes back with the key that was made for
it, once both signatures were read. -/
theorem startInner_ok {env : StartEnv} {r : Connected × Bool}
    (h : (startInner config i peerId key env).result = .ok r) :
    ∃ rsPk theirPk, config.rsPk key = some rsPk ∧
      .sign (idPk peerId (.pub r.1.pk)) rsPk ∈ env.terms ∧
      .sign (idPk peerId (.pub theirPk)) r.1.pk ∈ env.terms ∧
      r.1.conn = ⟨some (.sec (.session i theirPk))⟩ := by
  have all : ∃ signedIdPk, Verified config i peerId key signedIdPk env.connect.secure.read
      r.1.pk r.1.conn ∧ ∀ t, signedIdPk = some t → t ∈ env.terms := by
    unfold startInner at h
    split at h
    · exact absurd h (by simp [Secured.fail])
    · exact absurd h (by simp [Secured.fail])
    · split at h
      · exact absurd h (by simp [Secured.fail])
      · exact absurd h (by simp [Secured.fail])
      · rename_i rr relayed
        obtain ⟨a, mem, answered⟩ := punch_answer.1 rr relayed
        split at h
        · exact absurd h (by simp [Secured.fail])
        · obtain ⟨c, ok, rfl⟩ := Secured.map_ok h
          exact ⟨rr.pk, handshaken_ok ok, fun t => env.mem_terms mem answered⟩
      · rename_i port ph punched
        obtain ⟨a, mem, answered⟩ := punch_answer.2 port ph punched
        split at h
        · exact absurd h (by simp [Secured.fail])
        · obtain ⟨c, ok, rfl⟩ := Secured.map_ok h
          exact ⟨ph.pk, connect_ok ok, fun t => env.mem_terms mem answered⟩
  obtain ⟨signedIdPk, ⟨rsPk, theirPk, isKey, cert, read, conn⟩, given⟩ := all
  refine ⟨rsPk, theirPk, isKey, given _ cert, ?_, conn⟩
  refine List.mem_append_right _ ?_
  rw [read]
  exact List.mem_singleton.mpr rfl

theorem secureTcp_sent (rsPk : Option Name) (env : ExchangeEnv) (conn : Stream) :
    KeyMessage i (secureTcp rsPk i env conn).sent := by
  unfold secureTcp
  split
  · exact .inl rfl
  · exact .inl rfl
  · exact .inl rfl
  · split
    · exact .inl rfl
    · split
      · exact .inl rfl
      · exact sendSessionKey_sent _ _ _ _ _
  · exact .inl rfl

end Client

/-- A host sends nothing but its box key, signed with its id. -/
theorem offerIdentity_sent {s h : Nat} {id : String} {env : OfferEnv} {t : Term}
    (mem : t ∈ (offerIdentity s h id env).1) :
    t = .sign (idPk id (.pub (.boxKey s))) (.host h) := by
  unfold offerIdentity at mem
  split at mem
  · exact absurd mem (by simp)
  · split at mem
    · exact absurd mem (by simp)
    · split at mem
      · exact absurd mem (by simp)
      · exact List.mem_singleton.mp mem

/-- A connection starts with a key that was boxed for it. -/
theorem acceptSessionKey_ok {s : Nat} {read : Read} {activates : Bool} {conn : Stream}
    (h : acceptSessionKey s read activates = .ok conn) :
    ∃ theirPk key, conn = ⟨some key⟩ ∧
      (.box key theirPk (.boxKey s) ∈ read.terms ∨
        .box key (.boxKey s) theirPk ∈ read.terms) := by
  match read, h with
  | .bytes (some (.publicKey asymmetricValue symmetricValue)), h =>
    cases isKey : getPk asymmetricValue with
    | none => simp [acceptSessionKey, isKey] at h
    | some theirPk =>
      cases opened : openBox symmetricValue theirPk (.boxKey s) with
      | none => simp [acceptSessionKey, isKey, opened] at h
      | some key =>
        cases activates with
        | false => simp [acceptSessionKey, isKey, opened, Stream.setKey, Stream.isSecured] at h
        | true =>
          have same : (⟨some key⟩ : Stream) = conn := by
            simpa [acceptSessionKey, isKey, opened, Stream.setKey, Stream.isSecured] using h
          refine ⟨theirPk, key, same.symm, ?_⟩
          simp only [Read.terms, Message.terms, List.mem_cons, List.not_mem_nil, or_false]
          rcases openBox_eq_some.mp opened with eq | eq
          · exact .inl (.inr eq.symm)
          · exact .inr (.inr eq.symm)

end CamelliaRemote.Handshake
