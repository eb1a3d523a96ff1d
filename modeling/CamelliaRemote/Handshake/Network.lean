import CamelliaRemote.Handshake.Session
import CamelliaRemote.Lib.Runs

/-!
Handshakes over a network that belongs to the attacker. Any number of clients, hosts and key
exchanges run side by side. Whatever is sent is known to the attacker, and whatever is read is
something the attacker can derive, old messages included. The attacker also has names of its own
and the signing keys of the hosts in `compromised`. What can be derived once can be derived ever
after, so a call that reads several times is one event, at its last read.

The rendezvous server is not part of the repository. What it signs is what the parties accept from
it: an identity with a key, for any id and any key that someone registers, and a box key of its
own for a key exchange.
-/

namespace CamelliaRemote.Handshake
open Symbolic

/-- `connection` is the stream that `Connection::start` was called with. -/
structure HostSession where
  host : Nat
  id : String
  waiting : Bool
  connection : Option Stream := none

/-- One call of `_start_inner`. -/
structure ClientSession where
  peerId : String
  key : String
  result : Except String (Connected × Bool)

structure World where
  sent : List Term := []
  certified : List (String × Name) := []
  hosts : Nat → Option HostSession := fun _ => none
  clients : Nat → Option ClientSession := fun _ => none
  /-- The messages with a session key for the rendezvous server. -/
  exchanged : List Nat := []

inductive Event where
  | certify (id : String) (pk : Name)
  | keyExchange (i : Nat)
  | secureTcp (i : Nat) (key : String) (env : ExchangeEnv)
  | offer (s h : Nat) (id : String) (env : OfferEnv)
  | accept (s : Nat) (read : Read) (activates : Bool)
  | start (i : Nat) (peerId key : String) (env : StartEnv)
  /-- The owner of a stream sends on it. -/
  | clientData (i : Nat) (payload : Term)
  | hostData (s : Nat) (payload : Term)

namespace World

/-- The `i`-th message with a session key has not been made. -/
def Fresh (w : World) (i : Nat) : Prop := (w.clients i).isNone ∧ i ∉ w.exchanged

instance (w : World) (i : Nat) : Decidable (w.Fresh i) := inferInstanceAs (Decidable (_ ∧ _))

def send (w : World) (terms : List Term) : World := { w with sent := w.sent ++ terms }

def setHost (w : World) (s : Nat) (hs : HostSession) : World :=
  { w with hosts := fun t => if t = s then some hs else w.hosts t }

def setClient (w : World) (i : Nat) (cs : ClientSession) : World :=
  { w with clients := fun j => if j = i then some cs else w.clients j }

@[simp] theorem hosts_setHost (w : World) (s : Nat) (hs : HostSession) :
    (w.setHost s hs).hosts s = some hs := by
  simp [setHost]

theorem hosts_setHost_of_ne {w : World} {s t : Nat} {hs : HostSession} (other : t ≠ s) :
    (w.setHost s hs).hosts t = w.hosts t := by
  simp [setHost, other]

/-- What goes over a stream for a payload. -/
def onStream (conn : Stream) (payload : Term) : Term :=
  match conn.key with
  | some key => .secretbox payload key
  | none => payload

def offer (w : World) (s h : Nat) (id : String) (env : OfferEnv) : World :=
  if (w.hosts s).isSome then w
  else
    let (sent, result) := offerIdentity s h id env
    (w.send sent).setHost s { host := h, id, waiting := result.isOk }

def accept (w : World) (s : Nat) (read : Read) (activates : Bool) : World :=
  match w.hosts s with
  | none => w
  | some hs =>
    if hs.waiting then
      w.setHost s { hs with
        waiting := false
        connection := (acceptSessionKey s read activates).toOption }
    else w

def start (config : Config) (w : World) (i : Nat) (peerId key : String) (env : StartEnv) : World :=
  if w.Fresh i then
    let started := startInner config i peerId key env
    (w.send started.sent).setClient i { peerId, key, result := started.result }
  else w

def secureTcp (config : Config) (w : World) (i : Nat) (key : String) (env : ExchangeEnv) : World :=
  if w.Fresh i then
    let secured := Handshake.secureTcp (config.getRsPk key) i env {}
    { w.send secured.sent with exchanged := i :: w.exchanged }
  else w

def clientData (w : World) (i : Nat) (payload : Term) : World :=
  match w.clients i with
  | some ⟨_, _, .ok r⟩ => w.send [onStream r.1.conn payload]
  | _ => w

def hostData (w : World) (s : Nat) (payload : Term) : World :=
  match (w.hosts s).bind (·.connection) with
  | some conn => w.send [onStream conn payload]
  | none => w

def step (config : Config) (w : World) : Event → World
  | .certify id pk =>
    { w with
      sent := w.sent ++ [.sign (idPk id (.pub pk)) .rendezvous]
      certified := (id, pk) :: w.certified }
  | .keyExchange i => w.send [.sign (.pub (.exchange i)) .rendezvous]
  | .secureTcp i key env => w.secureTcp config i key env
  | .offer s h id env => w.offer s h id env
  | .accept s read activates => w.accept s read activates
  | .start i peerId key env => w.start config i peerId key env
  | .clientData i payload => w.clientData i payload
  | .hostData s payload => w.hostData s payload

/-- What the attacker has: all that was sent, and its own secret keys. -/
def Knows (compromised : Nat → Prop) (w : World) (t : Term) : Prop :=
  t ∈ w.sent ∨ (∃ i, t = .sec (.attacker i)) ∨ ∃ h, compromised h ∧ t = .sec (.host h)

def Derivable (compromised : Nat → Prop) (w : World) : Term → Prop :=
  Derives (w.Knows compromised)

end World

/-- What an event brings in from the network. -/
def Event.received : Event → List Term
  | .secureTcp _ _ env => env.terms
  | .accept _ read _ => read.terms
  | .start _ _ _ env => env.terms
  | .clientData _ payload | .hostData _ payload => [payload]
  | .certify _ _ | .keyExchange _ | .offer _ _ _ _ => []

/-- Everything that is read comes from the attacker. -/
def Admitted (compromised : Nat → Prop) (w : World) (e : Event) : Prop :=
  ∀ t ∈ e.received, w.Derivable compromised t

end CamelliaRemote.Handshake
