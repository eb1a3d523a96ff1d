import CamelliaRemote.Server.State

namespace CamelliaRemote.Server

/-- `SESSION_TIMEOUT` in milliseconds. -/
def sessionTimeout : Nat := 30000

/-- `elapsed()` of the entry's last receive time is within the timeout. -/
def Session.live (now : Nat) (g : Globals) (s : Session) : Bool :=
  now - g.instants s.lastRecvTime < sessionTimeout

/-- The `retain` at the head of `is_recent_session`. -/
def sweepSessions (now : Nat) (g : Globals) : Globals :=
  { g with sessions := fun key => (g.sessions key).filter (·.live now g) }

def insertSession (now : Nat) (g : Globals) (key : SessionKey) (password : String) (tfa : Bool) :
    Globals :=
  { g with
    sessions := Function.update g.sessions key (some ⟨password, tfa, g.nextInstant⟩)
    instants := Function.update g.instants g.nextInstant now
    nextInstant := g.nextInstant + 1 }

def updateOrInsertSession (now : Nat) (g : Globals) (key : SessionKey)
    (password : Option String) (tfa : Option Bool) : Globals :=
  match g.sessions key with
  | some s =>
    let s := { s with
      randomPassword := password.getD s.randomPassword
      tfa := tfa.getD s.tfa }
    { g with sessions := Function.update g.sessions key (some s) }
  | none => insertSession now g key (password.getD "") (tfa.getD false)

def setSession2fa (now : Nat) (g : Globals) (key : SessionKey) : Globals :=
  match g.sessions key with
  | some s => { g with sessions := Function.update g.sessions key (some { s with tfa := true }) }
  | none => insertSession now g key "" true

def checkRemoveSession (g : Globals) (connId : Nat) (key : SessionKey) : Globals :=
  if (g.sessions key).isSome then
    let isRemote := g.authedConns.any fun c => c.connId == connId && c.connType == .remote
    let anotherRemote := g.authedConns.any fun c =>
      c.connId != connId && c.sessionKey == key && c.connType == .remote
    if isRemote || !anotherRemote then { g with sessions := Function.update g.sessions key none }
    else g
  else g

/-- The entry of the key says that the second factor was given. -/
def Globals.tfa (g : Globals) (key : SessionKey) : Bool := (g.sessions key).any (·.tfa)

theorem sweepSessions_some {now : Nat} {g : Globals} {key : SessionKey} {s : Session}
    (h : (sweepSessions now g).sessions key = some s) :
    g.sessions key = some s ∧ s.live now g = true := by
  simpa [sweepSessions, Option.filter_eq_some_iff] using h

theorem tfa_sweepSessions {now : Nat} {g : Globals} {key : SessionKey}
    (h : (sweepSessions now g).tfa key = true) : g.tfa key = true := by
  simp only [Globals.tfa, Option.any_eq_true] at h ⊢
  obtain ⟨s, found, tfa⟩ := h
  exact ⟨s, (sweepSessions_some found).1, tfa⟩

theorem tfa_updateOrInsertSession {now : Nat} {g : Globals} {key key' : SessionKey}
    {password : Option String} :
    (updateOrInsertSession now g key password (some false)).tfa key' =
      if key' = key then false else g.tfa key' := by
  unfold updateOrInsertSession
  split <;> by_cases same : key' = key <;>
    simp [Globals.tfa, insertSession, same]

theorem tfa_setSession2fa {now : Nat} {g : Globals} {key key' : SessionKey} :
    (setSession2fa now g key).tfa key' = if key' = key then true else g.tfa key' := by
  unfold setSession2fa
  split <;> by_cases same : key' = key <;>
    simp [Globals.tfa, insertSession, same]

theorem tfa_checkRemoveSession {g : Globals} {connId : Nat} {key key' : SessionKey}
    (h : (checkRemoveSession g connId key).tfa key' = true) : g.tfa key' = true := by
  unfold checkRemoveSession at h
  split at h
  · simp only at h
    split at h
    · by_cases same : key' = key <;> simp_all [Globals.tfa]
    · exact h
  · exact h

end CamelliaRemote.Server
