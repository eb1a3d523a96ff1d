import CamelliaRemote.Server.Authorized

namespace CamelliaRemote.Server

variable {p : Host} {t : AuthConnType}

/-- The effects and the options that a message leaves within a session type. -/
structure Confined (t : AuthConnType) (o o' : Options) (effects : List Effect) : Prop where
  input : ∀ m, .input m ∉ effects
  mobilePointer : ∀ kind mask x y, .mobilePointer kind mask x y ∉ effects
  mobileKey : ∀ ke, .mobileKey ke ∉ effects
  lockScreen : .lockScreen ∉ effects
  clipboard : ∀ cbs, .updateClipboard cbs ∉ effects
  fileClipboard : ∀ clip, .serveFileClipboard clip ∉ effects ∧ .cm (.clipboardFile clip) ∉ effects
  emptyClipboard : .tryEmptyFileClipboard ∉ effects
  privacyMode : ∀ implKey, .turnOnPrivacy implKey ∉ effects
  resolution : ∀ display r, .changeResolution display r ∉ effects
  fileSystem : t ≠ .fileTransfer → ∀ f, .cm (.fs f) ∉ effects
  terminal : t ≠ .terminal → ∀ serviceId persistent action,
    .handleTerminalAction serviceId persistent action ∉ effects
  imageQuality : t ≠ .viewCamera → ∀ quality, .userImageQuality quality ∉ effects
  fps : t ≠ .viewCamera → ∀ fps, .userCustomFps fps ∉ effects
  decoding : t ≠ .viewCamera → ∀ decoding, .encoderUpdate decoding ∉ effects
  persistence : t ≠ .terminal → ∀ serviceId persistent,
    .setTerminalPersistent serviceId persistent ∉ effects
  options : ∃ disableAudio terminalPersistent, o' = { o with disableAudio, terminalPersistent } ∧
    (t ≠ .viewCamera → disableAudio = o.disableAudio) ∧
    (t ≠ .terminal → terminalPersistent = o.terminalPersistent)

theorem Confined.of_within {o o' : Options} {effects : List Effect}
    (within : ∀ e ∈ effects, e.within t = true) (options : Options.Within t o o') :
    Confined t o o' effects where
  input _ done := nomatch within _ done
  mobilePointer _ _ _ _ done := nomatch within _ done
  mobileKey _ done := nomatch within _ done
  lockScreen done := nomatch within _ done
  clipboard _ done := nomatch within _ done
  fileClipboard _ := ⟨fun done => (nomatch within _ done), fun done => (nomatch within _ done)⟩
  emptyClipboard done := nomatch within _ done
  privacyMode _ done := nomatch within _ done
  resolution _ _ done := nomatch within _ done
  fileSystem type _ done := type (by simpa [Effect.within] using within _ done)
  terminal type _ _ _ done := type (by simpa [Effect.within] using within _ done)
  imageQuality type _ done := type (by simpa [Effect.within] using within _ done)
  fps type _ done := type (by simpa [Effect.within] using within _ done)
  decoding type _ done := type (by simpa [Effect.within] using within _ done)
  persistence type _ _ done := type (by simpa [Effect.within] using within _ done)
  options := ⟨_, _, options, fun type => if_neg type, fun type => if_neg type⟩

/-- **Session scope is enforced.** In every run, a message to an authorized
connection that is no remote session does and sets only what its type is for. -/
theorem session_scope_enforced (es : List Event) {id : Nat} {l : Live}
    (found : (World.run p {} es).conns id = some l) (authorized : l.conn.authorized = true)
    (authed : l.conn.authedConnId = some t) (type : t ≠ .remote) (g : Globals) (env : Env)
    (msg : Message) :
    Confined t l.conn.options (onMessage p env ⟨g, l.conn, []⟩ msg).1.conn.options
      (onMessage p env ⟨g, l.conn, []⟩ msg).1.effects := by
  obtain ⟨t', typed⟩ := (run_sound es id l found).typed authorized
  have same : t' = t := Option.some.inj (typed.authed.symm.trans authed)
  subst same
  have kept : InScope t' ⟨g, l.conn, []⟩ (onMessage p env ⟨g, l.conn, []⟩ msg).1 :=
    onMessage_inScope msg typed authorized (absurd · type)
  obtain ⟨done, effects, within⟩ := kept.effects type
  rw [List.nil_append] at effects
  exact .of_within (effects ▸ within) (kept.options type)

/-- A file transfer that the local user accepts. -/
def sampleFileTransfer : List Event :=
  [.opened (sampleOpening none),
    .turn 1 sampleEnv (sampleRequest (some (.fileTransfer "" false)) []),
    .turn 1 sampleEnv (.cm .authorize)]

/-- It takes no key and no option of another type. -/
theorem session_scope_enforced_fileTransfer :
    ∃ l, (World.run sampleHost {} sampleFileTransfer).conns 1 = some l ∧
      ∀ g env msg, Confined .fileTransfer l.conn.options
        (onMessage sampleHost env ⟨g, l.conn, []⟩ msg).1.conn.options
        (onMessage sampleHost env ⟨g, l.conn, []⟩ msg).1.effects := by
  have live : ((World.run sampleHost {} sampleFileTransfer).conns 1).any (fun l =>
      l.conn.authorized && l.conn.authedConnId = some .fileTransfer) = true := by
    decide +kernel
  simp only [Option.any_eq_true, Bool.and_eq_true, decide_eq_true_eq] at live
  obtain ⟨l, found, authorized, authed⟩ := live
  exact ⟨l, found, session_scope_enforced sampleFileTransfer found authorized authed (by decide)⟩

end CamelliaRemote.Server
