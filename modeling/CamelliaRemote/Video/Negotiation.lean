import CamelliaRemote.Lib.Runs
import CamelliaRemote.Video.Encoder

namespace CamelliaRemote.Video
open Runs Tally

def AllDecode (ds : Decodings) (format : CodecFormat) : Prop :=
  ∀ d ∈ ds, 0 < d.2.ability format

instance (ds : Decodings) (format : CodecFormat) : Decidable (AllDecode ds format) :=
  inferInstanceAs (Decidable (∀ d ∈ ds, 0 < d.2.ability format))

/-- The host can encode the format. -/
def Encodable (env : Env) : CodecFormat → Bool
  | .vp8 | .vp9 => true
  | .av1 => !env.disableAv1
  | format@(.h264) | format@(.h265) =>
    env.enableVram && 0 < env.vramAvailable format ||
      env.enableHwcodec && (env.tryGet format).isSome
  | .unknown => false

/-- Some codec that the host encodes is decoded by all peers. -/
def Common (env : Env) (ds : Decodings) : Prop := ∃ f, Encodable env f ∧ AllDecode ds f

/-- There are peers, they all decode the format, and the host encodes it. -/
def Usable (env : Env) (ds : Decodings) (format : CodecFormat) : Prop :=
  ds ≠ [] ∧ Encodable env format ∧ AllDecode ds format

/-- If a codec would do for all peers, the one in use does. -/
def Picture (env : Env) (s : Encoder) : Prop :=
  Common env s.peerDecodings → AllDecode s.peerDecodings s.encodeCodecFormat

/-- Nothing is left for the automatic choice but VP9. -/
def OnlyVp9 (env : Env) (ds : Decodings) : Prop :=
  ¬ Usable env ds .h265 ∧ ¬ Usable env ds .h264 ∧ ¬ (Usable env ds .av1 ∧ env.av1Test) ∧
    ¬ (Usable env ds .vp8 ∧ env.totalMemory ≤ 4 * 1024 * 1024 * 1024)

/-- VP9 is the choice for the peers: it is the most frequent of the preferences that can
be met, in the order of the map, or there are none and nothing else is left. -/
def Vp9Due (env : Env) (ds : Decodings) : Prop :=
  Wins (preferences env ds) (some .vp9) ∨ preferences env ds = [] ∧ OnlyVp9 env ds

/-- VP9 is the choice, some peer does not decode it, and another codec would do. -/
def Starves (env : Env) (ds : Decodings) : Prop :=
  Common env ds ∧ ¬ AllDecode ds .vp9 ∧ Vp9Due env (env.iter ds)

variable {env : Env} {ds : Decodings}

theorem allSupport_iff {format : CodecFormat} :
    allSupport ds format = true ↔ ds ≠ [] ∧ AllDecode ds format := by
  simp only [allSupport, Bool.and_eq_true, decide_eq_true_eq, List.length_pos_iff, AllDecode,
    List.all_eq_true]

theorem vp8Useable_iff : vp8Useable ds = true ↔ Usable env ds .vp8 := by
  simp [vp8Useable, allSupport_iff, Usable, Encodable]

theorem av1Useable_iff : av1Useable env ds = true ↔ Usable env ds .av1 := by
  simp only [av1Useable, Bool.and_eq_true, allSupport_iff, Usable, Encodable]
  tauto

theorem hasEncoder_iff {format : CodecFormat} (all : allSupport ds format = true) :
    hasEncoder env ds format = true ↔
      env.enableVram && 0 < env.vramAvailable format ||
        env.enableHwcodec && (env.tryGet format).isSome := by
  unfold hasEncoder vramEncoding hwEncoding
  rw [all]
  cases env.enableHwcodec <;> simp

theorem hardware_iff {format : CodecFormat} (isH26x : format = .h264 ∨ format = .h265) :
    (allSupport ds format && hasEncoder env ds format) = true ↔ Usable env ds format := by
  have encodable : Encodable env format =
      (env.enableVram && 0 < env.vramAvailable format ||
        env.enableHwcodec && (env.tryGet format).isSome) := by
    rcases isH26x with rfl | rfl <;> rfl
  rw [Bool.and_eq_true, Usable, encodable]
  constructor
  · rintro ⟨all, encoder⟩
    exact ⟨(allSupport_iff.mp all).1, (hasEncoder_iff all).mp encoder, (allSupport_iff.mp all).2⟩
  · rintro ⟨some, encoder, all⟩
    have all := allSupport_iff.mpr ⟨some, all⟩
    exact ⟨all, (hasEncoder_iff all).mpr encoder⟩

theorem h264Useable_iff : h264Useable env ds = true ↔ Usable env ds .h264 :=
  hardware_iff (.inl rfl)

theorem h265Useable_iff : h265Useable env ds = true ↔ Usable env ds .h265 :=
  hardware_iff (.inr rfl)

/-- The preferences that are counted. -/
theorem mem_preferences {prefer : EnumOrUnknown PreferCodec} (h : prefer ∈ preferences env ds) :
    prefer = some .vp9 ∨ prefer = some .vp8 ∧ Usable env ds .vp8 ∨
      prefer = some .av1 ∧ Usable env ds .av1 ∨ prefer = some .h264 ∧ Usable env ds .h264 ∨
      prefer = some .h265 ∧ Usable env ds .h265 := by
  obtain ⟨d, mem, rfl⟩ := List.mem_map.mp h
  have met := (List.mem_filter.mp mem).2
  simp only [meets, Bool.or_eq_true, Bool.and_eq_true, decide_eq_true_eq, @vp8Useable_iff env,
    av1Useable_iff, h264Useable_iff, h265Useable_iff] at met
  tauto

/-- Every automatic choice but VP9 is usable, and VP9 is the last. -/
theorem autoCodec_spec :
    autoCodec env ds = .vp9 ∧ OnlyVp9 env ds ∨
      autoCodec env ds ≠ .vp9 ∧ Usable env ds (autoCodec env ds) ∧ ¬ OnlyVp9 env ds := by
  have off : ∀ {b : Bool} {p : Prop}, (b = true ↔ p) → ¬ p → b = false := fun h notP => by
    rw [← Bool.not_eq_true, h]
    exact notP
  by_cases h5 : Usable env ds .h265
  · have auto : autoCodec env ds = .h265 := by simp [autoCodec, h265Useable_iff.mpr h5]
    exact .inr ⟨by simp [auto], auto ▸ h5, fun only => only.1 h5⟩
  have no5 := off h265Useable_iff h5
  by_cases h4 : Usable env ds .h264
  · have auto : autoCodec env ds = .h264 := by simp [autoCodec, no5, h264Useable_iff.mpr h4]
    exact .inr ⟨by simp [auto], auto ▸ h4, fun only => only.2.1 h4⟩
  have no4 := off h264Useable_iff h4
  by_cases h8 : Usable env ds .vp8 ∧ env.totalMemory ≤ 4 * 1024 * 1024 * 1024
  · have auto : autoCodec env ds = .vp8 := by
      by_cases h1 : av1Useable env ds && env.av1Test <;>
        simp [autoCodec, no5, no4, h1, vp8Useable_iff.mpr h8.1, h8.2]
    exact .inr ⟨by simp [auto], auto ▸ h8.1, fun only => only.2.2.2 h8⟩
  have no8 : (vp8Useable ds && decide (env.totalMemory ≤ 4 * 1024 * 1024 * 1024)) = false := by
    refine off ?_ h8
    rw [Bool.and_eq_true, decide_eq_true_eq, @vp8Useable_iff env]
  by_cases h1 : Usable env ds .av1 ∧ env.av1Test
  · have auto : autoCodec env ds = .av1 := by
      simp [autoCodec, no5, no4, av1Useable_iff.mpr h1.1, h1.2, no8]
    exact .inr ⟨by simp [auto], auto ▸ h1.1, fun only => only.2.2.1 h1⟩
  · have no1 : (av1Useable env ds && env.av1Test) = false := by
      refine off ?_ h1
      rw [Bool.and_eq_true, av1Useable_iff]
    have auto : autoCodec env ds = .vp9 := by simp [autoCodec, no5, no4, no1, no8]
    exact .inl ⟨auto, h5, h4, h1, h8⟩

theorem hasEncoder_of_usable {format : CodecFormat} (isH26x : format = .h264 ∨ format = .h265)
    (h : Usable env ds format) : hasEncoder env ds format = true :=
  ((Bool.and_eq_true _ _).mp ((hardware_iff isH26x).mpr h)).2

/-- The choice by a preference that is the most frequent. -/
theorem chooseFormat_of_wins {prefer : EnumOrUnknown PreferCodec}
    (h : mostFrequent (preferences env ds) = some prefer) :
    prefer = some .vp9 ∧ chooseFormat env ds = .vp9 ∨
      prefer ≠ some .vp9 ∧ chooseFormat env ds ≠ .vp9 ∧ Usable env ds (chooseFormat env ds) := by
  have used : usedPreference env ds = prefer.getD .auto := by simp [usedPreference, h]
  have mem := (mostFrequent_eq_some.mp h).1
  rcases mem_preferences mem with rfl | ⟨rfl, usable⟩ | ⟨rfl, usable⟩ | ⟨rfl, usable⟩ |
    ⟨rfl, usable⟩
  · exact .inl ⟨rfl, by simp [chooseFormat, used]⟩
  · have is : chooseFormat env ds = .vp8 := by simp [chooseFormat, used]
    exact .inr ⟨by simp, by simp [is], is ▸ usable⟩
  · have is : chooseFormat env ds = .av1 := by simp [chooseFormat, used]
    exact .inr ⟨by simp, by simp [is], is ▸ usable⟩
  · have is : chooseFormat env ds = .h264 := by
      simp [chooseFormat, used, hasEncoder_of_usable (.inl rfl) usable]
    exact .inr ⟨by simp, by simp [is], is ▸ usable⟩
  · have is : chooseFormat env ds = .h265 := by
      simp [chooseFormat, used, hasEncoder_of_usable (.inr rfl) usable]
    exact .inr ⟨by simp, by simp [is], is ▸ usable⟩

/-- **The choice**: a usable codec, or VP9 if it is due. -/
theorem chooseFormat_spec :
    chooseFormat env ds = .vp9 ∧ Vp9Due env ds ∨
      chooseFormat env ds ≠ .vp9 ∧ Usable env ds (chooseFormat env ds) ∧ ¬ Vp9Due env ds := by
  unfold Vp9Due
  cases h : mostFrequent (preferences env ds) with
  | none =>
    have empty := mostFrequent_eq_none.mp h
    have auto : chooseFormat env ds = autoCodec env ds := by
      simp [chooseFormat, usedPreference, h]
    have noWinner : ¬ Wins (preferences env ds) (some .vp9) := by
      rw [empty]
      exact fun wins => List.not_mem_nil wins.1
    rw [auto]
    rcases @autoCodec_spec env ds with ⟨is, only⟩ | ⟨isNot, usable, more⟩
    · exact .inl ⟨is, .inr ⟨empty, only⟩⟩
    · refine .inr ⟨isNot, usable, ?_⟩
      rintro (wins | ⟨-, only⟩)
      · exact noWinner wins
      · exact more only
  | some prefer =>
    have nonempty : preferences env ds ≠ [] := by
      intro empty
      rw [mostFrequent_eq_none.mpr empty] at h
      cases h
    rcases chooseFormat_of_wins h with ⟨rfl, is⟩ | ⟨isNot, chosen, usable⟩
    · exact .inl ⟨is, .inl (mostFrequent_eq_some.mp h)⟩
    · refine .inr ⟨chosen, usable, ?_⟩
      rintro (wins | ⟨empty, -⟩)
      · rw [mostFrequent_eq_some.mpr wins, Option.some.injEq] at h
        exact isNot h.symm
      · exact nonempty empty

theorem allDecode_iter {format : CodecFormat} :
    AllDecode (env.iter ds) format ↔ AllDecode ds format := by
  unfold AllDecode
  simp only [(env.iter_perm ds).mem_iff]

/-- One update. -/
theorem picture_update_iff (env : Env) (s : Encoder) (u : EncodingUpdate) :
    Picture env (s.update env u) ↔ ¬ Starves env (u.apply s.peerDecodings) := by
  have chosen := @chooseFormat_spec env (env.iter (u.apply s.peerDecodings))
  change (Common env (u.apply s.peerDecodings) → AllDecode (u.apply s.peerDecodings)
    (chooseFormat env (env.iter (u.apply s.peerDecodings)))) ↔ _
  generalize u.apply s.peerDecodings = peers at chosen ⊢
  unfold Starves
  rcases chosen with ⟨is, due⟩ | ⟨isNot, usable, notDue⟩
  · rw [is]
    tauto
  · have all := allDecode_iter.mp usable.2.2
    tauto

/-- An update and what it reads from outside. -/
abbrev Event := Env × EncodingUpdate

def Encoder.step (s : Encoder) (e : Event) : Encoder := s.update e.1 e.2

/-- **Every peer has a picture** after every update of a run, exactly if no update leaves
a peer without VP9 to a choice of VP9 while another codec would do. -/
theorem picture_for_all_iff (s : Encoder) (es : List Event) :
    Along Encoder.step (fun s e => Picture e.1 (s.step e)) s es ↔
      Along Encoder.step (fun s e => ¬ Starves e.1 (e.2.apply s.peerDecodings)) s es := by
  constructor
  · exact along_mono fun s (e : Event) => (picture_update_iff e.1 s e.2).mp
  · exact along_mono fun s (e : Event) => (picture_update_iff e.1 s e.2).mpr

/-- A host without hardware encoders. -/
def plainEnv : Env := { totalMemory := 8 * 1024 * 1024 * 1024, iter_perm := fun _ => .refl _ }

/-- A peer that decodes VP8 and AV1 only, and prefers nothing. With the AV1 test failed
and 8 GiB of memory it is sent VP9. -/
theorem vp9_for_peer_without :
    ¬ Along Encoder.step (fun s e => Picture e.1 (s.step e)) {}
      [({ plainEnv with av1Test := false }, .update 1 { abilityVp8 := 1, abilityAv1 := 1 })] := by
  rintro ⟨picture, -⟩
  have common : Common { plainEnv with av1Test := false }
      [(1, { abilityVp8 := 1, abilityAv1 := 1 })] :=
    ⟨.vp8, rfl, by decide⟩
  have sent := picture common
  revert sent
  decide

end CamelliaRemote.Video
