import CamelliaRemote.Lib.Tally
import CamelliaRemote.Protocol

/-!
The choice of a codec, `libs/scrap/src/common/codec.rs`. `Encoder::update` keeps what every peer
can decode and chooses one codec for all of them: the most frequent of the preferences that can be
met, or else an automatic choice. Whether a hardware encoder is there, the options and the memory
are read from outside at every update, and the map of the peers is gone through in an order of its
own.
-/

namespace CamelliaRemote.Video

inductive PreferCodec where
  | auto
  | vp9
  | h264
  | h265
  | vp8
  | av1
  deriving DecidableEq, Repr

inductive CodecFormat where
  | vp8
  | vp9
  | av1
  | h264
  | h265
  | unknown
  deriving DecidableEq, Repr

/-- The fields that the choice reads. -/
structure SupportedDecoding where
  abilityVp8 : Int := 0
  abilityVp9 : Int := 0
  abilityAv1 : Int := 0
  abilityH264 : Int := 0
  abilityH265 : Int := 0
  prefer : EnumOrUnknown PreferCodec := some .auto
  deriving DecidableEq, Repr

structure SupportedEncoding where
  vp8 : Bool
  av1 : Bool
  h264 : Bool
  h265 : Bool
  deriving DecidableEq, Repr

def SupportedDecoding.ability (s : SupportedDecoding) : CodecFormat → Int
  | .vp8 => s.abilityVp8
  | .vp9 => s.abilityVp9
  | .av1 => s.abilityAv1
  | .h264 => s.abilityH264
  | .h265 => s.abilityH265
  | .unknown => 0

/-- `PEER_DECODINGS`. -/
abbrev Decodings := List (Int × SupportedDecoding)

/-- What one update reads from outside. -/
structure Env where
  disableAv1 : Bool := false
  /-- The feature and the option for encoders in video memory. -/
  enableVram : Bool := false
  vramAvailable : CodecFormat → Nat := fun _ => 0
  enableHwcodec : Bool := false
  /-- `HwRamEncoder::try_get`, by name. -/
  tryGet : CodecFormat → Option String := fun _ => none
  av1Test : Bool := true
  totalMemory : Nat
  /-- The order in which the map is gone through. -/
  iter : Decodings → Decodings := id
  iter_perm : ∀ ds, (iter ds).Perm ds

inductive EncodingUpdate where
  | update (id : Int) (decoding : SupportedDecoding)
  | remove (id : Int)
  | newOnlyVp9 (id : Int)
  | check

/-- `HashMap::insert`. -/
def insert (ds : Decodings) (id : Int) (decoding : SupportedDecoding) : Decodings :=
  ds.filter (·.1 ≠ id) ++ [(id, decoding)]

/-- The peers after an event. -/
def EncodingUpdate.apply (ds : Decodings) : EncodingUpdate → Decodings
  | .update id decoding => insert ds id decoding
  | .remove id => ds.filter (·.1 ≠ id)
  | .newOnlyVp9 id => insert ds id { abilityVp9 := 1 }
  | .check => ds

/-- There are peers, and all of them decode the format. -/
def allSupport (ds : Decodings) (format : CodecFormat) : Bool :=
  0 < ds.length && ds.all fun d => 0 < d.2.ability format

def vramEncoding (env : Env) (ds : Decodings) (format : CodecFormat) : Bool :=
  env.enableVram && allSupport ds format && 0 < env.vramAvailable format

def hwEncoding (env : Env) (ds : Decodings) (format : CodecFormat) : Option String :=
  if env.enableHwcodec && allSupport ds format then env.tryGet format else none

def hasEncoder (env : Env) (ds : Decodings) (format : CodecFormat) : Bool :=
  vramEncoding env ds format || (hwEncoding env ds format).isSome

def vp8Useable (ds : Decodings) : Bool := allSupport ds .vp8

def av1Useable (env : Env) (ds : Decodings) : Bool := allSupport ds .av1 && !env.disableAv1

def h264Useable (env : Env) (ds : Decodings) : Bool :=
  allSupport ds .h264 && hasEncoder env ds .h264

def h265Useable (env : Env) (ds : Decodings) : Bool :=
  allSupport ds .h265 && hasEncoder env ds .h265

/-- A preference that can be met; VP9 always counts. -/
def meets (env : Env) (ds : Decodings) (prefer : EnumOrUnknown PreferCodec) : Bool :=
  prefer = some .vp9 || prefer = some .vp8 && vp8Useable ds ||
    prefer = some .av1 && av1Useable env ds || prefer = some .h264 && h264Useable env ds ||
    prefer = some .h265 && h265Useable env ds

def preferences (env : Env) (ds : Decodings) : List (EnumOrUnknown PreferCodec) :=
  (ds.filter fun d => meets env ds d.2.prefer).map (·.2.prefer)

def usedPreference (env : Env) (ds : Decodings) : PreferCodec :=
  ((Tally.mostFrequent (preferences env ds)).getD (some .auto)).getD .auto

def autoCodec (env : Env) (ds : Decodings) : CodecFormat :=
  let auto := if av1Useable env ds && env.av1Test then .av1 else .vp9
  let auto := if h264Useable env ds then .h264 else auto
  let auto := if h265Useable env ds then .h265 else auto
  if (auto = .vp9 || auto = .av1) && (vp8Useable ds && env.totalMemory ≤ 4 * 1024 * 1024 * 1024)
  then .vp8 else auto

def chooseFormat (env : Env) (ds : Decodings) : CodecFormat :=
  match usedPreference env ds with
  | .vp8 => .vp8
  | .vp9 => .vp9
  | .av1 => .av1
  | .h264 => if hasEncoder env ds .h264 then .h264 else autoCodec env ds
  | .h265 => if hasEncoder env ds .h265 then .h265 else autoCodec env ds
  | .auto => autoCodec env ds

structure Encoder where
  peerDecodings : Decodings := []
  encodeCodecFormat : CodecFormat := .vp9
  usableEncoding : Option SupportedEncoding := none

/-- `Encoder::update`. -/
def Encoder.update (env : Env) (s : Encoder) (u : EncodingUpdate) : Encoder :=
  let peers := u.apply s.peerDecodings
  let decodings := env.iter peers
  { peerDecodings := peers
    usableEncoding := some {
      vp8 := vp8Useable decodings
      av1 := av1Useable env decodings
      h264 := h264Useable env decodings
      h265 := h265Useable env decodings }
    encodeCodecFormat := chooseFormat env decodings }

end CamelliaRemote.Video
