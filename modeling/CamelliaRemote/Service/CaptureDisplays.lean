import Std.Data.String.ToNat
import CamelliaRemote.Lib.TreeMaps
import CamelliaRemote.Service.Inner
import CamelliaRemote.Video.FramePacing
import Mathlib.Algebra.Ring.Int.Defs
import Mathlib.Algebra.Ring.Nat

/-!
Which displays a connection captures, `server/connection.rs` and `server.rs`. The services of the
server are found by their names, and those of the video sources are told from the others by the
beginning of the name.
-/

namespace CamelliaRemote.Service.CaptureDisplays
open Std (ExtTreeMap)
open Video.FramePacing (VideoSource)

variable {Msg : Type}

def serviceNamePrefix : VideoSource → String
  | .monitor => "monitor"
  | .camera => "camera"

def getServiceName (source : VideoSource) (idx : Nat) : String :=
  serviceNamePrefix source ++ toString idx

def startsWith (name start : String) : Bool := start.toList.isPrefixOf name.toList

def isVideoServiceName (name : String) : Bool :=
  startsWith name (serviceNamePrefix .monitor) || startsWith name (serviceNamePrefix .camera)

def nameWindowFocus : String := "window_focus"

/-- A service, in which no connection is subscribed twice. -/
structure Registered (Msg : Type) where
  inner : ServiceInner Msg
  apart : ∀ id : Int, (inner.subscribes[id]?).isSome → inner.newSubscribes[id]? = none
  unparked : inner.needSnapshot = false → inner.newSubscribes = ∅

namespace Registered

def new (needSnapshot : Bool) : Registered Msg where
  inner := { needSnapshot }
  apart := fun id => by simp
  unparked := fun _ => rfl

def isSubed (s : Registered Msg) (id : Int) : Bool :=
  (s.inner.subscribes[id]?).isSome || (s.inner.newSubscribes[id]?).isSome

def onSubscribe (s : Registered Msg) (id : Int) : Registered Msg where
  inner := s.inner.onSubscribe id
  apart := by
    obtain ⟨inner, apart, unparked⟩ := s
    unfold ServiceInner.onSubscribe
    split
    · exact apart
    split
    · exact fun j => by have := apart j; grind
    · rename_i without
      have none' := unparked (by simpa using without)
      exact fun j => by simp [none']
  unparked := by
    obtain ⟨inner, apart, unparked⟩ := s
    unfold ServiceInner.onSubscribe
    split
    · exact unparked
    split
    · rename_i needed
      exact fun without => absurd (without.symm.trans needed) (by decide)
    · exact unparked

def onUnsubscribe (s : Registered Msg) (id : Int) : Registered Msg where
  inner := s.inner.onUnsubscribe id
  apart := by
    obtain ⟨inner, apart, unparked⟩ := s
    unfold ServiceInner.onUnsubscribe
    split
    · exact fun j => by have := apart j; grind
    · exact fun j => by have := apart j; grind
  unparked := by
    obtain ⟨inner, apart, unparked⟩ := s
    unfold ServiceInner.onUnsubscribe
    split
    · exact unparked
    · exact fun without => by simp [unparked without]

end Registered

structure Server (Msg : Type) where
  services : ExtTreeMap String (Registered Msg) := ∅

namespace Server

variable (server : Server Msg)

def addService (name : String) (service : Registered Msg) : Server Msg :=
  ⟨server.services.insert name service⟩

def contains (name : String) : Bool := server.services.contains name

def subscribe (name : String) (conn : Int) (sub : Bool) : Server Msg :=
  match server.services[name]? with
  | some s =>
    if s.isSubed conn = sub then server
    else if sub then ⟨server.services.insert name (s.onSubscribe conn)⟩
    else ⟨server.services.insert name (s.onUnsubscribe conn)⟩
  | none => server

def isSubed (name : String) (conn : Int) : Bool :=
  match server.services[name]? with
  | some s => s.isSubed conn
  | none => false

def getSubbedDisplaysCount (conn : Int) : Nat :=
  (server.services.keys.filter fun name =>
    isVideoServiceName name && server.isSubed name conn).length

/-- One service in the loop of `capture_displays`. -/
def capture (conn : Int) (displays : List String) (include' exclude : Bool) (name : String) :
    Server Msg :=
  if isVideoServiceName name then
    if name ∈ displays then if include' then server.subscribe name conn true else server
    else if exclude then server.subscribe name conn false
    else server
  else server

def captureDisplays (conn : Int) (source : VideoSource) (displays : List Nat)
    (include' exclude : Bool) : Server Msg :=
  let displays := displays.map (getServiceName source)
  server.services.keys.foldl (fun server name =>
    server.capture conn displays include' exclude name) server

/-- `video_service::new` and `add_service`, where there is none of the name. -/
def ensure (source : VideoSource) (display : Nat) : Server Msg :=
  let name := getServiceName source display
  if server.contains name then server else server.addService name (.new true)

end Server

structure Connection where
  id : Int
  viewCamera : Bool
  followRemoteWindow : Bool
  multiUiSession : Bool
  deriving DecidableEq

def Connection.videoSource (c : Connection) : VideoSource :=
  if c.viewCamera then .camera else .monitor

/-- `as usize`, which keeps the sign. -/
def asUsize (d : Int32) : Nat := (d.toInt % 2 ^ 64).toNat

/-- The length of a vector. -/
structure SourceCount where
  count : Nat
  fits : count < 2 ^ 63

/-- `server` is what `upgrade` gives. -/
def captureDisplays (c : Connection) (sourceCount : SourceCount) (server : Option (Server Msg))
    (add sub set : List Nat) : Connection × Option (Server Msg) :=
  let valid := fun displays : List Nat => displays.filter fun d => d < sourceCount.count
  if !add.isEmpty && (valid add).isEmpty ||
      add.isEmpty && !sub.isEmpty && (valid sub).isEmpty ||
      add.isEmpty && sub.isEmpty && !set.isEmpty && (valid set).isEmpty then (c, server)
  else
    match server with
    | none => (c, none)
    | some server =>
      let server := (valid add).foldl (fun server d => server.ensure c.videoSource d) server
      let server := (valid set).foldl (fun server d => server.ensure c.videoSource d) server
      let server :=
        if !add.isEmpty then server.captureDisplays c.id c.videoSource (valid add) true false
        else if !sub.isEmpty then server.captureDisplays c.id c.videoSource (valid sub) false true
        else server.captureDisplays c.id c.videoSource (valid set) true true
      let c := { c with multiUiSession := 1 < server.getSubbedDisplaysCount c.id }
      if c.followRemoteWindow then
        (c, some (server.subscribe nameWindowFocus c.id (!c.multiUiSession)))
      else (c, some server)

/-- The handler of the message `CaptureDisplays`. -/
def handleCaptureDisplays (c : Connection) (sourceCount : SourceCount)
    (server : Option (Server Msg)) (add sub set : List Int32) :
    Connection × Option (Server Msg) :=
  captureDisplays c sourceCount server (add.map asUsize) (sub.map asUsize) (set.map asUsize)

/-- The list names the display `i`, and there are more than `i`. -/
def Valid (sourceCount : SourceCount) (displays : List Int32) (i : Nat) : Prop :=
  (i : Int) ∈ displays.map Int32.toInt ∧ i < sourceCount.count

def deciding (add sub set : List Int32) : List Int32 :=
  if add ≠ [] then add else if sub ≠ [] then sub else set

/-- The request asks for displays, and there is none of them. -/
def Ignored (sourceCount : SourceCount) (add sub set : List Int32) : Prop :=
  deciding add sub set ≠ [] ∧ ∀ i, ¬ Valid sourceCount (deciding add sub set) i

/-- The displays of its source that a connection is to be subscribed to, from those that it is
subscribed to. -/
def Requested (sourceCount : SourceCount) (add sub set : List Int32) (subscribed : Nat → Prop)
    (i : Nat) : Prop :=
  if add ≠ [] then subscribed i ∨ Valid sourceCount add i
  else if sub ≠ [] then subscribed i ∧ Valid sourceCount sub i
  else Valid sourceCount set i

variable {source source' : VideoSource} {i j : Nat} {name other : String}

theorem getServiceName_toList : (getServiceName source i).toList =
    (serviceNamePrefix source).toList ++ (toString i).toList := by
  rw [getServiceName, String.toList_append]

theorem getServiceName_inj :
    getServiceName source i = getServiceName source' j ↔ source = source' ∧ i = j := by
  constructor
  · intro same
    have lists := congrArg String.toList same
    rw [getServiceName_toList, getServiceName_toList] at lists
    have sources : source = source' := by
      cases source <;> cases source' <;> simp [serviceNamePrefix] at lists ⊢
    subst sources
    exact ⟨rfl, Nat.repr_injective (String.toList_inj.mp (List.append_cancel_left lists))⟩
  · rintro ⟨rfl, rfl⟩
    rfl

theorem isVideoServiceName_getServiceName : isVideoServiceName (getServiceName source i) := by
  have starts : startsWith (getServiceName source i) (serviceNamePrefix source) := by
    rw [startsWith, getServiceName_toList]
    exact List.isPrefixOf_iff_prefix.mpr (List.prefix_append _ _)
  cases source <;> simp [isVideoServiceName, starts]

theorem nameWindowFocus_not_video : isVideoServiceName nameWindowFocus = false := by decide

variable {s : Registered Msg} {server : Server Msg} {id conn : Int} {sub : Bool}

theorem isSubed_new {needSnapshot : Bool} :
    (Registered.new needSnapshot : Registered Msg).isSubed id = false := by
  simp [Registered.isSubed, Registered.new]

theorem isSubed_onSubscribe :
    (s.onSubscribe conn).isSubed id = (decide (id = conn) || s.isSubed id) := by
  simp only [Registered.isSubed, Registered.onSubscribe, ServiceInner.onSubscribe]
  split
  · by_cases same : id = conn <;> simp_all
  · split <;> by_cases same : id = conn <;> grind

theorem isSubed_onUnsubscribe :
    (s.onUnsubscribe conn).isSubed id = (decide (id ≠ conn) && s.isSubed id) := by
  have apart := s.apart conn
  simp only [Registered.isSubed, Registered.onUnsubscribe, ServiceInner.onUnsubscribe]
  split <;> by_cases same : id = conn <;> grind

namespace Server

theorem contains_iff : server.contains name ↔ ∃ s, server.services[name]? = some s := by
  rw [contains, Std.ExtTreeMap.contains_eq_isSome_getElem?, Option.isSome_iff_exists]

theorem isSubed_of_absent (absent : ¬ server.contains name) : server.isSubed name id = false := by
  rw [contains_iff] at absent
  unfold isSubed
  split
  · rename_i s found
    exact absurd ⟨s, found⟩ absent
  · rfl

theorem contains_subscribe :
    (server.subscribe name conn sub).contains other = server.contains other := by
  unfold subscribe
  split
  · rename_i s found
    split
    · rfl
    split
    all_goals
      have there : server.services.contains name := contains_iff.mpr ⟨s, found⟩
      by_cases same : name = other
      · subst same
        simp [contains, there]
      · simp [contains, same]
  · rfl

theorem isSubed_insert {s' : Registered Msg} :
    (⟨server.services.insert name s'⟩ : Server Msg).isSubed other id =
      if other = name then s'.isSubed id else server.isSubed other id := by
  unfold isSubed
  by_cases same : other = name
  · subst same
    simp
  · rw [TreeMaps.insert_of_ne same, if_neg same]

theorem isSubed_of_found (found : server.services[name]? = some s) :
    server.isSubed name id = s.isSubed id := by
  rw [isSubed, found]

theorem isSubed_subscribe : (server.subscribe name conn sub).isSubed other id =
    if other = name ∧ id = conn ∧ server.contains name then sub else server.isSubed other id := by
  unfold subscribe
  split
  · rename_i s found
    have there : server.contains name := contains_iff.mpr ⟨s, found⟩
    have before : server.isSubed name id = s.isSubed id := isSubed_of_found found
    split
    · rename_i already
      split
      · rename_i this
        obtain ⟨rfl, rfl, -⟩ := this
        rw [before, already]
      · rfl
    split
    · rename_i wanted
      rw [isSubed_insert, isSubed_onSubscribe]
      by_cases same : other = name
      · subst same
        by_cases this : id = conn <;> simp [this, there, wanted, before]
      · simp [same]
    · rename_i wanted
      rw [isSubed_insert, isSubed_onUnsubscribe]
      by_cases same : other = name
      · subst same
        by_cases this : id = conn <;> simp_all
      · simp [same]
  · rename_i absent
    have missing : ¬ server.contains name := by
      rw [contains_iff]
      rintro ⟨s, found⟩
      simp [absent] at found
    simp [missing]

/-- What the loop does with the service of a name. -/
def change (displays : List String) (include' exclude : Bool) (name : String) : Option Bool :=
  if isVideoServiceName name then
    if name ∈ displays then if include' then some true else none
    else if exclude then some false else none
  else none

variable {displays : List String} {include' exclude : Bool} {names : List String}

theorem capture_eq : server.capture conn displays include' exclude name =
    match change displays include' exclude name with
    | some sub => server.subscribe name conn sub
    | none => server := by
  unfold capture change
  split_ifs <;> rfl

theorem contains_capture : (server.capture conn displays include' exclude name).contains other =
    server.contains other := by
  rw [capture_eq]
  split
  · exact contains_subscribe
  · rfl

theorem isSubed_capture :
    (server.capture conn displays include' exclude name).isSubed other id =
      if other = name ∧ id = conn ∧ server.contains name then
        (change displays include' exclude name).getD (server.isSubed other id)
      else server.isSubed other id := by
  rw [capture_eq]
  cases changed : change displays include' exclude name with
  | some sub => exact isSubed_subscribe
  | none => simp

theorem contains_foldl_capture :
    (names.foldl (fun server name => server.capture conn displays include' exclude name)
      server).contains other = server.contains other := by
  induction names generalizing server with
  | nil => rfl
  | cons name names ih => rw [List.foldl_cons, ih, contains_capture]

/-- In whatever order the names come, and however often. -/
theorem isSubed_foldl_capture :
    (names.foldl (fun server name => server.capture conn displays include' exclude name)
      server).isSubed other id =
      if other ∈ names ∧ id = conn ∧ server.contains other then
        (change displays include' exclude other).getD (server.isSubed other id)
      else server.isSubed other id := by
  induction names generalizing server with
  | nil => simp
  | cons name names ih =>
    rw [List.foldl_cons, ih, contains_capture, isSubed_capture]
    by_cases same : other = name
    · subst same
      by_cases this : id = conn ∧ server.contains other
      · cases changed : change displays include' exclude other <;> simp [this]
      · simp [this]
    · simp [same]

theorem isSubed_captureDisplays {displays : List Nat} :
    (server.captureDisplays conn source displays include' exclude).isSubed other id =
      if id = conn ∧ server.contains other then
        (change (displays.map (getServiceName source)) include' exclude other).getD
          (server.isSubed other id)
      else server.isSubed other id := by
  rw [captureDisplays, isSubed_foldl_capture]
  have keys : other ∈ server.services.keys ↔ server.contains other := by
    rw [contains, Std.ExtTreeMap.mem_keys, Std.ExtTreeMap.mem_iff_contains]
  by_cases there : server.contains other
  · simp [keys, there]
  · simp [there]

theorem contains_captureDisplays {displays : List Nat} :
    (server.captureDisplays conn source displays include' exclude).contains other =
      server.contains other :=
  contains_foldl_capture

theorem isSubed_ensure {display : Nat} :
    (server.ensure source display).isSubed other id = server.isSubed other id := by
  unfold ensure
  dsimp only
  split
  · rfl
  · rename_i absent
    rw [addService, isSubed_insert, isSubed_new]
    split
    · rename_i same
      exact (isSubed_of_absent (same ▸ absent)).symm
    · rfl

theorem contains_ensure {display : Nat} : (server.ensure source display).contains other ↔
    server.contains other ∨ other = getServiceName source display := by
  unfold ensure
  dsimp only
  split
  · rename_i there
    constructor
    · exact .inl
    · rintro (old | rfl)
      · exact old
      · exact there
  · rw [contains_iff, contains_iff, addService]
    by_cases same : other = getServiceName source display
    · subst same
      simp
    · simp only [TreeMaps.insert_of_ne same, same, or_false]

theorem isSubed_foldl_ensure {displays : List Nat} :
    (displays.foldl (fun server d => server.ensure source d) server).isSubed other id =
      server.isSubed other id := by
  induction displays generalizing server with
  | nil => rfl
  | cons d displays ih => rw [List.foldl_cons, ih, isSubed_ensure]

theorem contains_foldl_ensure {displays : List Nat} :
    (displays.foldl (fun server d => server.ensure source d) server).contains other ↔
      server.contains other ∨ ∃ d ∈ displays, other = getServiceName source d := by
  induction displays generalizing server with
  | nil => simp
  | cons d displays ih => simp [ih, contains_ensure, or_assoc]

end Server

variable {c : Connection} {sourceCount : SourceCount} {add sub set displays : List Int32}

theorem asUsize_lt {d : Int32} (few : asUsize d < 2 ^ 63) : (asUsize d : Int) = d.toInt := by
  have least := d.le_toInt
  have most := d.toInt_lt
  unfold asUsize at few ⊢
  omega

def valid (sourceCount : SourceCount) (displays : List Int32) : List Nat :=
  (displays.map asUsize).filter fun d => d < sourceCount.count

/-- A negative index is beyond the length of every vector. -/
theorem mem_valid : i ∈ valid sourceCount displays ↔ Valid sourceCount displays i := by
  have fits := sourceCount.fits
  simp only [valid, Valid, List.mem_filter, List.mem_map, decide_eq_true_eq]
  constructor
  · rintro ⟨⟨d, mem, rfl⟩, few⟩
    exact ⟨⟨d, mem, (asUsize_lt (by omega)).symm⟩, few⟩
  · rintro ⟨⟨d, mem, is⟩, few⟩
    refine ⟨⟨d, mem, ?_⟩, few⟩
    unfold asUsize
    omega

theorem valid_isEmpty :
    (valid sourceCount displays).isEmpty ↔ ∀ i, ¬ Valid sourceCount displays i := by
  rw [List.isEmpty_iff, List.eq_nil_iff_forall_not_mem]
  simp only [mem_valid]

/-- The server once the services of the request have been made. -/
def ensured (c : Connection) (sourceCount : SourceCount) (server : Server Msg)
    (add set : List Int32) : Server Msg :=
  let server := (valid sourceCount add).foldl (fun server d => server.ensure c.videoSource d) server
  (valid sourceCount set).foldl (fun server d => server.ensure c.videoSource d) server

/-- The services of a request that is not ignored, before the window focus. -/
def carriedOut (c : Connection) (sourceCount : SourceCount) (server : Server Msg)
    (add sub set : List Int32) : Server Msg :=
  let server := ensured c sourceCount server add set
  if add ≠ [] then
    server.captureDisplays c.id c.videoSource (valid sourceCount add) true false
  else if sub ≠ [] then
    server.captureDisplays c.id c.videoSource (valid sourceCount sub) false true
  else server.captureDisplays c.id c.videoSource (valid sourceCount set) true true

theorem ignored_iff :
    (!(add.map asUsize).isEmpty && (valid sourceCount add).isEmpty ||
      (add.map asUsize).isEmpty && !(sub.map asUsize).isEmpty && (valid sourceCount sub).isEmpty ||
      (add.map asUsize).isEmpty && (sub.map asUsize).isEmpty && !(set.map asUsize).isEmpty &&
        (valid sourceCount set).isEmpty) = true ↔ Ignored sourceCount add sub set := by
  simp only [Bool.or_eq_true, Bool.and_eq_true, Bool.not_eq_true', valid_isEmpty, Ignored, deciding]
  by_cases adds : add = []
  · by_cases subs : sub = []
    · simp [adds, subs]
    · simp [adds, subs]
  · simp [adds]

theorem handleCaptureDisplays_ignored (server : Option (Server Msg))
    (ignored : Ignored sourceCount add sub set) :
    handleCaptureDisplays c sourceCount server add sub set = (c, server) :=
  if_pos (ignored_iff.mpr ignored)

theorem handleCaptureDisplays_carriedOut (ignored : ¬ Ignored sourceCount add sub set) :
    (handleCaptureDisplays c sourceCount (some server) add sub set).2 =
      let after := carriedOut c sourceCount server add sub set
      some (if c.followRemoteWindow then
        after.subscribe nameWindowFocus c.id !decide (1 < after.getSubbedDisplaysCount c.id)
        else after) := by
  have proceeds := mt ignored_iff.mp ignored
  have after : ∀ {add' sub' : List Nat} {x y z : Server Msg},
      (add' ≠ [] ↔ add ≠ []) → (sub' ≠ [] ↔ sub ≠ []) →
      (if (!add'.isEmpty) = true then x else if (!sub'.isEmpty) = true then y else z) =
        if add ≠ [] then x else if sub ≠ [] then y else z := by
    intro add' sub' x y z adds subs
    simp only [Bool.not_eq_true', List.isEmpty_eq_false_iff, adds, subs]
  unfold handleCaptureDisplays captureDisplays
  dsimp only
  refine (congrArg Prod.snd (if_neg proceeds)).trans ?_
  rw [after (by simp) (by simp)]
  rw [apply_ite Prod.snd, ← apply_ite some]
  rfl

theorem change_getServiceName {displays : List Nat} {include' exclude : Bool} :
    Server.change (displays.map (getServiceName source)) include' exclude
        (getServiceName source i) =
      if i ∈ displays then if include' then some true else none
      else if exclude then some false else none := by
  have mem : getServiceName source i ∈ displays.map (getServiceName source) ↔ i ∈ displays := by
    simp [getServiceName_inj]
  rw [Server.change, if_pos isVideoServiceName_getServiceName]
  simp only [mem]

theorem contains_ensured : (ensured c sourceCount server add set).contains name ↔
    server.contains name ∨ ∃ i, (Valid sourceCount add i ∨ Valid sourceCount set i) ∧
      name = getServiceName c.videoSource i := by
  unfold ensured
  dsimp only
  rw [Server.contains_foldl_ensure, Server.contains_foldl_ensure]
  simp only [mem_valid, or_and_right, exists_or, or_assoc]

theorem isSubed_ensured :
    (ensured c sourceCount server add set).isSubed name id = server.isSubed name id := by
  unfold ensured
  dsimp only
  rw [Server.isSubed_foldl_ensure, Server.isSubed_foldl_ensure]

theorem contains_carriedOut : (carriedOut c sourceCount server add sub set).contains name ↔
    server.contains name ∨ ∃ i, (Valid sourceCount add i ∨ Valid sourceCount set i) ∧
      name = getServiceName c.videoSource i := by
  unfold carriedOut
  dsimp only
  split_ifs
  all_goals rw [Server.contains_captureDisplays, contains_ensured]

theorem isSubed_carriedOut_other (different : id ≠ c.id ∨ isVideoServiceName name = false) :
    (carriedOut c sourceCount server add sub set).isSubed name id = server.isSubed name id := by
  unfold carriedOut
  dsimp only
  split_ifs
  all_goals
    rw [Server.isSubed_captureDisplays, isSubed_ensured]
    rcases different with other | plain
    · simp [other]
    · simp [Server.change, plain]

theorem isSubed_carriedOut :
    (carriedOut c sourceCount server add sub set).isSubed
        (getServiceName c.videoSource i) c.id ↔
      Requested sourceCount add sub set
        (fun i => server.isSubed (getServiceName c.videoSource i) c.id) i := by
  have ofAdd : i ∈ valid sourceCount add →
      (ensured c sourceCount server add set).contains (getServiceName c.videoSource i) :=
    fun is => contains_ensured.mpr (.inr ⟨i, .inl (mem_valid.mp is), rfl⟩)
  have ofSet : i ∈ valid sourceCount set →
      (ensured c sourceCount server add set).contains (getServiceName c.videoSource i) :=
    fun is => contains_ensured.mpr (.inr ⟨i, .inr (mem_valid.mp is), rfl⟩)
  have ofOld : ¬ (ensured c sourceCount server add set).contains (getServiceName c.videoSource i) →
      server.isSubed (getServiceName c.videoSource i) c.id = false := fun missing =>
    Server.isSubed_of_absent fun there => missing (contains_ensured.mpr (.inl there))
  unfold carriedOut Requested
  dsimp only
  split_ifs
  all_goals
    rw [Server.isSubed_captureDisplays, isSubed_ensured, change_getServiceName, ← mem_valid]
  · by_cases is : i ∈ valid sourceCount add
    · simp [is, ofAdd is]
    · simp [is]
  · by_cases there : (ensured c sourceCount server add set).contains
        (getServiceName c.videoSource i)
    · by_cases is : i ∈ valid sourceCount sub <;> simp [is, there]
    · simp [there, ofOld there]
  · by_cases is : i ∈ valid sourceCount set
    · simp [is, ofSet is]
    · by_cases there : (ensured c sourceCount server add set).contains
          (getServiceName c.videoSource i)
      · simp [is, there]
      · simp [is, there, ofOld there]

/-- What becomes of a request that is not ignored. -/
structure Captured (c : Connection) (sourceCount : SourceCount) (add sub set : List Int32)
    (server after : Server Msg) : Prop where
  own : ∀ i, after.isSubed (getServiceName c.videoSource i) c.id ↔
    Requested sourceCount add sub set
      (fun i => server.isSubed (getServiceName c.videoSource i) c.id) i
  made : ∀ name, after.contains name → server.contains name ∨
    ∃ i < sourceCount.count, name = getServiceName c.videoSource i
  connections : ∀ name id, id ≠ c.id → after.isSubed name id = server.isSubed name id
  services : ∀ name, isVideoServiceName name = false → name ≠ nameWindowFocus →
    ∀ id, after.isSubed name id = server.isSubed name id
  windowFocus : after.isSubed nameWindowFocus c.id ↔
    if c.followRemoteWindow then server.contains nameWindowFocus ∧
      ∀ name name', isVideoServiceName name → isVideoServiceName name' →
        after.isSubed name c.id → after.isSubed name' c.id → name = name'
    else server.isSubed nameWindowFocus c.id

theorem length_le_one {α : Type} {l : List α} (nodup : l.Nodup) :
    l.length ≤ 1 ↔ ∀ a b, a ∈ l → b ∈ l → a = b := by
  match l with
  | [] => simp
  | [a] => simp
  | a :: b :: l =>
    obtain ⟨absent, -⟩ := List.nodup_cons.mp nodup
    refine ⟨fun short => absurd short (by simp), fun same => absurd ?_ absent⟩
    rw [same a b (by simp) (by simp)]
    exact List.mem_cons_self

theorem count_le_one : server.getSubbedDisplaysCount id ≤ 1 ↔
    ∀ name name', isVideoServiceName name → isVideoServiceName name' →
      server.isSubed name id → server.isSubed name' id → name = name' := by
  have mem : ∀ name, name ∈ server.services.keys.filter
      (fun name => isVideoServiceName name && server.isSubed name id) ↔
        isVideoServiceName name ∧ server.isSubed name id := by
    intro name
    rw [List.mem_filter, Bool.and_eq_true, and_iff_right_of_imp]
    rintro ⟨-, subed⟩
    rw [Std.ExtTreeMap.mem_keys, Std.ExtTreeMap.mem_iff_contains]
    by_contra missing
    rw [Server.isSubed_of_absent missing] at subed
    cases subed
  rw [Server.getSubbedDisplaysCount, length_le_one (Std.ExtTreeMap.nodup_keys.filter _)]
  simp only [mem]
  exact ⟨fun same name name' video video' is is' => same name name' ⟨video, is⟩ ⟨video', is'⟩,
    fun same name name' is is' => same name name' is.1 is'.1 is.2 is'.2⟩

/-- **The displays of a connection are those that it has asked for**: a list that names no
display is ignored; otherwise the connection has the displays that it had with those of `add`,
or those that it had and that `sub` names, or those of `set`; only services of displays that
there are have been made, and nothing else changes but, for who follows the remote window, the
focus of the window. -/
theorem displays_captured (c : Connection) (sourceCount : SourceCount) (server : Server Msg)
    (add sub set : List Int32) : ∃ after,
      (handleCaptureDisplays c sourceCount (some server) add sub set).2 = some after ∧
        (Ignored sourceCount add sub set → after = server) ∧
        (¬ Ignored sourceCount add sub set →
          Captured c sourceCount add sub set server after) := by
  by_cases ignored : Ignored sourceCount add sub set
  · rw [handleCaptureDisplays_ignored (some server) ignored]
    exact ⟨server, rfl, fun _ => rfl, fun carried => absurd ignored carried⟩
  refine ⟨_, handleCaptureDisplays_carriedOut ignored, fun is => absurd is ignored, fun _ => ?_⟩
  have before : ∀ {name id}, id ≠ c.id ∨ isVideoServiceName name = false →
      (carriedOut c sourceCount server add sub set).isSubed name id = server.isSubed name id :=
    isSubed_carriedOut_other
  have made : ∀ name, (carriedOut c sourceCount server add sub set).contains name →
      server.contains name ∨ ∃ i < sourceCount.count, name = getServiceName c.videoSource i := by
    intro name there
    obtain old | ⟨i, is, rfl⟩ := contains_carriedOut.mp there
    · exact .inl old
    · exact .inr ⟨i, is.elim And.right And.right, rfl⟩
  split
  · have video : ∀ {name}, isVideoServiceName name → name ≠ nameWindowFocus := by
      rintro _ is rfl
      rw [nameWindowFocus_not_video] at is
      cases is
    have apart : ∀ {name id}, name ≠ nameWindowFocus ∨ id ≠ c.id → ∀ {sub'},
        ((carriedOut c sourceCount server add sub set).subscribe nameWindowFocus c.id
            sub').isSubed name id =
          (carriedOut c sourceCount server add sub set).isSubed name id := by
      intro name id different sub'
      rw [Server.isSubed_subscribe, if_neg]
      rintro ⟨rfl, rfl, -⟩
      simp at different
    have focus : (carriedOut c sourceCount server add sub set).contains nameWindowFocus ↔
        server.contains nameWindowFocus := by
      refine contains_carriedOut.trans (or_iff_left ?_)
      rintro ⟨i, -, is⟩
      exact video isVideoServiceName_getServiceName is.symm
    rename_i follows
    constructor
    · intro i
      rw [apart (.inl (video isVideoServiceName_getServiceName))]
      exact isSubed_carriedOut
    · intro name there
      exact made name (Server.contains_subscribe ▸ there)
    · exact fun name id other => (apart (.inr other)).trans (before (.inl other))
    · exact fun name plain differs id => (apart (.inl differs)).trans (before (.inr plain))
    · have few : Server.getSubbedDisplaysCount (carriedOut c sourceCount server add sub set)
          c.id ≤ 1 ↔ _ := count_le_one
      rw [if_pos follows, Server.isSubed_subscribe, ← focus]
      by_cases there : (carriedOut c sourceCount server add sub set).contains nameWindowFocus
      · rw [if_pos ⟨rfl, rfl, there⟩, and_iff_right there, Bool.not_eq_true',
          decide_eq_false_iff_not, Nat.not_lt, few]
        refine forall₄_congr fun name name' is is' => ?_
        rw [apart (.inl (video is)), apart (.inl (video is'))]
      · rw [if_neg fun all => there all.2.2, Server.isSubed_of_absent there]
        simp [there]
  · rename_i follows
    refine ⟨fun i => isSubed_carriedOut, made, fun name id other => before (.inl other),
      fun name plain _ id => before (.inr plain), ?_⟩
    rw [if_neg follows, before (.inr nameWindowFocus_not_video)]

def following : Connection := ⟨1, false, true, false⟩

def withWindowFocus : Server Unit := (Server.mk ∅).addService nameWindowFocus (.new false)

/-- The connection comes to follow the focus with its first display. -/
theorem window_focus_subscribed :
    isVideoServiceName nameWindowFocus = false ∧ withWindowFocus.isSubed nameWindowFocus 1 = false ∧
      (handleCaptureDisplays following ⟨1, by decide⟩ (some withWindowFocus) [0] [] []).2.map
        (fun after => after.isSubed nameWindowFocus 1) = some true := by
  decide

end CamelliaRemote.Service.CaptureDisplays
