import CamelliaRemote.Web.VideoWorker

namespace CamelliaRemote.Web.VideoWorker

def IsOpen (s : Worker) (decoder : Nat) (key : DecoderKey) : Prop :=
  s.created[decoder]? = some ⟨key, true⟩

instance (s : Worker) (decoder : Nat) (key : DecoderKey) : Decidable (IsOpen s decoder key) :=
  inferInstanceAs (Decidable (_ = _))

structure LeakFree (s : Worker) : Prop where
  registered : ∀ decoder key, IsOpen s decoder key →
    EntryList.get s.decoders key = some decoder
  closed : s.isClosed → ∀ decoder key, ¬ IsOpen s decoder key

/-- The frame is closed once, or it is the one that waits. -/
def Kept (s : Worker) (frame : Nat) (display : Int) : Prop :=
  s.closes.count frame = 1 ∧ EntryList.get s.pendingFrames display ≠ some frame ∨
    s.closes.count frame = 0 ∧ EntryList.get s.pendingFrames display = some frame ∧
      s.renderScheduled display ∧ display ∈ s.renders

/-- A creation that gives a decoder of a rendered display finds the worker open, and no open
decoder of its key. -/
def Alone (s : Worker) : Event → Prop
  | .creation number .decoder _ =>
    ∀ c, s.creations.find? (fun c => c.number = number) = some c →
      s.shouldRenderDisplay c.key.display →
        s.isClosed = false ∧ ∀ decoder, ¬ IsOpen s decoder c.key
  | _ => True

/-- A step that only goes on with chunks. -/
def ChunksOnly (s t : Worker) : Prop :=
  t = { s with
    decoderNeedsKeyFrame := t.decoderNeedsKeyFrame
    decoderLastPts := t.decoderLastPts
    overflowState := t.overflowState
    log := t.log }

variable {s t u : Worker} {key : DecoderKey} {decoder : Nat} {chunk : Chunk} {meets : Meets}

theorem ChunksOnly.trans (first : ChunksOnly s t) (second : ChunksOnly t u) : ChunksOnly s u := by
  rw [ChunksOnly, second, first]

theorem chunksOnly_shouldDropFrame {isKey : Bool} :
    ChunksOnly s (s.shouldDropFrame key isKey meets).1 := by
  unfold Worker.shouldDropFrame
  split
  · split <;> rfl
  split
  · rfl
  unfold Worker.checkQueue
  dsimp only
  split
  · unfold Worker.coolDownBackpressureState
    split
    · rfl
    · split <;> rfl
  · split <;> rfl

theorem chunksOnly_pass : ChunksOnly s (s.pass key decoder chunk meets) := by
  unfold Worker.pass
  dsimp only
  split
  · rfl
  · split <;> rfl

theorem chunksOnly_decodeChunk : ChunksOnly s (s.decodeChunk key decoder chunk meets) := by
  have dropped : ChunksOnly s (s.shouldDropFrame key chunk.isKey meets).1 :=
    chunksOnly_shouldDropFrame
  unfold Worker.decodeChunk
  split
  · rfl
  generalize s.shouldDropFrame key chunk.isKey meets = made at dropped
  obtain ⟨made, reason⟩ := made
  cases reason with
  | some reason => exact dropped.trans rfl
  | none => exact dropped.trans chunksOnly_pass

theorem chunksOnly_decodeAll {meets : Nat → Meets} (chunks : List Chunk) :
    ChunksOnly s (Worker.decodeAll key decoder meets s chunks) := by
  induction chunks generalizing s with
  | nil => rfl
  | cons chunk chunks ih => exact chunksOnly_decodeChunk.trans ih

theorem isOpen_closeDecoders {decoders : List Nat} :
    IsOpen (s.closeDecoders decoders) decoder key ↔ IsOpen s decoder key ∧ decoder ∉ decoders := by
  unfold IsOpen Worker.closeDecoders
  rw [List.getElem?_mapIdx]
  cases s.created[decoder]? with
  | none => simp
  | some d =>
    obtain ⟨key', isOpen⟩ := d
    by_cases mem : decoder ∈ decoders <;> simp [mem]

theorem leakFree_iff (only : ChunksOnly s t) : LeakFree t ↔ LeakFree s := by
  rw [only]
  exact ⟨fun free => ⟨free.registered, free.closed⟩, fun free => ⟨free.registered, free.closed⟩⟩

/-- Some of the decoders are closed, and nothing else is for the registry. -/
theorem leakFree_closed {decoders : List Nat} (free : LeakFree s) :
    LeakFree (s.closeDecoders decoders) := by
  refine ⟨fun decoder key opened => ?_, fun closed decoder key opened => ?_⟩
  · exact free.registered decoder key (isOpen_closeDecoders.mp opened).1
  · exact free.closed closed decoder key (isOpen_closeDecoders.mp opened).1

theorem leakFree_clearKeys {p : DecoderKey → Bool} (free : LeakFree s) :
    LeakFree (s.clearKeys p) := by
  have opened : ∀ decoder key, IsOpen (s.clearKeys p) decoder key →
      IsOpen s decoder key ∧ p key = false := by
    intro decoder key opened
    obtain ⟨before, kept⟩ := isOpen_closeDecoders.mp opened
    refine ⟨before, Bool.eq_false_iff.mpr fun cleared => kept ?_⟩
    have mem := EntryList.mem_of_get (free.registered decoder key before)
    exact List.mem_map.mpr ⟨(key, decoder), List.mem_filter.mpr ⟨mem, cleared⟩, rfl⟩
  refine ⟨fun decoder key now => ?_, fun closed decoder key now => ?_⟩
  · obtain ⟨before, kept⟩ := opened decoder key now
    rw [Worker.clearKeys, EntryList.get_delete, kept]
    exact free.registered decoder key before
  · exact free.closed closed decoder key (opened decoder key now).1

theorem leakFree_closeWorker (free : LeakFree s) : LeakFree s.closeWorker := by
  have none' : ∀ decoder key, ¬ IsOpen s.closeWorker decoder key := by
    intro decoder key opened
    obtain ⟨before, kept⟩ := isOpen_closeDecoders.mp opened
    have mem := EntryList.mem_of_get (free.registered decoder key before)
    exact kept (List.mem_map.mpr ⟨(key, decoder), mem, rfl⟩)
  exact ⟨fun decoder key opened => absurd opened (none' decoder key), fun _ => none'⟩

theorem getElem?_snoc {α : Type} {l : List α} {a b : α} {i : Nat} :
    (l ++ [a])[i]? = some b ↔ l[i]? = some b ∨ i = l.length ∧ b = a := by
  obtain inside | rfl | outside := Nat.lt_trichotomy i l.length
  · rw [List.getElem?_append_left inside]
    simp [Nat.ne_of_lt inside]
  · simp [eq_comm]
  · rw [List.getElem?_eq_none (by simp; omega), List.getElem?_eq_none (by omega)]
    simp [Nat.ne_of_gt outside]

theorem isOpen_addDecoder {key' : DecoderKey} {isOpen : Bool} :
    IsOpen (s.addDecoder key' isOpen) decoder key ↔
      IsOpen s decoder key ∨ decoder = s.created.length ∧ key = key' ∧ isOpen = true := by
  rw [IsOpen, Worker.addDecoder, getElem?_snoc]
  simp [IsOpen, eq_comm]

theorem leakFree_setActiveDisplay {display : Int} {reset : Bool} (free : LeakFree s) :
    LeakFree (s.setActiveDisplay display reset) := by
  have shown : LeakFree { s with activeDisplay := normalizeDisplay display } :=
    ⟨free.registered, free.closed⟩
  unfold Worker.setActiveDisplay
  dsimp only
  split
  · exact shown
  rename_i normalized _
  have inactive : LeakFree (Worker.clearInactiveDisplayState
      { s with activeDisplay := normalizeDisplay display } normalized) :=
    leakFree_clearKeys ⟨shown.registered, shown.closed⟩
  split
  · exact leakFree_clearKeys ⟨inactive.registered, inactive.closed⟩
  · exact inactive

theorem leakFree_decodeVideo {codec : CodecType} {display : Int} {data : List UInt8} {isKey : Bool}
    {pts : Option Rat} (free : LeakFree s) :
    LeakFree (s.decodeVideo codec display data isKey pts meets) := by
  have arrived : ∀ key, LeakFree (s.arrive key) := fun key => ⟨free.registered, free.closed⟩
  unfold Worker.decodeVideo
  dsimp only
  split
  · exact ⟨free.registered, free.closed⟩
  split
  · exact ⟨free.registered, free.closed⟩
  split
  · exact (leakFree_iff chunksOnly_decodeChunk).mpr (arrived _)
  split
  · exact ⟨free.registered, free.closed⟩
  · have cleared := leakFree_clearKeys (arrived ⟨display, codec⟩)
      (p := fun key => key.display = display && some key.codec ≠ some codec)
    exact ⟨cleared.registered, cleared.closed⟩

theorem leakFree_handleFrame {display : Int} (free : LeakFree s) :
    LeakFree (s.handleFrame display) := by
  unfold Worker.handleFrame
  dsimp only
  split
  · exact ⟨free.registered, free.closed⟩
  · unfold Worker.schedule
    split <;> exact ⟨free.registered, free.closed⟩

theorem leakFree_render {callback : Nat} (free : LeakFree s) : LeakFree (s.render callback) := by
  unfold Worker.render
  split
  · dsimp only
    split <;> exact ⟨free.registered, free.closed⟩
  · exact free

theorem isOpen_configured {key' : DecoderKey} : IsOpen (s.configured key') decoder key ↔
    IsOpen s decoder key ∨ decoder = s.created.length ∧ key = key' := by
  have added : IsOpen (s.configured key') decoder key ↔
      IsOpen s decoder key ∨ decoder = s.created.length ∧ key = key' ∧ true = true :=
    isOpen_addDecoder
  simpa using added

theorem endCreation_rendered {c : Creation} {meets : Nat → Meets}
    (rendered : s.shouldRenderDisplay c.key.display) :
    s.endCreation c .decoder meets = Worker.decodeAll c.key s.created.length meets
      (((s.finishCreation c).configured c.key).register c.key s.created.length) c.chunks :=
  if_pos rendered

theorem endCreation_inactive {c : Creation} {meets : Nat → Meets}
    (inactive : ¬ s.shouldRenderDisplay c.key.display) :
    s.endCreation c .decoder meets = Worker.decodeAll c.key s.created.length meets
      ((((s.finishCreation c).configured c.key).closeDecoders [s.created.length]).dropAll c.key
        (c.chunks.take 1)) (c.chunks.drop 1) :=
  if_neg inactive

/-- What a creation gives is registered next to no other open decoder. -/
theorem leakFree_endCreation {c : Creation} {outcome : Outcome} {meets : Nat → Meets}
    (free : LeakFree s) (alone : outcome = .decoder → s.shouldRenderDisplay c.key.display →
      s.isClosed = false ∧ ∀ decoder, ¬ IsOpen s decoder c.key) :
    LeakFree (s.endCreation c outcome meets) := by
  cases outcome with
  | noConfig => exact ⟨free.registered, free.closed⟩
  | configureFailed =>
    have same : ∀ decoder key, IsOpen (s.endCreation c .configureFailed meets) decoder key →
        IsOpen s decoder key := by
      intro decoder key opened
      have either : IsOpen s decoder key ∨ _ := isOpen_addDecoder.mp opened
      simpa using either
    exact ⟨fun decoder key opened => free.registered decoder key (same decoder key opened),
      fun closed decoder key opened => free.closed closed decoder key (same decoder key opened)⟩
  | decoder =>
    by_cases rendered : s.shouldRenderDisplay c.key.display
    · rw [endCreation_rendered rendered]
      obtain ⟨running, others⟩ := alone rfl rendered
      refine (leakFree_iff (chunksOnly_decodeAll _)).mpr ⟨?_, fun closed => ?_⟩
      · intro decoder key opened
        have either : IsOpen s decoder key ∨ decoder = s.created.length ∧ key = c.key :=
          isOpen_configured.mp opened
        have found : EntryList.get (EntryList.set s.decoders c.key s.created.length) key =
            if key = c.key then some s.created.length else EntryList.get s.decoders key :=
          EntryList.get_set
        refine found.trans ?_
        obtain before | ⟨rfl, rfl⟩ := either
        · have other : key ≠ c.key := by
            rintro rfl
            exact others decoder before
          rw [if_neg other]
          exact free.registered decoder key before
        · rw [if_pos rfl]
      · rw [show s.isClosed = true from closed] at running
        cases running
    · rw [endCreation_inactive rendered]
      have same : ∀ decoder key,
          IsOpen (((s.finishCreation c).configured c.key).closeDecoders [s.created.length]) decoder
            key → IsOpen s decoder key := by
        intro decoder key opened
        obtain ⟨either, kept⟩ := isOpen_closeDecoders.mp opened
        obtain before | ⟨rfl, rfl⟩ := isOpen_configured.mp either
        · exact before
        · exact absurd (List.mem_singleton.mpr rfl) kept
      refine (leakFree_iff (chunksOnly_decodeAll _)).mpr ⟨?_, ?_⟩
      · exact fun decoder key opened => free.registered decoder key (same decoder key opened)
      · exact fun closed decoder key opened =>
          free.closed closed decoder key (same decoder key opened)

theorem leakFree_step (s : Worker) (event : Event) (free : LeakFree s) (alone : Alone s event) :
    LeakFree (s.step event) := by
  have message : ∀ {handled}, LeakFree handled → LeakFree (s.message handled) := by
    intro handled fine
    unfold Worker.message
    split
    · exact free
    · exact fine
  cases event with
  | attachSurface context => exact message ⟨free.registered, free.closed⟩
  | detachSurface => exact message ⟨free.registered, free.closed⟩
  | setPolicy renderQuality customQuality customFps =>
    exact message ⟨free.registered, free.closed⟩
  | setActiveDisplay display reset => exact message (leakFree_setActiveDisplay free)
  | decode codec display data isKey pts meets => exact message (leakFree_decodeVideo free)
  | close => exact message (leakFree_closeWorker free)
  | creation number outcome meets =>
    change LeakFree (s.creation number outcome meets)
    unfold Worker.creation
    split
    · rename_i c found
      refine leakFree_endCreation free ?_
      rintro rfl rendered
      exact alone c found rendered
    · exact free
  | decoderError decoder =>
    change LeakFree (s.decoderError decoder)
    unfold Worker.decoderError
    split
    · have closed : LeakFree (s.closeDecoders [decoder]) := leakFree_closed free
      exact ⟨closed.registered, closed.closed⟩
    · exact free
  | output decoder =>
    change LeakFree (s.output decoder)
    unfold Worker.output
    split
    · exact leakFree_handleFrame free
    · exact free
  | render callback => exact leakFree_render free

/-- A creation that is not alone leaves an open decoder beside the registered one, or in a
closed worker. -/
theorem not_leakFree_endCreation {c : Creation} {meets : Nat → Meets}
    (rendered : s.shouldRenderDisplay c.key.display)
    (beside : s.isClosed ∨ ∃ decoder, IsOpen s decoder c.key) :
    ¬ LeakFree (s.endCreation c .decoder meets) := by
  rw [endCreation_rendered rendered, leakFree_iff (chunksOnly_decodeAll _)]
  intro free
  have new : IsOpen (((s.finishCreation c).configured c.key).register c.key s.created.length)
      s.created.length c.key := isOpen_configured.mpr (.inr ⟨rfl, rfl⟩)
  obtain closed | ⟨decoder, opened⟩ := beside
  · exact free.closed closed _ _ new
  · have older := free.registered decoder c.key (isOpen_configured.mpr (.inl opened))
    obtain rfl := Option.some.inj ((free.registered _ _ new).symm.trans older)
    have inside := (List.getElem?_eq_some_iff.mp opened).1
    exact Nat.lt_irrefl _ inside

theorem not_leakFree_step {event : Event} (beside : ¬ Alone s event) :
    ¬ LeakFree (s.step event) := by
  unfold Alone at beside
  split at beside
  · rename_i number meets
    push Not at beside
    obtain ⟨c, found, rendered, others⟩ := beside
    have ends : s.step (.creation number .decoder meets) = s.endCreation c .decoder meets := by
      change s.creation number .decoder meets = _
      rw [Worker.creation, found]
    rw [ends]
    refine not_leakFree_endCreation rendered ?_
    by_cases closed : s.isClosed
    · exact .inl closed
    · obtain ⟨decoder, opened⟩ := others (by simpa using closed)
      exact .inr ⟨decoder, opened⟩
  · exact absurd trivial beside

structure FramesSound (s : Worker) : Prop where
  distinct : EntryList.Distinct s.pendingFrames
  pending : ∀ display frame, (display, frame) ∈ s.pendingFrames →
    s.frames[frame]? = some display ∧ s.closes.count frame = 0 ∧ s.renderScheduled display
  scheduled : ∀ display, s.renderScheduled display → display ∈ s.renders
  closed : ∀ display frame, s.frames[frame]? = some display →
    (display, frame) ∉ s.pendingFrames → s.closes.count frame = 1
  bound : ∀ frame ∈ s.closes, frame < s.frames.length

/-- What waits under the displays that `p` names is closed. -/
theorem framesSound_close (sound : FramesSound s) {p : Int → Bool} {gone : List Nat}
    (nodup : gone.Nodup)
    (mem : ∀ frame, frame ∈ gone ↔ ∃ display, (display, frame) ∈ s.pendingFrames ∧ p display)
    (frames : t.frames = s.frames) (pending : t.pendingFrames = EntryList.delete s.pendingFrames p)
    (closes : t.closes = s.closes ++ gone)
    (scheduled : ∀ display, t.renderScheduled display → display ∈ t.renders)
    (kept : ∀ display, p display = false → s.renderScheduled display →
      t.renderScheduled display) : FramesSound t := by
  have count : ∀ frame, t.closes.count frame =
      s.closes.count frame + if frame ∈ gone then 1 else 0 := by
    intro frame
    rw [closes, List.count_append]
    by_cases goes : frame ∈ gone
    · rw [List.count_eq_one_of_mem nodup goes, if_pos goes]
    · rw [List.count_eq_zero_of_not_mem goes, if_neg goes]
  have displays : ∀ {display display' frame}, s.frames[frame]? = some display →
      (display', frame) ∈ s.pendingFrames → display' = display := by
    intro display display' frame found waits
    exact Option.some.inj ((sound.pending _ _ waits).1.symm.trans found)
  constructor
  · rw [pending]
    exact EntryList.distinct_delete sound.distinct
  · intro display frame waits
    rw [pending, EntryList.mem_delete] at waits
    obtain ⟨found, zero, waiting⟩ := sound.pending display frame waits.1
    have stays : frame ∉ gone := by
      rw [mem]
      rintro ⟨display', waits', goes⟩
      obtain rfl := displays found waits'
      rw [waits.2] at goes
      cases goes
    exact ⟨frames ▸ found, by rw [count, if_neg stays, zero], kept display waits.2 waiting⟩
  · exact scheduled
  · intro display frame found absent
    rw [frames] at found
    rw [pending, EntryList.mem_delete] at absent
    rw [count]
    by_cases waits : (display, frame) ∈ s.pendingFrames
    · have goes : frame ∈ gone :=
        (mem frame).mpr ⟨display, waits, by simpa using fun kept => absent ⟨waits, kept⟩⟩
      rw [if_pos goes, (sound.pending _ _ waits).2.1]
    · have stays : frame ∉ gone := by
        rw [mem]
        rintro ⟨display', waits', -⟩
        obtain rfl := displays found waits'
        exact waits waits'
      rw [if_neg stays, sound.closed display frame found waits]
  · intro frame inside
    rw [closes, List.mem_append] at inside
    rw [frames]
    obtain old | new := inside
    · exact sound.bound frame old
    · obtain ⟨display, waits, -⟩ := (mem frame).mp new
      exact (List.getElem?_eq_some_iff.mp (sound.pending _ _ waits).1).1

theorem nodup_pending (sound : FramesSound s) (p : Int → Bool) :
    ((s.pendingFrames.filter fun entry => p entry.1).map Prod.snd).Nodup := by
  have entries : (s.pendingFrames.filter fun entry => p entry.1).Nodup :=
    (List.Nodup.of_map Prod.fst sound.distinct).filter _
  refine List.Nodup.map_on ?_ entries
  rintro ⟨display, frame⟩ waits ⟨display', frame'⟩ waits' rfl
  have found := (sound.pending _ _ (List.mem_filter.mp waits).1).1
  have found' := (sound.pending _ _ (List.mem_filter.mp waits').1).1
  rw [Option.some.inj (found.symm.trans found')]

theorem mem_pending {p : Int → Bool} {frame : Nat} :
    frame ∈ (s.pendingFrames.filter fun entry => p entry.1).map Prod.snd ↔
      ∃ display, (display, frame) ∈ s.pendingFrames ∧ p display := by
  simp

theorem framesSound_clearPendingFrames (sound : FramesSound s) {p : Int → Bool} :
    FramesSound (s.clearPendingFrames p) := by
  refine framesSound_close sound (nodup_pending sound p) (fun _ => mem_pending) rfl rfl rfl ?_ ?_
  · intro display scheduled
    exact sound.scheduled display (Bool.and_eq_true_iff.mp scheduled).1
  · intro display other scheduled
    simp [Worker.clearPendingFrames, other, scheduled]

theorem framesSound_clearPendingFrame (sound : FramesSound s) {display : Int} :
    FramesSound (s.clearPendingFrame display) := by
  refine framesSound_close (p := fun other => other = display) sound
    (nodup_pending sound fun other => other = display)
    (fun _ => mem_pending (s := s) (p := fun other => other = display)) rfl rfl rfl ?_ ?_
  · intro other scheduled
    by_cases same : other = display
    · subst same
      simp [Worker.clearPendingFrame] at scheduled
    · refine sound.scheduled other ?_
      simpa [Worker.clearPendingFrame, same] using scheduled
  · intro other differs scheduled
    have same : other ≠ display := by simpa using differs
    simpa [Worker.clearPendingFrame, same] using scheduled

theorem framesSound_closeWorker (sound : FramesSound s) : FramesSound s.closeWorker := by
  refine framesSound_close (p := fun _ => true) sound (nodup_pending sound fun _ => true)
    (fun _ => mem_pending (s := s) (p := fun _ => true)) rfl ?_ ?_ ?_ ?_
  · simp [Worker.closeWorker, EntryList.delete]
  · simp [Worker.closeWorker, Worker.closeFrames, Worker.closeDecoders]
  · intro display scheduled
    cases scheduled
  · intro display all
    cases all

/-- Nothing is done to frames. -/
theorem framesSound_congr (sound : FramesSound s) (frames : t.frames = s.frames)
    (pending : t.pendingFrames = s.pendingFrames) (closes : t.closes = s.closes)
    (scheduled : t.renderScheduled = s.renderScheduled) (renders : t.renders = s.renders) :
    FramesSound t := by
  constructor
  · rw [pending]
    exact sound.distinct
  · rw [frames, pending, closes, scheduled]
    exact sound.pending
  · rw [scheduled, renders]
    exact sound.scheduled
  · rw [frames, pending, closes]
    exact sound.closed
  · rw [frames, closes]
    exact sound.bound

theorem framesSound_chunksOnly (sound : FramesSound s) (only : ChunksOnly s t) : FramesSound t := by
  refine framesSound_congr sound ?_ ?_ ?_ ?_ ?_ <;> rw [only]

theorem framesSound_setActiveDisplay (sound : FramesSound s) {display : Int} {reset : Bool} :
    FramesSound (s.setActiveDisplay display reset) := by
  have shown : FramesSound { s with activeDisplay := normalizeDisplay display } :=
    framesSound_congr sound rfl rfl rfl rfl rfl
  unfold Worker.setActiveDisplay
  dsimp only
  split
  · exact shown
  rename_i normalized _
  have inactive : FramesSound (Worker.clearInactiveDisplayState
      { s with activeDisplay := normalizeDisplay display } normalized) :=
    framesSound_congr (framesSound_clearPendingFrames shown) rfl rfl rfl rfl rfl
  split
  · exact framesSound_congr (framesSound_clearPendingFrame inactive) rfl rfl rfl rfl rfl
  · exact inactive

theorem framesSound_decodeVideo (sound : FramesSound s) {codec : CodecType} {display : Int}
    {data : List UInt8} {isKey : Bool} {pts : Option Rat} :
    FramesSound (s.decodeVideo codec display data isKey pts meets) := by
  unfold Worker.decodeVideo
  dsimp only
  split
  · exact framesSound_congr sound rfl rfl rfl rfl rfl
  split
  · exact framesSound_congr sound rfl rfl rfl rfl rfl
  split
  · have arrived : FramesSound (s.arrive ⟨display, codec⟩) :=
      framesSound_congr sound rfl rfl rfl rfl rfl
    exact framesSound_chunksOnly arrived chunksOnly_decodeChunk
  split <;> exact framesSound_congr sound rfl rfl rfl rfl rfl

theorem framesSound_endCreation (sound : FramesSound s) {c : Creation} {outcome : Outcome}
    {meets : Nat → Meets} : FramesSound (s.endCreation c outcome meets) := by
  cases outcome with
  | noConfig => exact framesSound_congr sound rfl rfl rfl rfl rfl
  | configureFailed => exact framesSound_congr sound rfl rfl rfl rfl rfl
  | decoder =>
    by_cases rendered : s.shouldRenderDisplay c.key.display
    · rw [endCreation_rendered rendered]
      refine framesSound_chunksOnly ?_ (chunksOnly_decodeAll _)
      exact framesSound_congr sound rfl rfl rfl rfl rfl
    · rw [endCreation_inactive rendered]
      refine framesSound_chunksOnly ?_ (chunksOnly_decodeAll _)
      exact framesSound_congr sound rfl rfl rfl rfl rfl

/-- A frame that is not rendered is closed at once. -/
theorem framesSound_refused (sound : FramesSound s) {display : Int} :
    FramesSound (Worker.closeFrames { s with frames := s.frames ++ [display] }
      [s.frames.length]) := by
  have fresh : s.closes.count s.frames.length = 0 :=
    List.count_eq_zero.mpr fun closed => Nat.lt_irrefl _ (sound.bound _ closed)
  have count : ∀ frame, (s.closes ++ [s.frames.length]).count frame =
      s.closes.count frame + if s.frames.length = frame then 1 else 0 := by
    intro frame
    rw [List.count_append, List.count_singleton]
    simp only [beq_iff_eq]
  refine ⟨sound.distinct, ?_, sound.scheduled, ?_, ?_⟩
  · intro other frame waits
    obtain ⟨found, zero, waiting⟩ := sound.pending other frame waits
    have inside := (List.getElem?_eq_some_iff.mp found).1
    refine ⟨getElem?_snoc.mpr (.inl found), ?_, waiting⟩
    exact (count frame).trans (by rw [zero, if_neg (Nat.ne_of_gt inside)])
  · intro other frame found absent
    refine (count frame).trans ?_
    obtain older | ⟨rfl, -⟩ := getElem?_snoc.mp found
    · have inside := (List.getElem?_eq_some_iff.mp older).1
      rw [sound.closed other frame older absent, if_neg (Nat.ne_of_gt inside)]
    · rw [fresh, if_pos rfl]
  · intro frame closed
    rw [Worker.closeFrames, List.length_append]
    obtain old | new := List.mem_append.mp closed
    · exact Nat.lt_add_right 1 (sound.bound frame old)
    · rw [List.mem_singleton.mp new]
      exact Nat.lt_succ_self _

/-- A frame that comes when none of its display waits is the one that waits. -/
theorem framesSound_waits (sound : FramesSound s) {display : Int}
    (alone : ∀ frame, (display, frame) ∉ s.pendingFrames)
    (frames : t.frames = s.frames ++ [display])
    (pending : t.pendingFrames = s.pendingFrames ++ [(display, s.frames.length)])
    (closes : t.closes = s.closes) (waiting : t.renderScheduled display)
    (kept : ∀ other, s.renderScheduled other → t.renderScheduled other)
    (scheduled : ∀ other, t.renderScheduled other → other ∈ t.renders) : FramesSound t := by
  constructor
  · rw [pending, EntryList.Distinct, List.map_append, List.nodup_append]
    refine ⟨sound.distinct, List.nodup_singleton _, ?_⟩
    rintro other old _ new rfl
    obtain ⟨entry, waits, rfl⟩ := List.mem_map.mp old
    obtain rfl : entry.1 = display := List.mem_singleton.mp new
    exact alone entry.2 waits
  · intro other frame waits
    rw [frames, closes]
    rw [pending, List.mem_append, List.mem_singleton, Prod.mk.injEq] at waits
    obtain old | ⟨rfl, rfl⟩ := waits
    · obtain ⟨found, zero, flag⟩ := sound.pending other frame old
      exact ⟨getElem?_snoc.mpr (.inl found), zero, kept other flag⟩
    · refine ⟨getElem?_snoc.mpr (.inr ⟨rfl, rfl⟩), ?_, waiting⟩
      exact List.count_eq_zero.mpr fun closed => Nat.lt_irrefl _ (sound.bound _ closed)
  · exact scheduled
  · intro other frame found absent
    rw [frames] at found
    rw [pending, List.mem_append, List.mem_singleton, Prod.mk.injEq] at absent
    rw [closes]
    obtain older | ⟨rfl, rfl⟩ := getElem?_snoc.mp found
    · exact sound.closed other frame older fun waits => absent (.inl waits)
    · exact absurd (.inr ⟨rfl, rfl⟩) absent
  · intro frame closed
    rw [closes] at closed
    rw [frames, List.length_append]
    exact Nat.lt_add_right 1 (sound.bound frame closed)

theorem mem_get {display : Int} {frame : Nat} (sound : FramesSound s) :
    frame ∈ (EntryList.get s.pendingFrames display).toList ↔
      ∃ other, (other, frame) ∈ s.pendingFrames ∧ decide (other = display) := by
  rw [Option.mem_toList]
  refine (EntryList.get_iff sound.distinct).trans ?_
  simp

theorem nodup_toList {α : Type} (o : Option α) : o.toList.Nodup := by
  cases o with
  | none => exact List.nodup_nil
  | some a => exact List.nodup_singleton a

theorem schedule_eq {display : Int} : s.schedule display = { s with
    renderScheduled := Function.update s.renderScheduled display true
    renders := if s.renderScheduled display then s.renders else s.renders ++ [display] } := by
  unfold Worker.schedule
  split
  · rename_i flag
    rw [Function.update_eq_self_iff.mpr flag.symm]
  · rfl

theorem framesSound_handleFrame (sound : FramesSound s) {display : Int} :
    FramesSound (s.handleFrame display) := by
  unfold Worker.handleFrame
  dsimp only
  split
  · exact framesSound_refused sound
  have closed : FramesSound { s with
      pendingFrames := EntryList.delete s.pendingFrames fun other => other = display
      closes := s.closes ++ (EntryList.get s.pendingFrames display).toList } :=
    framesSound_close sound (nodup_toList _) (fun _ => mem_get sound) rfl rfl rfl
      sound.scheduled fun _ _ flag => flag
  have alone : ∀ frame, (display, frame) ∉
      EntryList.delete s.pendingFrames fun other => other = display := by
    intro frame waits
    simpa using (EntryList.mem_delete.mp waits).2
  rw [schedule_eq]
  refine framesSound_waits closed alone rfl EntryList.set_eq rfl ?_ ?_ ?_
  · exact Function.update_self ..
  · intro other flag
    by_cases same : other = display
    · subst same
      exact Function.update_self ..
    · exact (Function.update_of_ne same ..).trans flag
  · intro other flag
    have before : other ≠ display → other ∈ s.renders := fun differs =>
      sound.scheduled other ((Function.update_of_ne differs ..).symm.trans flag)
    change other ∈ if s.renderScheduled display then s.renders else s.renders ++ [display]
    by_cases same : other = display
    · subst same
      split
      · exact sound.scheduled other ‹_›
      · simp
    · split
      · exact before same
      · exact List.mem_append_left _ (before same)

theorem framesSound_render (sound : FramesSound s) {callback : Nat} :
    FramesSound (s.render callback) := by
  unfold Worker.render
  split
  · rename_i display called
    have others : ∀ other, Function.update s.renderScheduled display false other →
        other ∈ s.renders.eraseIdx callback := by
      intro other flag
      by_cases same : other = display
      · subst same
        rw [Function.update_self] at flag
        cases flag
      · rw [Function.update_of_ne same] at flag
        obtain ⟨i, found⟩ := List.mem_iff_getElem?.mp (sound.scheduled other flag)
        refine List.mem_eraseIdx_iff_getElem?.mpr ⟨i, ?_, found⟩
        rintro rfl
        exact same (Option.some.inj (found.symm.trans called))
    have kept : ∀ other, decide (other = display) = false → s.renderScheduled other →
        Function.update s.renderScheduled display false other := by
      intro other differs flag
      exact (Function.update_of_ne (of_decide_eq_false differs) ..).trans flag
    have closed : ∀ waits, EntryList.get s.pendingFrames display = waits → FramesSound { s with
        renders := s.renders.eraseIdx callback
        renderScheduled := Function.update s.renderScheduled display false
        pendingFrames := EntryList.delete s.pendingFrames fun other => other = display
        closes := s.closes ++ waits.toList } := by
      rintro waits rfl
      exact framesSound_close sound (nodup_toList _) (fun _ => mem_get sound) rfl rfl rfl
        others kept
    dsimp only
    split
    · rename_i frame found
      exact closed (some frame) found
    · rename_i absent
      have same : EntryList.delete s.pendingFrames (fun other => other = display) =
          s.pendingFrames := by
        refine List.filter_eq_self.mpr ?_
        rintro ⟨other, frame⟩ waits
        suffices differs : other ≠ display by simpa using differs
        rintro rfl
        rw [EntryList.get_of_mem sound.distinct waits] at absent
        cases absent
      exact framesSound_congr (closed none absent) rfl same.symm (List.append_nil _).symm rfl rfl
  · exact sound

theorem framesSound_step (s : Worker) (event : Event) (sound : FramesSound s) :
    FramesSound (s.step event) := by
  have message : ∀ {handled}, FramesSound handled → FramesSound (s.message handled) := by
    intro handled fine
    unfold Worker.message
    split
    · exact sound
    · exact fine
  cases event with
  | attachSurface context => exact message (framesSound_congr sound rfl rfl rfl rfl rfl)
  | detachSurface => exact message (framesSound_congr sound rfl rfl rfl rfl rfl)
  | setPolicy renderQuality customQuality customFps =>
    exact message (framesSound_congr sound rfl rfl rfl rfl rfl)
  | setActiveDisplay display reset => exact message (framesSound_setActiveDisplay sound)
  | decode codec display data isKey pts meets => exact message (framesSound_decodeVideo sound)
  | close => exact message (framesSound_closeWorker sound)
  | creation number outcome meets =>
    change FramesSound (s.creation number outcome meets)
    unfold Worker.creation
    split
    · exact framesSound_endCreation sound
    · exact sound
  | decoderError decoder =>
    change FramesSound (s.decoderError decoder)
    unfold Worker.decoderError
    split
    · exact framesSound_congr sound rfl rfl rfl rfl rfl
    · exact sound
  | output decoder =>
    change FramesSound (s.output decoder)
    unfold Worker.output
    split
    · exact framesSound_handleFrame sound
    · exact sound
  | render callback => exact framesSound_render sound

theorem leakFree_start : LeakFree ({} : Worker) := by
  refine ⟨fun decoder key opened => ?_, fun closed => by cases closed⟩
  simp [IsOpen] at opened

theorem framesSound_start : FramesSound ({} : Worker) := by
  refine ⟨List.nodup_nil, ?_, ?_, ?_, ?_⟩ <;> simp

theorem framesSound_after (events : List Event) : FramesSound (after events) :=
  Runs.invariant (fun s event sound _ => framesSound_step s event sound) framesSound_start
    (Runs.along_true _ events)

/-- A frame is closed, or waits. -/
theorem kept_of_framesSound (sound : FramesSound s) {frame : Nat} {display : Int}
    (found : s.frames[frame]? = some display) : Kept s frame display := by
  have waits := EntryList.get_iff (k := display) (v := frame) sound.distinct
  by_cases waiting : (display, frame) ∈ s.pendingFrames
  · obtain ⟨-, zero, flag⟩ := sound.pending display frame waiting
    exact .inr ⟨zero, waits.mpr waiting, flag, sound.scheduled display flag⟩
  · exact .inl ⟨sound.closed display frame found waiting, fun got => waiting (waits.mp got)⟩

/-- **No decoder leaks unless a creation ends beside an open one**: in the states of a run an
open decoder is the one registered for its display and codec, and the worker is open, exactly
when each creation that gave a decoder of a rendered display did so in an open worker with no
open decoder of that display and codec; and whatever the run, a frame is closed once, or it is
the one of its display that waits for a scheduled callback. -/
theorem registry_leak_free (events : List Event) :
    ((∀ before, before <+: events → LeakFree (after before)) ↔
      Runs.Along Worker.step Alone {} events) ∧
    ∀ frame display, (after events).frames[frame]? = some display →
      Kept (after events) frame display := by
  refine ⟨⟨fun free => ?_, fun alone => ?_⟩, fun frame display found =>
    kept_of_framesSound (framesSound_after events) found⟩
  · induction events using List.reverseRecOn with
    | nil => trivial
    | append_singleton events event ih =>
      refine Runs.along_snoc.mpr ⟨ih fun before isPrefix =>
        free before (isPrefix.trans (List.prefix_append events [event])), ?_⟩
      by_contra beside
      have now : LeakFree (after (events ++ [event])) := free _ List.prefix_rfl
      rw [after, Runs.run_append] at now
      exact not_leakFree_step beside now
  · rintro before ⟨later, rfl⟩
    exact Runs.invariant leakFree_step leakFree_start (Runs.along_append.mp alone).1

/-- There is one open decoder for a display and codec. -/
theorem leakFree_unique (free : LeakFree s) {other : Nat} (opened : IsOpen s decoder key)
    (opened' : IsOpen s other key) : decoder = other :=
  Option.some.inj ((free.registered decoder key opened).symm.trans
    (free.registered other key opened'))

def calm : Meets := ⟨0, 0, false⟩

def keyChunk : Event := .decode .vp9 0 [1] true (some 0) calm

/-- A reset while a decoder is created. -/
def resetWhileBooting : List Event :=
  [.attachSurface true, keyChunk, .setActiveDisplay 0 true, keyChunk,
    .creation 0 .decoder fun _ => calm, .creation 1 .decoder fun _ => calm]

def closedWhileBooting : List Event :=
  [.attachSurface true, keyChunk, .close, .creation 0 .decoder fun _ => calm]

theorem decoders_leak :
    ¬ LeakFree (after resetWhileBooting) ∧ ¬ LeakFree (after closedWhileBooting) := by
  constructor
  · intro free
    have both : IsOpen (after resetWhileBooting) 0 ⟨0, .vp9⟩ ∧
        IsOpen (after resetWhileBooting) 1 ⟨0, .vp9⟩ := by
      constructor <;> decide
    exact absurd (leakFree_unique free both.1 both.2) (by decide)
  · intro free
    exact free.closed rfl 0 ⟨0, .vp9⟩ (by decide)

end CamelliaRemote.Web.VideoWorker
