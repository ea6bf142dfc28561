import MkvCodec.Gpu.VplReads

/-!
# Both kinds of reads from oneVPL

`IntelWebmDecoder` with `read` beside `read_gpu`. Both pull from one container, one decoder and one queue of pending surfaces, but each
kind of frame has its own queue. The functions are those of `IntelReader` where the two kinds do not differ; here the calls may also
fail, and the frames of a call that fails are lost.
-/

namespace MkvCodec.Gpu

open Concurrency SlotPool

/-- The kind of output of a read. -/
inductive VplOutput
  | cpu
  | gpu
  deriving DecidableEq

/-- A collected frame: the surface that it shows, and the slot that keeps the surface when it is on the GPU. -/
structure VplFrame where
  surface : VplSurface
  slot : Option (Nat × Nat)
  deriving DecidableEq

/-- The status of an error, which is none of the end of a stream. -/
abbrev Failure := { status : Status // status.result ≠ .ok ∧ status.result ≠ .endOfStream }

/-- What a collection meets. On the CPU, the last answer of `MFXVideoCORE_SyncOperation` and what the copy comes to. -/
inductive CollectAnswer
  | cpu (sync : Int) (copied : Except Failure Unit)
  | gpu (wrapped : Except Failure Unit)

def CollectAnswer.output : CollectAnswer → VplOutput
  | .cpu _ _ => .cpu
  | .gpu _ => .gpu

namespace VplDecoderQueue

variable (q : VplDecoderQueue)

/-- `collect_cpu`. -/
def collectCpu (sync : Int) (copied : Except Failure Unit) : Status × VplDecoderQueue × Option VplFrame :=
  match q.pending with
  | [] => (.ok, q, none)
  | surface :: pending =>
      let q := { q with pending := pending }
      if sync ≠ 0 then
        (⟨if sync = -13 then .errorIo else .errorCodec, "oneVPL decoder SyncOperation failed with status " ++ toString sync⟩, q, none)
      else
        match copied with
        | .error failure => (failure.val, q, none)
        | .ok () => (.ok, q, some ⟨surface, none⟩)

def collect (answer : CollectAnswer) : Status × VplDecoderQueue × Option VplFrame :=
  match answer with
  | .cpu sync copied => q.collectCpu sync copied
  | .gpu wrapped =>
      let r := q.collectGpu (wrapped.mapError Subtype.val)
      (r.1, r.2.1, r.2.2.map fun frame => ⟨frame.surface, some (frame.slot, frame.generation)⟩)

/-- Frames are destroyed. Those of the GPU give their slots back. -/
def dropFrames (frames : List VplFrame) : VplDecoderQueue :=
  { q with
    pool := frames.foldl (fun pool frame =>
      match frame.slot with
      | some (slot, generation) => pool.recycle slot generation
      | none => pool) q.pool }

end VplDecoderQueue

/-- Where the thread of the decoder is, as in `IntelReadPc`, with the kind of the read. -/
inductive MixedReadPc
  | idle
  | loop (kind : VplOutput)
  | packet (kind : VplOutput) (size : Nat)
  | submit (kind : VplOutput) (pump : VplPump) (frames : List VplFrame)
  | collect (kind : VplOutput) (pump : VplPump) (frames : List VplFrame) (after : AfterCollect)

/-- What has become of a surface that was collected. -/
inductive ReadFate
  | read (kind : VplOutput)
  | lost
  deriving DecidableEq

/-- `IntelWebmDecoder`. `completed` are its two queues. `answer` is the kind of the latest call and what it came to, and `clean` says
that every call came to OK or to the end of the stream. `outside` are the GPU frames that were delivered and not released, `output` the
surfaces that oneVPL has put out, `taken` those that were collected by calls that have ended, `delivered` those that were returned, and
`released` those that were given back to oneVPL; the code has none of these. -/
structure MixedReader where
  queue : VplDecoderQueue
  dataLength : Nat
  initialized : Bool
  decoderDrained : Bool
  completed : VplOutput → List VplFrame
  demuxEos : Bool
  drained : Bool
  closed : Bool
  pc : MixedReadPc
  answer : Option (VplOutput × Status)
  clean : Bool
  outside : List VplFrame
  output : List VplSurface
  taken : List (VplSurface × ReadFate)
  delivered : VplOutput → List VplSurface
  released : List VplSurface

inductive MixedReadLabel
  | call (kind : VplOutput)
  | read (status : Status) (size : Nat)
  | initializeDecoder (header init : Int)
  | submit (answer : DecodeAnswer) (taken : Nat)
  | collect (answer : CollectAnswer)
  | releaseFrame (k : Nat)
  | close

/-- The surfaces that frames of the GPU keep. -/
def keptSurfaces (frames : List VplFrame) : List VplSurface :=
  frames.filterMap fun frame => frame.slot.map fun _ => frame.surface

namespace MixedReader

def init (asyncDepth capacity : Nat) : MixedReader where
  queue := ⟨asyncDepth, [], 0, .new capacity, false⟩
  dataLength := 0
  initialized := false
  decoderDrained := false
  completed _ := []
  demuxEos := false
  drained := false
  closed := false
  pc := .idle
  answer := none
  clean := true
  outside := []
  output := []
  taken := []
  delivered _ := []
  released := []

variable (s : MixedReader)

def returns (kind : VplOutput) (status : Status) : MixedReader :=
  { s with
    pc := .idle
    answer := some (kind, status)
    clean := s.clean && (decide (status.result = .ok) || decide (status.result = .endOfStream)) }

/-- A call of the decoder returns, which the read passes on if it is not OK. `gone` are the surfaces that it took and that no frame
shows. -/
def finish (kind : VplOutput) (pump : VplPump) (frames : List VplFrame) (gone : List VplSurface) (status : Status) : MixedReader :=
  if status.result ≠ .ok then
    { s with
      queue := s.queue.dropFrames frames
      taken := s.taken ++ (frames.map VplFrame.surface ++ gone).map fun surface => (surface, ReadFate.lost)
      released := s.released ++ keptSurfaces frames }.returns kind status
  else
    { s with
      completed := Function.update s.completed kind (s.completed kind ++ frames)
      taken := s.taken ++ frames.map fun frame => (frame.surface, ReadFate.read kind)
      decoderDrained := s.decoderDrained || decide (pump = .drain)
      drained := s.drained || decide (pump = .drain)
      pc := .loop kind }

/-- The head of the loop of `pump_packet` or `drain_queue`. -/
def head (kind : VplOutput) (pump : VplPump) (frames : List VplFrame) : MixedReader :=
  match pump with
  | .decode => if s.dataLength = 0 then s.finish kind .decode frames [] .ok else { s with pc := .submit kind .decode frames }
  | .drain => { s with pc := .submit kind .drain frames }

/-- The end of a turn of `pump_packet`. -/
def progress (kind : VplOutput) (before : Nat) (frames : List VplFrame) : MixedReader :=
  if before ≤ s.dataLength then s.finish kind .decode frames [] .ok else s.head kind .decode frames

/-- The last loop of `drain_queue`. -/
def flush (kind : VplOutput) (frames : List VplFrame) : MixedReader :=
  if s.queue.pending.isEmpty then s.finish kind .drain frames [] .ok else { s with pc := .collect kind .drain frames .flush }

/-- The head of the loop of `read` and of `read_gpu`. -/
def readFrame (kind : VplOutput) (status : Status) (size : Nat) : MixedReader :=
  match s.completed kind with
  | frame :: rest =>
      { s.returns kind .ok with
        completed := Function.update s.completed kind rest
        outside := if frame.slot.isSome then s.outside ++ [frame] else s.outside
        delivered := Function.update s.delivered kind (s.delivered kind ++ [frame.surface]) }
  | [] =>
      if !s.demuxEos then
        if status.result ≠ .ok ∧ status.result ≠ .endOfStream then s.returns kind status
        else if status.result = .endOfStream then { s with demuxEos := true }
        else { s with pc := .packet kind size }
      else if !s.drained then
        if s.decoderDrained || !s.initialized then { s with drained := true } else { s with pc := .submit kind .drain [] }
      else s.returns kind ⟨.endOfStream, ""⟩

/-- `decode` and `decode_gpu` up to their loop. -/
def decode (kind : VplOutput) (size : Nat) (header init : Int) : MixedReader :=
  if s.decoderDrained then s.returns kind ⟨.errorInvalidState, "oneVPL decoder is closed or drained"⟩
  else if size = 0 ∨ 2 ^ 32 ≤ size then s.returns kind ⟨.errorInvalidArgument, "invalid compressed packet"⟩
  else
    let s := { s with dataLength := size }
    if s.initialized then s.head kind .decode []
    else if header ≠ 0 then
      s.returns kind ⟨if header = -10 then .errorCodec else .errorNotSupported,
        "oneVPL DecodeHeader failed with status " ++ toString header⟩
    else if init < 0 then
      s.returns kind ⟨.errorCodec, "oneVPL video-memory decoder Init failed with status " ++ toString init⟩
    else { s with initialized := true }.head kind .decode []

/-- A turn of `pump_packet` behind `submit`, with the bytes that were there before. -/
def packetTurn (kind : VplOutput) (frames : List VplFrame) (before : Nat) (status : Status) : MixedReader :=
  if status.result = .wouldBlock ∧ s.queue.pending ≠ [] then { s with pc := .collect kind .decode frames .again }
  else if status.result ≠ .ok ∧ status.result ≠ .endOfStream then s.finish kind .decode frames [] status
  else if status.result = .ok ∧ s.queue.asyncDepth ≤ s.queue.pending.length then
    { s with pc := .collect kind .decode frames (.progress before) }
  else s.progress kind before frames

/-- A turn of the first loop of `drain_queue` behind `submit`. -/
def drainTurn (kind : VplOutput) (frames : List VplFrame) (status : Status) : MixedReader :=
  if status.result = .endOfStream then s.flush kind frames
  else if status.result = .wouldBlock ∧ s.queue.pending ≠ [] then { s with pc := .collect kind .drain frames .again }
  else if status.result ≠ .ok then s.finish kind .drain frames [] status
  else if s.queue.asyncDepth ≤ s.queue.pending.length then { s with pc := .collect kind .drain frames .again }
  else s.head kind .drain frames

/-- Behind a collection that took the surfaces of `popped`. -/
def collected (kind : VplOutput) (pump : VplPump) (frames : List VplFrame) (after : AfterCollect) (popped : List VplSurface)
    (status : Status) (frame : Option VplFrame) : MixedReader :=
  if status.result ≠ .ok then s.finish kind pump frames popped status
  else
    match after with
    | .again => s.head kind pump (frames ++ frame.toList)
    | .progress before => s.progress kind before (frames ++ frame.toList)
    | .flush => s.flush kind (frames ++ frame.toList)

/-- The surfaces that a collection gives back itself: a frame of the CPU has copied its surface, and one of the GPU keeps it. -/
def givenBack (popped : List VplSurface) (frame : Option VplFrame) : List VplSurface :=
  match frame with
  | some ⟨_, some _⟩ => []
  | _ => popped

/-- One step. One thread reads and closes. -/
def step (s : MixedReader) : MixedReadLabel → Option MixedReader
  | .call kind =>
      match s.pc with
      | .idle =>
          if s.closed then some (s.returns kind ⟨.errorInvalidState, "Intel decoder is closed"⟩)
          else some { s with pc := .loop kind, answer := none }
      | _ => none
  | .read status size =>
      match s.pc with
      | .loop kind => some (s.readFrame kind status size)
      | _ => none
  | .initializeDecoder header init =>
      match s.pc with
      | .packet kind size => some (s.decode kind size header init)
      | _ => none
  | .submit answer taken =>
      match s.pc with
      | .submit kind pump frames =>
          let status := (s.queue.submit answer).1
          let t := { s with queue := (s.queue.submit answer).2, output := s.output ++ answer.output.toList }
          if answer.busy then some s
          else
            match pump with
            | .decode =>
                if s.dataLength < taken then none
                else some ({ t with dataLength := s.dataLength - taken }.packetTurn kind frames s.dataLength status)
            | .drain => some (t.drainTurn kind frames status)
      | _ => none
  | .collect answer =>
      match s.pc with
      | .collect kind pump frames after =>
          if answer.output ≠ kind then none
          else
            let r := s.queue.collect answer
            let popped := s.queue.pending.take (s.queue.pending.length - r.2.1.pending.length)
            some ({ s with queue := r.2.1, released := s.released ++ givenBack popped r.2.2 }.collected kind pump frames after popped
              r.1 r.2.2)
      | _ => none
  | .releaseFrame k =>
      s.outside[k]?.map fun frame =>
        { s with
          queue := s.queue.dropFrames [frame]
          outside := s.outside.eraseIdx k
          released := s.released ++ keptSurfaces [frame] }
  | .close =>
      match s.pc with
      | .idle =>
          if s.closed then none
          else
            some { s with
              queue := { s.queue.dropFrames (s.completed .cpu ++ s.completed .gpu) with pending := [], closed := true }
              completed := fun _ => []
              closed := true
              released := s.released ++ s.queue.pending ++ keptSurfaces (s.completed .cpu ++ s.completed .gpu) }
      | _ => none

def Step (s : MixedReader) (l : MixedReadLabel) (t : MixedReader) : Prop := s.step l = some t

end MixedReader

/-! ## Collections -/

/-- What is collected of a queue: the oldest surface with its frame, nothing but an error, or nothing at all. -/
structure Collection (q : VplDecoderQueue) (r : Status × VplDecoderQueue × Option VplFrame) (popped : List VplSurface) : Prop where
  pending : q.pending = popped ++ r.2.1.pending
  closed : r.2.1.closed = q.closed
  asyncDepth : r.2.1.asyncDepth = q.asyncDepth
  frame : r.1.result = .ok → popped = r.2.2.toList.map VplFrame.surface
  failed : r.1.result ≠ .ok → r.2.2 = none ∧ r.1.result ≠ .endOfStream

namespace VplDecoderQueue

variable {q : VplDecoderQueue}

theorem collectCpu_collection (q : VplDecoderQueue) (sync : Int) (copied : Except Failure Unit) :
    ∃ popped, Collection q (q.collectCpu sync copied) popped := by
  cases hpending : q.pending with
  | nil =>
      have heq : q.collectCpu sync copied = (.ok, q, none) := by simp [collectCpu, hpending]
      exact ⟨[], by simp [heq, hpending], by rw [heq], by rw [heq], by simp [heq], by simp [heq]⟩
  | cons surface pending =>
      refine ⟨[surface], ?_⟩
      by_cases hsync : sync = 0
      · cases copied with
        | error failure =>
            have heq : q.collectCpu sync (.error failure) = (failure.val, { q with pending := pending }, none) := by
              simp [collectCpu, hpending, hsync]
            rw [heq]
            exact ⟨hpending, rfl, rfl, fun hok => absurd hok failure.property.1, fun _ => ⟨rfl, failure.property.2⟩⟩
        | ok copied =>
            have heq : q.collectCpu sync (.ok copied) = (.ok, { q with pending := pending }, some ⟨surface, none⟩) := by
              simp [collectCpu, hpending, hsync]
            rw [heq]
            exact ⟨hpending, rfl, rfl, fun _ => rfl, fun hne => absurd rfl hne⟩
      · have heq : q.collectCpu sync copied = (⟨if sync = -13 then .errorIo else .errorCodec,
            "oneVPL decoder SyncOperation failed with status " ++ toString sync⟩, { q with pending := pending }, none) := by
          simp [collectCpu, hpending, hsync]
        rw [heq]
        refine ⟨hpending, rfl, rfl, fun hok => ?_, fun _ => ⟨rfl, ?_⟩⟩
        · simp only at hok
          split at hok <;> cases hok
        · simp only
          split <;> exact fun h => by cases h

theorem acquire_error {pool : GpuFramePool} {producer : Bool} {status : Status} (h : pool.acquire producer = .error status) :
    status.result ≠ .ok ∧ status.result ≠ .endOfStream := by
  unfold GpuFramePool.acquire at h
  split at h
  · cases h
    exact ⟨by simp, by simp⟩
  split at h
  · cases h
    exact ⟨by simp [GpuFramePool.full], by simp [GpuFramePool.full]⟩
  split at h
  · cases h
    exact ⟨by simp [GpuFramePool.full], by simp [GpuFramePool.full]⟩
  · cases h

/-- A wrap comes with a frame, or with an error. -/
theorem wrap_cases (q : VplDecoderQueue) (surface : VplSurface) (wrapped : Except Failure Unit) :
    (∃ pool slot generation, q.wrap surface (wrapped.mapError Subtype.val) = (.ok, pool, some ⟨surface, slot, generation⟩)) ∨
      ∃ status, q.wrap surface (wrapped.mapError Subtype.val) = (status, q.pool, none) ∧ status.result ≠ .ok ∧
        status.result ≠ .endOfStream := by
  cases wrapped with
  | error failure => exact .inr ⟨failure.val, rfl, failure.property⟩
  | ok wrapped =>
      cases hacquire : q.pool.acquire true with
      | error status => exact .inr ⟨status, by simp [wrap, Except.mapError, hacquire], acquire_error hacquire⟩
      | ok r =>
          obtain ⟨pool, slot, generation⟩ := r
          exact .inl ⟨pool, slot, generation, by simp [wrap, Except.mapError, hacquire]⟩

theorem collect_collection (q : VplDecoderQueue) (answer : CollectAnswer) : ∃ popped, Collection q (q.collect answer) popped := by
  cases answer with
  | cpu sync copied => exact collectCpu_collection q sync copied
  | gpu wrapped =>
      cases hpending : q.pending with
      | nil =>
          have heq : q.collect (.gpu wrapped) = (.ok, q, none) := by simp [collect, collectGpu, hpending]
          exact ⟨[], by simp [heq, hpending], by rw [heq], by rw [heq], by simp [heq], by simp [heq]⟩
      | cons surface pending =>
          by_cases hfull : q.pool.slots.length ≤ q.pool.inUse
          · have heq : q.collect (.gpu wrapped) = (poolFull, q, none) := by simp [collect, collectGpu, hpending, hfull]
            exact ⟨[], by simp [heq, hpending], by rw [heq], by rw [heq], by simp [heq, poolFull], by simp [heq, poolFull]⟩
          · rcases wrap_cases q surface wrapped with ⟨pool, slot, generation, hwrap⟩ | ⟨status, hwrap, hok, hend⟩
            · have heq : q.collect (.gpu wrapped) =
                  (.ok, { q with pending := pending, pool := pool }, some ⟨surface, some (slot, generation)⟩) := by
                simp [collect, collectGpu, hpending, hfull, hwrap]
              exact ⟨[surface], by simp [heq, hpending], by rw [heq], by rw [heq], by simp [heq], by simp [heq]⟩
            · by_cases hblocked : status.result = .wouldBlock
              · have heq : q.collect (.gpu wrapped) = (status, q, none) := by
                  simp [collect, collectGpu, hpending, hfull, hwrap, hblocked]
                exact ⟨[], by simp [heq, hpending], by rw [heq], by rw [heq], by simp [heq, hok], by simp [heq, hend]⟩
              · have heq : q.collect (.gpu wrapped) = (status, { q with pending := pending, pool := q.pool }, none) := by
                  simp [collect, collectGpu, hpending, hfull, hwrap, hblocked]
                exact ⟨[surface], by simp [heq, hpending], by rw [heq], by rw [heq], by simp [heq, hok], by simp [heq, hend]⟩

end VplDecoderQueue

/-- What a collection took is the part of the queue that it does not leave. -/
theorem Collection.popped {q : VplDecoderQueue} {r : Status × VplDecoderQueue × Option VplFrame} {popped : List VplSurface}
    (h : Collection q r popped) : q.pending.take (q.pending.length - r.2.1.pending.length) = popped := by
  rw [h.pending]
  simp

/-! ## The account -/

/-- The frames of the call that is running. -/
def MixedReadPc.frames : MixedReadPc → List VplFrame
  | .submit _ _ frames | .collect _ _ frames _ => frames
  | .idle | .loop _ | .packet _ _ => []

namespace MixedReader

/-- The surfaces that were collected for a kind of read. -/
def ofKind (kind : VplOutput) (taken : List (VplSurface × ReadFate)) : List VplSurface :=
  (taken.filter fun entry => decide (entry.2 = .read kind)).map Prod.fst

/-- The surfaces that are not given back, where the running call has these frames. -/
def kept (s : MixedReader) (frames : List VplFrame) : List VplSurface :=
  s.queue.pending ++ keptSurfaces frames ++ keptSurfaces (s.completed .cpu) ++ keptSurfaces (s.completed .gpu) ++
    keptSurfaces s.outside

/-- Where the surfaces are. -/
structure Accounts (s : MixedReader) (frames : List VplFrame) : Prop where
  order : s.closed = false → s.output = s.taken.map Prod.fst ++ frames.map VplFrame.surface ++ s.queue.pending
  kinds : s.closed = false → ∀ kind, ofKind kind s.taken = s.delivered kind ++ (s.completed kind).map VplFrame.surface
  delivered : ∀ kind, s.delivered kind <+: ofKind kind s.taken
  released : ∀ surface, s.output.count surface = s.released.count surface + (s.kept frames).count surface
  clean : s.clean = true → ∀ entry ∈ s.taken, entry.2 ≠ .lost

/-- What holds inside a call and outside. -/
structure Basic (s : MixedReader) : Prop where
  queueOpen : s.closed = false → s.queue.closed = false
  pending : s.initialized = false ∨ s.drained = true → s.queue.pending = []
  decoderDrained : s.decoderDrained = true → s.drained = true
  demuxEos : s.drained = true → s.demuxEos = true

/-- A call is running, with the frames that it has collected. -/
structure Running (s : MixedReader) (frames : List VplFrame) : Prop extends Basic s, Accounts s frames where
  opened : s.closed = false
  answer : s.answer = none

/-- The call is inside a pump. -/
structure Pumping (s : MixedReader) (pump : VplPump) (frames : List VplFrame) : Prop extends Running s frames where
  initialized : s.initialized = true
  notDrained : s.drained = false
  ended : pump = .drain → s.demuxEos = true

/-- No call is running. -/
structure Outside (s : MixedReader) : Prop extends Basic s, Accounts s [] where
  answered : ∀ kind status, s.answer = some (kind, status) → status.result = .endOfStream →
    s.completed kind = [] ∧ s.queue.pending = []

def Sound (s : MixedReader) : Prop :=
  match s.pc with
  | .idle => s.Outside
  | .loop _ => s.Running []
  | .packet _ _ => s.Running [] ∧ s.drained = false
  | .submit _ pump frames => s.Pumping pump frames
  | .collect _ pump frames after => s.Pumping pump frames ∧ after.Fits pump

variable {s t : MixedReader} {kind : VplOutput} {pump : VplPump} {frames : List VplFrame}

theorem keptSurfaces_append (frames frames' : List VplFrame) :
    keptSurfaces (frames ++ frames') = keptSurfaces frames ++ keptSurfaces frames' := List.filterMap_append

theorem ofKind_append (kind : VplOutput) (taken taken' : List (VplSurface × ReadFate)) :
    ofKind kind (taken ++ taken') = ofKind kind taken ++ ofKind kind taken' := by
  simp [ofKind]

theorem ofKind_lost (kind : VplOutput) (surfaces : List VplSurface) :
    ofKind kind (surfaces.map fun surface => (surface, ReadFate.lost)) = [] := by
  simp [ofKind, List.filter_map, Function.comp_def]

theorem ofKind_read (kind kind' : VplOutput) (frames : List VplFrame) :
    ofKind kind' (frames.map fun frame => (frame.surface, ReadFate.read kind)) =
      if kind' = kind then frames.map VplFrame.surface else [] := by
  by_cases hkind : kind' = kind
  · simp [ofKind, List.filter_map, Function.comp_def, hkind]
  · simp [ofKind, List.filter_map, Function.comp_def, hkind, Ne.symm hkind]

/-- A call that takes nothing more returns. -/
theorem Running.outside (h : s.Running []) {status : Status} (hend : status.result = .endOfStream →
    s.completed kind = [] ∧ s.queue.pending = []) : (s.returns kind status).Sound := by
  obtain ⟨⟨hqueue, hpending, hdecoder, heos⟩, ⟨horder, hkinds, hdelivered, hreleased, hclean⟩, -, -⟩ := h
  refine ⟨⟨hqueue, hpending, hdecoder, heos⟩, ⟨horder, hkinds, hdelivered, hreleased, fun h => ?_⟩, ?_⟩
  · simp only [returns, Bool.and_eq_true] at h
    exact hclean h.1
  · rintro _ _ ⟨⟩
    exact hend

/-- A call fails, with surfaces that no frame of it shows. -/
theorem Basic.fail {gone : List VplSurface} {status : Status} (hbasic : s.Basic)
    (horder : s.output = s.taken.map Prod.fst ++ (frames.map VplFrame.surface ++ gone) ++ s.queue.pending)
    (hkinds : ∀ kind, ofKind kind s.taken = s.delivered kind ++ (s.completed kind).map VplFrame.surface)
    (hreleased : ∀ surface, s.output.count surface = s.released.count surface + (s.kept frames).count surface)
    (hok : status.result ≠ .ok) (hend : status.result ≠ .endOfStream) : (s.finish kind pump frames gone status).Sound := by
  rw [finish, if_pos hok]
  refine ⟨⟨hbasic.queueOpen, hbasic.pending, hbasic.decoderDrained, hbasic.demuxEos⟩, ⟨?_, ?_, ?_, ?_, ?_⟩, ?_⟩
  · intro _
    simpa [returns, VplDecoderQueue.dropFrames, Function.comp_def] using horder
  · intro _ kind'
    simp only [returns, ofKind_append, ofKind_lost, List.append_nil]
    exact hkinds kind'
  · intro kind'
    simp only [returns, ofKind_append, ofKind_lost, List.append_nil]
    exact ⟨_, (hkinds kind').symm⟩
  · intro surface
    have hcount := hreleased surface
    simp only [returns, kept, VplDecoderQueue.dropFrames, List.count_append, keptSurfaces, List.filterMap_nil,
      List.count_nil] at hcount ⊢
    omega
  · intro h
    simp [returns, hok, hend] at h
  · rintro _ _ ⟨⟩ heq
    exact absurd heq hend

theorem Pumping.fail (h : s.Pumping pump frames) {status : Status} (hok : status.result ≠ .ok)
    (hend : status.result ≠ .endOfStream) : (s.finish kind pump frames [] status).Sound :=
  h.toBasic.fail (by simpa using h.order h.opened) (h.kinds h.opened) h.released hok hend

/-- A pump ends, and its frames are queued. -/
theorem Pumping.finish_ok (h : s.Pumping pump frames) (hflushed : pump = .drain → s.queue.pending = []) :
    (s.finish kind pump frames [] .ok).Sound := by
  obtain ⟨⟨⟨hqueue, hpending, hdecoder, heos⟩, ⟨horder, hkinds, hdelivered, hreleased, hclean⟩, hopen, hanswer⟩, hinit, hnot,
    hended⟩ := h
  have hfinish : s.finish kind pump frames [] .ok = { s with
      completed := Function.update s.completed kind (s.completed kind ++ frames)
      taken := s.taken ++ frames.map fun frame => (frame.surface, ReadFate.read kind)
      decoderDrained := s.decoderDrained || decide (pump = .drain)
      drained := s.drained || decide (pump = .drain)
      pc := .loop kind } := by simp [finish]
  have hofKind : ∀ kind', ofKind kind' (s.taken ++ frames.map fun frame => (frame.surface, ReadFate.read kind)) =
      s.delivered kind' ++ (Function.update s.completed kind (s.completed kind ++ frames) kind').map VplFrame.surface := by
    intro kind'
    rw [ofKind_append, ofKind_read, hkinds hopen kind']
    by_cases hkind : kind' = kind
    · subst hkind
      simp
    · simp [hkind]
  rw [hfinish]
  refine ⟨⟨hqueue, ?_, ?_, ?_⟩, ⟨?_, fun _ => hofKind, fun kind' => ⟨_, (hofKind kind').symm⟩, ?_, ?_⟩, hopen, hanswer⟩
  · cases pump with
    | decode => simpa using hpending
    | drain => exact fun _ => hflushed rfl
  · intro hd
    cases pump with
    | decode => simpa using hdecoder (by simpa using hd)
    | drain => simp
  · cases pump with
    | decode => simpa using heos
    | drain => exact fun _ => hended rfl
  · intro _
    simpa [Function.comp_def] using horder hopen
  · intro surface
    have hcount := hreleased surface
    cases kind <;>
      simp only [kept, Function.update_self, Function.update_of_ne (by decide : VplOutput.cpu ≠ .gpu),
        Function.update_of_ne (by decide : VplOutput.gpu ≠ .cpu), keptSurfaces, List.count_append,
        List.filterMap_append, List.filterMap_nil, List.count_nil] at hcount ⊢ <;> omega
  · intro h entry hmem
    rcases List.mem_append.mp hmem with hmem | hmem
    · exact hclean h entry hmem
    · obtain ⟨frame, -, rfl⟩ := List.mem_map.mp hmem
      exact fun h => by cases h

theorem Pumping.sound_submit (h : s.Pumping pump frames) : Sound { s with pc := .submit kind pump frames } := by
  obtain ⟨⟨⟨hqueue, hpending, hdecoder, heos⟩, ⟨horder, hkinds, hdelivered, hreleased, hclean⟩, hopen, hanswer⟩, hinit, hnot,
    hended⟩ := h
  exact ⟨⟨⟨hqueue, hpending, hdecoder, heos⟩, ⟨horder, hkinds, hdelivered, hreleased, hclean⟩, hopen, hanswer⟩, hinit, hnot,
    hended⟩

theorem Pumping.sound_collect (h : s.Pumping pump frames) {after : AfterCollect} (hfits : after.Fits pump) :
    Sound { s with pc := .collect kind pump frames after } := by
  obtain ⟨⟨⟨hqueue, hpending, hdecoder, heos⟩, ⟨horder, hkinds, hdelivered, hreleased, hclean⟩, hopen, hanswer⟩, hinit, hnot,
    hended⟩ := h
  exact ⟨⟨⟨⟨hqueue, hpending, hdecoder, heos⟩, ⟨horder, hkinds, hdelivered, hreleased, hclean⟩, hopen, hanswer⟩, hinit, hnot,
    hended⟩, hfits⟩

theorem Pumping.head (h : s.Pumping pump frames) : (s.head kind pump frames).Sound := by
  cases pump with
  | decode =>
      simp only [MixedReader.head]
      split
      · exact h.finish_ok fun h => by cases h
      · exact h.sound_submit
  | drain => exact h.sound_submit

theorem Pumping.progress (h : s.Pumping .decode frames) (before : Nat) : (s.progress kind before frames).Sound := by
  rw [MixedReader.progress]
  split
  · exact h.finish_ok fun h => by cases h
  · exact h.head

theorem Pumping.flush (h : s.Pumping .drain frames) : (s.flush kind frames).Sound := by
  rw [MixedReader.flush]
  split
  case isTrue hempty => exact h.finish_ok fun _ => List.isEmpty_iff.mp hempty
  case isFalse => exact h.sound_collect rfl

theorem Pumping.packetTurn (h : s.Pumping .decode frames) (before : Nat) (status : Status) :
    (s.packetTurn kind frames before status).Sound := by
  rw [MixedReader.packetTurn]
  split
  · exact h.sound_collect trivial
  split
  case isTrue hfailed => exact h.fail hfailed.1 hfailed.2
  split
  · exact h.sound_collect rfl
  · exact h.progress before

theorem Pumping.drainTurn (h : s.Pumping .drain frames) (status : Status) : (s.drainTurn kind frames status).Sound := by
  rw [MixedReader.drainTurn]
  split
  · exact h.flush
  case isFalse hend =>
    split
    · exact h.sound_collect trivial
    split
    case isTrue hok => exact h.fail hok hend
    split
    · exact h.sound_collect trivial
    · exact h.head

/-- oneVPL has put out what comes with an answer, and taken some bytes. -/
theorem Pumping.submitted (h : s.Pumping pump frames) (answer : DecodeAnswer) (dataLength : Nat) :
    Pumping { s with
      queue := (s.queue.submit answer).2
      output := s.output ++ answer.output.toList
      dataLength := dataLength } pump frames := by
  obtain ⟨hpending, -, hclosed⟩ := VplDecoderQueue.submit_open (h.queueOpen h.opened) answer
  refine ⟨⟨⟨fun _ => hclosed, fun hor => ?_, h.decoderDrained, h.demuxEos⟩, ⟨fun _ => ?_, h.kinds, h.delivered, ?_, h.clean⟩,
    h.opened, h.answer⟩, h.initialized, h.notDrained, h.ended⟩
  · rcases hor with hinit | hdrained
    · rw [h.initialized] at hinit
      cases hinit
    · rw [h.notDrained] at hdrained
      cases hdrained
  · simp only [hpending, h.order h.opened, List.append_assoc]
  · intro surface
    have hcount := h.released surface
    simp only [kept, hpending, List.count_append] at hcount ⊢
    omega

theorem Pumping.submit (h : s.Pumping pump frames) (hpc : s.pc = .submit kind pump frames) {answer : DecodeAnswer} {taken : Nat}
    (hst : s.Step (.submit answer taken) t) : t.Sound := by
  simp only [Step, step, hpc] at hst
  split at hst
  · cases hst
    rw [Sound, hpc]
    exact h
  · cases pump with
    | decode =>
        simp only at hst
        split at hst <;> cases hst
        exact (h.submitted answer (s.dataLength - taken)).packetTurn s.dataLength _
    | drain =>
        cases hst
        exact (h.submitted answer s.dataLength).drainTurn _

/-- A collection takes the oldest surface, fails, or takes nothing. -/
theorem Pumping.collect (h : s.Pumping pump frames) {after : AfterCollect} (hpc : s.pc = .collect kind pump frames after)
    (hfits : after.Fits pump) {answer : CollectAnswer} (hst : s.Step (.collect answer) t) : t.Sound := by
  simp only [Step, step, hpc] at hst
  split at hst
  · cases hst
  obtain ⟨popped, hcollection⟩ := s.queue.collect_collection answer
  rw [hcollection.popped] at hst
  obtain ⟨hpending, hclosed, hdepth, hframe, hfailed⟩ := hcollection
  revert hst hpending hclosed hdepth hframe hfailed
  generalize s.queue.collect answer = r
  obtain ⟨status, queue, frame⟩ := r
  intro hst hpending hclosed hdepth hframe hfailed
  cases hst
  simp only at hpending hclosed hdepth hframe hfailed ⊢
  have hpend : s.initialized = false ∨ s.drained = true → queue.pending = [] := by
    rintro (hinit | hdrained)
    · rw [h.initialized] at hinit
      cases hinit
    · rw [h.notDrained] at hdrained
      cases hdrained
  have horder := h.order h.opened
  rw [hpending] at horder
  unfold MixedReader.collected
  by_cases hok : status.result = .ok
  · rw [if_neg (not_not.mpr hok)]
    have hpumping : Pumping { s with
        queue := queue
        released := s.released ++ givenBack popped frame } pump (frames ++ frame.toList) := by
      refine ⟨⟨⟨fun hopen => hclosed.trans (h.queueOpen hopen), hpend, h.decoderDrained, h.demuxEos⟩, ⟨fun _ => ?_, h.kinds,
        h.delivered, ?_, h.clean⟩, h.opened, h.answer⟩, h.initialized, h.notDrained, h.ended⟩
      · simp only [horder, hframe hok, List.map_append, List.append_assoc]
      · intro surface
        have hcount := h.released surface
        have hback : popped.count surface =
            (givenBack popped frame).count surface + (keptSurfaces frame.toList).count surface := by
          rw [hframe hok]
          obtain _ | ⟨shown, _ | slot⟩ := frame <;> simp [givenBack, keptSurfaces]
        simp only [kept, hpending, keptSurfaces_append, List.count_append] at hcount ⊢
        omega
    cases after with
    | again => exact hpumping.head
    | progress before =>
        cases hfits
        exact hpumping.progress before
    | flush =>
        cases hfits
        exact hpumping.flush
  · rw [if_pos hok]
    obtain ⟨rfl, hend⟩ := hfailed hok
    refine Basic.fail ⟨fun hopen => hclosed.trans (h.queueOpen hopen), hpend, h.decoderDrained, h.demuxEos⟩ ?_ (h.kinds h.opened) ?_
      hok hend
    · simpa only [List.append_assoc] using horder
    · intro surface
      have hcount := h.released surface
      simp only [kept, hpending, givenBack, List.count_append] at hcount ⊢
      omega

/-! ## The other steps -/

/-- A queued frame is returned. -/
theorem Running.deliver (h : s.Running []) {frame : VplFrame} {rest : List VplFrame}
    (hqueue : s.completed kind = frame :: rest) (status : Status) (size : Nat) : (s.readFrame kind status size).Sound := by
  obtain ⟨⟨hopened, hpending, hdecoder, heos⟩, ⟨horder, hkinds, hdelivered, hreleased, hclean⟩, hopen, hanswer⟩ := h
  have hofKind : ∀ kind', ofKind kind' s.taken =
      Function.update s.delivered kind (s.delivered kind ++ [frame.surface]) kind' ++
        (Function.update s.completed kind rest kind').map VplFrame.surface := by
    intro kind'
    rw [hkinds hopen kind']
    by_cases hkind : kind' = kind
    · subst hkind
      simp [hqueue]
    · simp [hkind]
  rw [readFrame, hqueue]
  refine ⟨⟨hopened, hpending, hdecoder, heos⟩, ⟨horder, fun _ => hofKind, fun kind' => ⟨_, (hofKind kind').symm⟩, ?_, ?_⟩, ?_⟩
  · intro surface
    have hcount := hreleased surface
    obtain ⟨shown, slot⟩ := frame
    cases slot <;> cases kind <;>
      simp only [returns, kept, hqueue, Function.update_self, Function.update_of_ne (by decide : VplOutput.cpu ≠ .gpu),
        Function.update_of_ne (by decide : VplOutput.gpu ≠ .cpu), keptSurfaces, List.filterMap_cons, List.filterMap_append,
        List.filterMap_nil, List.count_append, List.count_cons, List.count_nil, Option.map_none, Option.map_some,
        Option.isSome_some, Option.isSome_none, Bool.false_eq_true, if_true, if_false] at hcount ⊢ <;> omega
  · intro h
    simp only [returns, Bool.and_eq_true] at h
    exact hclean h.1
  · rintro _ _ ⟨⟩ hend
    cases hend

theorem Running.readFrame (h : s.Running []) (hpc : s.pc = .loop kind) (status : Status) (size : Nat) :
    (s.readFrame kind status size).Sound := by
  cases hqueue : s.completed kind with
  | cons frame rest => exact h.deliver hqueue status size
  | nil =>
      simp only [MixedReader.readFrame, hqueue]
      split
      case isTrue hdemux =>
          have hnotDrained : s.drained = false := by
            cases hd : s.drained with
            | false => rfl
            | true => simp [h.demuxEos hd] at hdemux
          split
          case isTrue hfailed => exact h.outside fun hend => absurd hend hfailed.2
          obtain ⟨⟨hopened, hpending, hdecoder, heos⟩, ⟨horder, hkinds, hdelivered, hreleased, hclean⟩, hopen, hanswer⟩ := h
          split
          · rw [Sound, hpc]
            exact ⟨⟨hopened, hpending, hdecoder, fun _ => rfl⟩, ⟨horder, hkinds, hdelivered, hreleased, hclean⟩, hopen, hanswer⟩
          · exact ⟨⟨⟨hopened, hpending, hdecoder, heos⟩, ⟨horder, hkinds, hdelivered, hreleased, hclean⟩, hopen, hanswer⟩,
              hnotDrained⟩
      case isFalse hdemux =>
          have hdemuxEos : s.demuxEos = true := by simpa using hdemux
          split
          case isTrue hdrain =>
              have hnotDrained : s.drained = false := by simpa using hdrain
              obtain ⟨⟨hopened, hpending, hdecoder, heos⟩, ⟨horder, hkinds, hdelivered, hreleased, hclean⟩, hopen, hanswer⟩ := h
              split
              case isTrue hnothing =>
                  have huninit : s.initialized = false := by
                    rcases Bool.or_eq_true _ _ |>.mp hnothing with hd | hi
                    · rw [hdecoder hd] at hnotDrained
                      cases hnotDrained
                    · simpa using hi
                  rw [Sound, hpc]
                  exact ⟨⟨hopened, fun _ => hpending (.inl huninit), fun _ => rfl, fun _ => hdemuxEos⟩,
                    ⟨horder, hkinds, hdelivered, hreleased, hclean⟩, hopen, hanswer⟩
              case isFalse hsomething =>
                  have hinit : s.initialized = true := by
                    cases hi : s.initialized with
                    | true => rfl
                    | false => simp [hi] at hsomething
                  exact ⟨⟨⟨hopened, hpending, hdecoder, heos⟩, ⟨horder, hkinds, hdelivered, hreleased, hclean⟩, hopen, hanswer⟩,
                    hinit, hnotDrained, fun _ => hdemuxEos⟩
          case isFalse hdrain =>
              have hd : s.drained = true := by simpa using hdrain
              exact h.outside fun _ => ⟨hqueue, h.pending (.inr hd)⟩

/-- The pump begins with a packet. -/
theorem Running.decode (h : s.Running []) (hnotDrained : s.drained = false) (size : Nat) (header init : Int) :
    (s.decode kind size header init).Sound := by
  obtain ⟨⟨hopened, hpending, hdecoder, heos⟩, ⟨horder, hkinds, hdelivered, hreleased, hclean⟩, hopen, hanswer⟩ := id h
  rw [MixedReader.decode]
  split
  · exact h.outside fun h => by cases h
  split
  · exact h.outside fun h => by cases h
  have hsized : Running { s with dataLength := size } [] :=
    ⟨⟨hopened, hpending, hdecoder, heos⟩, ⟨horder, hkinds, hdelivered, hreleased, hclean⟩, hopen, hanswer⟩
  simp only
  split
  case isTrue hinit => exact Pumping.head ⟨hsized, hinit, hnotDrained, fun h => by cases h⟩
  case isFalse hinit =>
      have huninit : s.initialized = false := by simpa using hinit
      split
      · refine hsized.outside fun hend => ?_
        simp only at hend
        split at hend <;> cases hend
      split
      · exact hsized.outside fun h => by cases h
      · exact Pumping.head ⟨⟨⟨hopened, fun _ => hpending (.inl huninit), hdecoder, heos⟩,
          ⟨horder, hkinds, hdelivered, hreleased, hclean⟩, hopen, hanswer⟩, rfl, hnotDrained, fun h => by cases h⟩

theorem keptSurfaces_eraseIdx {k : Nat} {frame : VplFrame} (hk : frames[k]? = some frame) (surface : VplSurface) :
    (keptSurfaces frames).count surface = (keptSurfaces [frame]).count surface + (keptSurfaces (frames.eraseIdx k)).count surface := by
  induction frames generalizing k with
  | nil => cases hk
  | cons first rest ih =>
      have hcons : ∀ frames', keptSurfaces (first :: frames') = keptSurfaces [first] ++ keptSurfaces frames' := fun frames' =>
        keptSurfaces_append [first] frames'
      cases k with
      | zero =>
          obtain rfl : first = frame := by simpa using hk
          rw [hcons rest, List.count_append, List.eraseIdx_cons_zero]
      | succ k =>
          have hrest := ih (k := k) (by simpa using hk)
          rw [hcons rest, List.eraseIdx_cons_succ, hcons (rest.eraseIdx k), List.count_append, List.count_append]
          omega

/-- A delivered frame is released, whatever the call that is running does. -/
theorem Sound.releaseFrame (h : s.Sound) {k : Nat} {frame : VplFrame} (hk : s.outside[k]? = some frame) (ht : t = { s with
    queue := s.queue.dropFrames [frame]
    outside := s.outside.eraseIdx k
    released := s.released ++ keptSurfaces [frame] }) : t.Sound := by
  have hpc : t.pc = s.pc := by rw [ht]
  have hbasic (hb : s.Basic) : t.Basic := by
    rw [ht]
    exact ⟨hb.queueOpen, hb.pending, hb.decoderDrained, hb.demuxEos⟩
  have haccounts {frames : List VplFrame} (ha : s.Accounts frames) : t.Accounts frames := by
    rw [ht]
    refine ⟨ha.order, ha.kinds, ha.delivered, fun surface => ?_, ha.clean⟩
    have hcount := ha.released surface
    have herase := keptSurfaces_eraseIdx hk surface
    simp only [kept, VplDecoderQueue.dropFrames, List.count_append] at hcount ⊢
    omega
  have hrunning {frames : List VplFrame} (hr : s.Running frames) : t.Running frames := by
    refine ⟨hbasic hr.toBasic, haccounts hr.toAccounts, ?_, ?_⟩ <;> rw [ht]
    · exact hr.opened
    · exact hr.answer
  have hpumping {pump : VplPump} {frames : List VplFrame} (hp : s.Pumping pump frames) : t.Pumping pump frames := by
    refine ⟨hrunning hp.toRunning, ?_, ?_, ?_⟩ <;> rw [ht]
    · exact hp.initialized
    · exact hp.notDrained
    · exact hp.ended
  rw [Sound] at h ⊢
  rw [hpc]
  cases hs : s.pc with
  | idle =>
      rw [hs] at h
      refine ⟨hbasic h.toBasic, haccounts h.toAccounts, ?_⟩
      rw [ht]
      exact h.answered
  | loop =>
      rw [hs] at h
      exact hrunning h
  | packet =>
      rw [hs] at h
      refine ⟨hrunning h.1, ?_⟩
      rw [ht]
      exact h.2
  | submit =>
      rw [hs] at h
      exact hpumping h
  | collect =>
      rw [hs] at h
      exact ⟨hpumping h.1, h.2⟩

theorem Outside.close (h : s.Outside) (hpc : s.pc = .idle) : Sound { s with
    queue := { s.queue.dropFrames (s.completed .cpu ++ s.completed .gpu) with pending := [], closed := true }
    completed := fun _ => []
    closed := true
    released := s.released ++ s.queue.pending ++ keptSurfaces (s.completed .cpu ++ s.completed .gpu) } := by
  rw [Sound, hpc]
  refine ⟨⟨(fun hopen => by cases hopen), fun _ => rfl, h.decoderDrained, h.demuxEos⟩, ⟨(fun hopen => by cases hopen),
    (fun hopen => by cases hopen), h.delivered, fun surface => ?_, h.clean⟩, fun _ _ _ _ => ⟨rfl, rfl⟩⟩
  have hcount := h.released surface
  simp only [kept, List.count_append, keptSurfaces, List.filterMap_append, List.filterMap_nil, List.count_nil] at hcount ⊢
  omega

theorem Sound.step {l : MixedReadLabel} (h : s.Sound) (hst : s.Step l t) : t.Sound := by
  cases l with
  | call kind =>
      simp only [Step, MixedReader.step] at hst
      split at hst
      case h_2 => cases hst
      case h_1 hpc =>
          rw [Sound, hpc] at h
          obtain ⟨⟨hopened, hpending, hdecoder, heos⟩, ⟨horder, hkinds, hdelivered, hreleased, hclean⟩, hanswered⟩ := h
          split at hst <;> cases hst
          · refine ⟨⟨hopened, hpending, hdecoder, heos⟩, ⟨horder, hkinds, hdelivered, hreleased, fun h => ?_⟩, ?_⟩
            · simp only [returns, Bool.and_eq_true] at h
              exact hclean h.1
            · rintro _ _ ⟨⟩ hend
              cases hend
          · exact ⟨⟨hopened, hpending, hdecoder, heos⟩, ⟨horder, hkinds, hdelivered, hreleased, hclean⟩,
              by simpa using ‹¬ s.closed = true›, rfl⟩
  | read status size =>
      simp only [Step, MixedReader.step] at hst
      split at hst <;> cases hst
      case h_1.refl kind hpc =>
          rw [Sound, hpc] at h
          exact h.readFrame hpc status size
  | initializeDecoder header init =>
      simp only [Step, MixedReader.step] at hst
      split at hst <;> cases hst
      case h_1.refl kind size hpc =>
          rw [Sound, hpc] at h
          exact h.1.decode h.2 size header init
  | submit answer taken =>
      cases hpc : s.pc with
      | submit kind pump frames =>
          rw [Sound, hpc] at h
          exact h.submit hpc hst
      | idle | loop | packet | collect => simp [Step, MixedReader.step, hpc] at hst
  | collect answer =>
      cases hpc : s.pc with
      | collect kind pump frames after =>
          rw [Sound, hpc] at h
          exact h.1.collect hpc h.2 hst
      | idle | loop | packet | submit => simp [Step, MixedReader.step, hpc] at hst
  | releaseFrame k =>
      obtain ⟨frame, hk, ht⟩ := Option.map_eq_some_iff.mp hst
      exact h.releaseFrame hk ht.symm
  | close =>
      simp only [Step, MixedReader.step] at hst
      split at hst
      case h_2 => cases hst
      case h_1 hpc =>
          rw [Sound, hpc] at h
          split at hst <;> cases hst
          exact h.close hpc

theorem sound_init (asyncDepth capacity : Nat) : (MixedReader.init asyncDepth capacity).Sound where
  queueOpen _ := rfl
  pending _ := rfl
  decoderDrained h := by cases h
  demuxEos h := by cases h
  order _ := rfl
  kinds _ _ := rfl
  delivered _ := List.nil_prefix
  released _ := rfl
  clean _ entry hmem := by cases hmem
  answered _ _ h := by cases h

/-! ## What holds in every reachable state -/

theorem Sound.basic (h : s.Sound) : s.Basic ∧ s.Accounts s.pc.frames ∧ ∀ kind status, s.answer = some (kind, status) →
    status.result = .endOfStream → s.completed kind = [] ∧ s.queue.pending = [] := by
  rw [Sound] at h
  have hnone {frames : List VplFrame} (hr : s.Running frames) : ∀ kind status, s.answer = some (kind, status) →
      status.result = .endOfStream → s.completed kind = [] ∧ s.queue.pending = [] := by
    intro kind status hanswer
    rw [hr.answer] at hanswer
    cases hanswer
  cases hs : s.pc with
  | idle =>
      rw [hs] at h
      exact ⟨h.toBasic, h.toAccounts, h.answered⟩
  | loop =>
      rw [hs] at h
      exact ⟨h.toBasic, h.toAccounts, hnone h⟩
  | packet =>
      rw [hs] at h
      exact ⟨h.1.toBasic, h.1.toAccounts, hnone h.1⟩
  | submit =>
      rw [hs] at h
      exact ⟨h.toBasic, h.toAccounts, hnone h.toRunning⟩
  | collect =>
      rw [hs] at h
      exact ⟨h.1.toBasic, h.1.toAccounts, hnone h.1.toRunning⟩

/-- What was taken and not lost was taken for one of the kinds. -/
theorem count_taken {taken : List (VplSurface × ReadFate)} (h : ∀ entry ∈ taken, entry.2 ≠ .lost) (surface : VplSurface) :
    (taken.map Prod.fst).count surface = (ofKind .cpu taken).count surface + (ofKind .gpu taken).count surface := by
  induction taken with
  | nil => rfl
  | cons entry rest ih =>
      have hrest := ih fun entry' hmem => h entry' (List.mem_cons_of_mem _ hmem)
      obtain ⟨shown, fate⟩ := entry
      cases fate with
      | lost => exact absurd rfl (h _ List.mem_cons_self)
      | read kind =>
          simp only [ofKind, List.map_cons, List.count_cons] at hrest ⊢
          cases kind <;> simp [List.count_cons] <;> omega

/-- Every surface that oneVPL has put out is in one place. -/
structure Settled (s : MixedReader) : Prop where
  /-- The surfaces are collected in their order, and those of a kind are delivered and queued in it. -/
  order : s.closed = false → s.output = s.taken.map Prod.fst ++ s.pc.frames.map VplFrame.surface ++ s.queue.pending
  kinds : s.closed = false → ∀ kind, ofKind kind s.taken = s.delivered kind ++ (s.completed kind).map VplFrame.surface
  delivered : ∀ kind, s.delivered kind <+: ofKind kind s.taken
  /-- As long as no call has failed, none is missing. -/
  complete : s.clean = true → s.closed = false → ∀ surface, s.output.count surface =
    ((s.delivered .cpu ++ (s.completed .cpu).map VplFrame.surface).count surface +
      (s.delivered .gpu ++ (s.completed .gpu).map VplFrame.surface).count surface) +
      (s.pc.frames.map VplFrame.surface ++ s.queue.pending).count surface
  /-- The end of the stream of one kind leaves nothing but the queue of the other. -/
  ended : ∀ kind status, s.answer = some (kind, status) → status.result = .endOfStream →
    s.completed kind = [] ∧ s.queue.pending = []
  /-- Each surface is given back once, or kept by a frame or by the queue. -/
  released : ∀ surface, s.output.count surface = s.released.count surface + (s.kept s.pc.frames).count surface

/-- In every run of a decoder that reads both kinds of frames in any order, whatever oneVPL answers, the surfaces are accounted for. -/
theorem mixed_reads_settled {asyncDepth capacity : Nat} {ls : List MixedReadLabel} {s : MixedReader}
    (hrun : Run Step (init asyncDepth capacity) ls s) : s.Settled := by
  obtain ⟨-, haccounts, hanswered⟩ := (hrun.invariant (I := Sound) (sound_init asyncDepth capacity) fun h hst => h.step hst).basic
  refine ⟨haccounts.order, haccounts.kinds, haccounts.delivered, fun hclean hopen surface => ?_, hanswered, haccounts.released⟩
  have hcount := count_taken (haccounts.clean hclean) surface
  rw [haccounts.kinds hopen .cpu, haccounts.kinds hopen .gpu] at hcount
  rw [haccounts.order hopen]
  simp only [List.count_append] at hcount ⊢
  omega

/-- A read of each kind, and the end of the stream. -/
def twoReads : List MixedReadLabel :=
  [.call .cpu, .read .ok 1, .initializeDecoder 0 0, .submit (.accepted (some ⟨1, 10⟩) true) 1, .collect (.cpu 0 (.ok ())),
    .read .ok 0, .call .gpu, .read .ok 1, .initializeDecoder 0 0, .submit (.accepted (some ⟨2, 20⟩) true) 1,
    .collect (.gpu (.ok ())), .read .ok 0, .call .gpu, .read ⟨.endOfStream, ""⟩ 0, .read .ok 0, .submit .moreData 0, .read .ok 0]

theorem mixed_reads_settled_small : ∃ s, Run Step (init 1 2) twoReads s ∧ s.delivered .cpu = [⟨1, 10⟩] ∧
    s.delivered .gpu = [⟨2, 20⟩] ∧ s.released = [⟨1, 10⟩] ∧ s.Settled := by
  obtain ⟨s, hrun, hcpu, hgpu, hreleased⟩ : ∃ s, Run Step (init 1 2) twoReads s ∧ s.delivered .cpu = [⟨1, 10⟩] ∧
      s.delivered .gpu = [⟨2, 20⟩] ∧ s.released = [⟨1, 10⟩] := by
    refine ⟨_, Run.of_exec rfl, ?_, ?_, ?_⟩
    · decide
    · decide
    · decide
  exact ⟨s, hrun, hcpu, hgpu, hreleased, mixed_reads_settled hrun⟩

end MixedReader

end MkvCodec.Gpu
