import MkvCodec.Decoder.Lemmas.Move
import MkvCodec.Encoder.Metrics
import MkvCodec.Frame.View
import MkvCodec.Metrics.CopyEdges

/-!
# Metrics and copy policy of a decoder

What `decoder_prefetch.cpp`, `decoder_sync_read.cpp`, `decoder_pipeline.cpp`, `decoder_c_api_support.cpp` and `c_api_frame.cpp`
record beside the frames, over the sections of the decoder. GPU reads, the copy policy and the calls on frames join here. A read of
the backend is one step with the section that records it, except in the worker.
-/

namespace MkvCodec.Decoder

open Concurrency
open Encoder (CopyPolicy StageMetrics)

/-! ## What is recorded -/

/-- What of a decoder is fixed when it is created: the length of the prefetch queue, and whether the backend is that of a GPU
vendor. -/
structure DecoderConfig where
  capacity : Nat
  hardware : Bool
  capacity_lt : capacity < 2 ^ 32

/-- The metrics of `mkvc_decoder` and its copy policy. `gpuFrames` are the frames that GPU reads have returned, `cleared` those that
`close` has taken out of the queue, `ignored` those that the worker has read after the request to stop, and `views`, `copies` and
`conversions` the calls that have given out the planes of a frame, copied or processed one, and converted one; the code has none
of these. -/
structure DecoderRecord where
  stages : StageMetrics
  acceptedFrames : Nat
  completedFrames : Nat
  queueWait : UInt64
  peakQueueDepth : Nat
  hardwarePendingPeak : Nat
  edges : CopyEdge → Nat
  gpuPathExercised : Bool
  policy : CopyPolicy
  gpuFrames : Nat
  cleared : Nat
  ignored : Nat
  views : Nat
  copies : Nat
  conversions : Nat

namespace DecoderRecord

def zero : DecoderRecord where
  stages := .zero
  acceptedFrames := 0
  completedFrames := 0
  queueWait := 0
  peakQueueDepth := 0
  hardwarePendingPeak := 0
  edges := fun _ => 0
  gpuPathExercised := false
  policy := ⟨false, true, true⟩
  gpuFrames := 0
  cleared := 0
  ignored := 0
  views := 0
  copies := 0
  conversions := 0

variable {F B X : Type*} (cfg : DecoderConfig) (r : DecoderRecord)

/-- The readback of a frame that a GPU has decoded. -/
def readback (edges : CopyEdge → Nat) : CopyEdge → Nat := if cfg.hardware then addEdge .cpuReadback edges else edges

/-- The section of the worker behind a read. An exception is caught without it. -/
def workerRecord (ended : ReadEnd F) (a : MkvcDecoder F B) (elapsed : UInt64) (pending : Nat) : DecoderRecord :=
  let read := { r with
    stages := r.stages.workerFrame elapsed
    hardwarePendingPeak := max r.hardwarePendingPeak pending }
  match ended with
  | .threw _ => r
  | .ended _ _ => read
  | .frame _ =>
      if a.stopRequested then { read with ignored := r.ignored + 1 }
      else
        { read with
          edges := readback cfg r.edges
          acceptedFrames := r.acceptedFrames + 1
          peakQueueDepth := max r.peakQueueDepth (u32 (a.queue.length + 1)) }

/-- `read_cpu_sync` behind a read. -/
def syncRecord (ended : ReadEnd F) (elapsed : UInt64) (pending : Nat) : DecoderRecord :=
  let read := { r with
    stages := r.stages.syncFrame elapsed
    hardwarePendingPeak := max r.hardwarePendingPeak pending }
  match ended with
  | .threw _ => r
  | .ended _ _ => read
  | .frame _ =>
      { read with
        edges := readback cfg r.edges
        acceptedFrames := r.acceptedFrames + 1
        completedFrames := r.completedFrames + 1 }

/-- `read_prefetched` behind its wait. -/
def prefetchedRecord (a : MkvcDecoder F B) (elapsed : UInt64) : DecoderRecord :=
  if a.stopRequested || !a.queue.isEmpty || a.workerFinished then
    { r with
      queueWait := r.queueWait + elapsed
      completedFrames := r.completedFrames + (!a.stopRequested && !a.queue.isEmpty).toNat }
  else r

/-- The end of `close`. -/
def closeRecord (elapsed : UInt64) : DecoderRecord :=
  { r with stages := { r.stages with closeCalls := r.stages.closeCalls + 1, closeTime := r.stages.closeTime + elapsed } }

/-- What a section of the worker records. -/
def worker (a : MkvcDecoder F B) (w : WorkerPc F) (elapsed : UInt64) (pending : Nat) : DecoderRecord :=
  match w with
  | .record ended => r.workerRecord cfg ended a elapsed pending
  | _ => r

/-- What a section of the application records. `ended` is how the read of the backend in it ends. -/
def client (a : MkvcDecoder F B) (pc : ClientPc) (ended : Option (ReadEnd F)) (elapsed : UInt64) (pending : Nat) :
    DecoderRecord :=
  match pc, ended with
  | .readPrefetched, _ => r.prefetchedRecord a elapsed
  | .readCpuSync, some ended => r.syncRecord cfg ended elapsed pending
  | .stopClear, _ => { r with cleared := r.cleared + a.queue.length }
  | .closeBackend, _ => r.closeRecord elapsed
  | _, _ => r

/-! ## Copy policy -/

/-- `set_copy_policy`. -/
def setCopyPolicy (policy : CopyPolicy) : DecoderRecord × Status :=
  if r.acceptedFrames ≠ 0 ∨ r.completedFrames ≠ 0 then
    (r, ⟨.errorInvalidState, "copy policy must be set before the first decoder frame"⟩)
  else if (policy.requireGpuResident || !policy.allowCpuCopy) && decide (cfg.capacity ≠ 0) then
    (r, ⟨.errorNotSupported, "GPU-resident decoding currently requires prefetch=0"⟩)
  else if policy.requireGpuResident && policy.allowCpuCopy then
    (r, ⟨.errorInvalidArgument, "require_gpu_resident conflicts with allow_cpu_copy"⟩)
  else if policy.requireGpuResident && !cfg.hardware then
    (r, ⟨.errorNotSupported, "GPU-resident decoding is unavailable for this backend"⟩)
  else ({ r with policy := policy }, .ok)

def checkCpuRead : Status :=
  if r.policy.requireGpuResident || !r.policy.allowCpuCopy then
    ⟨.errorNotSupported, "CPU frame read is prohibited by copy policy"⟩
  else .ok

end DecoderRecord

def checkGpuRead (cfg : DecoderConfig) : Status :=
  if cfg.capacity ≠ 0 then ⟨.errorNotSupported, "GPU read currently requires decoder prefetch=0"⟩
  else if !cfg.hardware then ⟨.errorNotSupported, "GPU read is not implemented for this decoder backend"⟩
  else .ok

/-- `read_gpu_sync`. `ended` says how the read of the backend ends, `none` for an exception. -/
def DecoderRecord.readGpu (r : DecoderRecord) (ended : Option Status) (elapsed : UInt64) : DecoderRecord :=
  match ended with
  | none => r
  | some status =>
      let read := { r with stages := r.stages.syncFrame elapsed }
      if status.result = .ok then
        { read with
          acceptedFrames := r.acceptedFrames + 1
          completedFrames := r.completedFrames + 1
          gpuPathExercised := true
          edges := addEdge .zeroCopy (addEdge .sharedSurface r.edges)
          gpuFrames := r.gpuFrames + 1 }
      else read

/-- A call on a frame of the decoder: `mkvc_frame_get_view`, `mkvc_frame_copy_to` into a format, or `mkvc_frame_process`. -/
inductive FrameCall
  | view
  | copy (format : PixelFormat) (result : Result)
  | process (result : Result)

def DecoderRecord.frameCall (r : DecoderRecord) : FrameCall → DecoderRecord
  | .view => { r with edges := addEdge .zeroCopy r.edges, views := r.views + 1 }
  | .copy format result =>
      if result = .ok then
        if format ≠ .i420 then
          { r with
            edges := addEdge .pixelConversion (addEdge .cpuNormalization r.edges)
            copies := r.copies + 1
            conversions := r.conversions + 1 }
        else { r with edges := addEdge .cpuNormalization r.edges, copies := r.copies + 1 }
      else r
  | .process result =>
      if result = .ok then { r with edges := addEdge .cpuNormalization r.edges, copies := r.copies + 1 } else r

/-- `mkvc_pipeline_metrics`, as `snapshot_metrics` fills it. -/
structure PipelineMetrics where
  acceptedFrames : Nat
  completedFrames : Nat
  queueWait : UInt64
  backendTime : UInt64
  queueCapacity : Nat
  peakQueueDepth : Nat
  hardwarePendingPeak : Nat
  copyPath : CopyPath

def snapshotMetrics (cfg : DecoderConfig) (r : DecoderRecord) : PipelineMetrics where
  acceptedFrames := r.acceptedFrames
  completedFrames := r.completedFrames
  queueWait := r.queueWait
  backendTime := r.stages.backendTime
  queueCapacity := u32 cfg.capacity
  peakQueueDepth := r.peakQueueDepth
  hardwarePendingPeak := r.hardwarePendingPeak
  copyPath := if r.gpuPathExercised then .zeroCopy else if r.completedFrames = 0 then .unknown else .cpu

/-! ## The decoder with its record -/

section

variable {F B X : Type*}

/-- A section of the decoder, with the time that it reads off the clock and the pending pictures of the hardware; a GPU read of
the idle reader, with what it leaves of the backend; a call that sets the policy; or a call on a frame. -/
inductive RecordedLabel (B X : Type*)
  | run (label : DecoderLabel X) (elapsed : UInt64) (pending : Nat)
  | readGpu (ended : Option Status) (backend : B) (elapsed : UInt64)
  | setCopyPolicy (policy : CopyPolicy)
  | frame (call : FrameCall)

/-- The label lets the reader begin a read. -/
def DecoderLabel.startsRead : DecoderLabel X → Bool
  | .client .reader .call => true
  | _ => false

variable (backend : Backend F B X) (cfg : DecoderConfig)

/-- How the read of the backend ends that an action of the application makes. -/
def readEnd (a : MkvcDecoder F B) : Choice X → Option (ReadEnd F)
  | .backend answers => (backend.read answers a.backend).map Prod.fst
  | _ => none

def DecoderRecord.after (r : DecoderRecord) (s : DecoderState F B) (elapsed : UInt64) (pending : Nat) :
    DecoderLabel X → DecoderRecord
  | .worker _ => r.worker cfg s.shared s.worker elapsed pending
  | .client party e => r.client cfg s.shared (s.client party).pc (readEnd backend s.shared e) elapsed pending
  | _ => r

abbrev Recorded (F B : Type*) := DecoderState F B × DecoderRecord

/-- One step. A CPU read that the policy prohibits, and a GPU read that is not possible, return at once. -/
def recordedStep (s : Recorded F B) : RecordedLabel B X → Option (Recorded F B)
  | .run label elapsed pending =>
      if DecoderLabel.startsRead label && decide (s.2.checkCpuRead.result ≠ .ok) then some s
      else ((program backend cfg.capacity).step s.1 label).map fun t => (t, s.2.after backend cfg s.1 elapsed pending label)
  | .readGpu ended b elapsed =>
      match (s.1.client .reader).pc with
      | .idle =>
          if (checkGpuRead cfg).result ≠ .ok then some s
          else some ({ s.1 with shared := { s.1.shared with backend := b } }, s.2.readGpu ended elapsed)
      | _ => none
  | .setCopyPolicy policy => some (s.1, (s.2.setCopyPolicy cfg policy).1)
  | .frame call => some (s.1, s.2.frameCall call)

abbrev RecordedStep (s : Recorded F B) (l : RecordedLabel B X) (t : Recorded F B) : Prop := recordedStep backend cfg s l = some t

end

/-! ## The account -/

def ReadEnd.isFrame {F : Type*} (ended : ReadEnd F) : Bool := ended.frame?.isSome

def ReadReturn.isFrame {F : Type*} (r : ReadReturn F) : Bool := r.frame?.isSome

/-- The frame in the worker's hands. -/
def WorkerPc.inHand {F : Type*} : WorkerPc F → Nat
  | .record ended => ended.isFrame.toNat
  | _ => 0

/-- A read is under way in the worker. -/
def WorkerPc.reading {F : Type*} : WorkerPc F → Bool
  | .read | .record _ => true
  | _ => false

section

variable {F B X : Type*} {backend : Backend F B X} {cfg : DecoderConfig}

/-- The stage metrics of a decoder: every frame call is one of the worker or a synchronous one, and the backend time is theirs. -/
structure Staged (m : StageMetrics) : Prop where
  calls : m.frameCalls = m.syncFrameCalls + m.workerFrameCalls
  time : m.frameTime = m.syncFrameTime + m.workerFrameTime
  backend : m.backendTime = m.frameTime

theorem Staged.syncFrame {m : StageMetrics} (h : Staged m) (elapsed : UInt64) : Staged (m.syncFrame elapsed) where
  calls := by
    simp only [StageMetrics.syncFrame, StageMetrics.frame, h.calls]
    ac_rfl
  time := by
    simp only [StageMetrics.syncFrame, StageMetrics.frame, h.time]
    ac_rfl
  backend := by simp only [StageMetrics.syncFrame, StageMetrics.frame, h.backend]

theorem Staged.workerFrame {m : StageMetrics} (h : Staged m) (elapsed : UInt64) : Staged (m.workerFrame elapsed) where
  calls := by
    simp only [StageMetrics.workerFrame, StageMetrics.frame, h.calls]
    ac_rfl
  time := by
    simp only [StageMetrics.workerFrame, StageMetrics.frame, h.time]
    ac_rfl
  backend := by simp only [StageMetrics.workerFrame, StageMetrics.frame, h.backend]

/-- What the record of the frames says of the decoder. -/
structure Frames (a : MkvcDecoder F B) (w : WorkerPc F) (returns : List (ReadReturn F)) (r : DecoderRecord) : Prop where
  accepted : r.acceptedFrames = r.completedFrames + a.queue.length + r.cleared
  read : a.reads.countP ReadEnd.isFrame + r.gpuFrames = r.acceptedFrames + w.inHand + r.ignored
  completed : r.completedFrames = returns.countP ReadReturn.isFrame + r.gpuFrames
  running : a.stopRequested = false → r.cleared = 0 ∧ r.ignored = 0

/-- What the record of the copies says of the frames. -/
structure Copies (cfg : DecoderConfig) (r : DecoderRecord) : Prop where
  shared : r.edges .sharedSurface = r.gpuFrames
  zeroCopy : r.edges .zeroCopy = r.gpuFrames + r.views
  readback : r.edges .cpuReadback + r.gpuFrames = if cfg.hardware then r.acceptedFrames else 0
  normalized : r.edges .cpuNormalization = r.copies
  converted : r.edges .pixelConversion = r.conversions
  unused : r.edges .gpuCopy = 0 ∧ r.edges .cpuUpload = 0
  path : r.gpuPathExercised = decide (0 < r.gpuFrames)
  gpu : 0 < r.gpuFrames → cfg.capacity = 0 ∧ cfg.hardware = true

/-- A policy that is in force can be kept. -/
structure Keepable (cfg : DecoderConfig) (policy : CopyPolicy) : Prop where
  resident : policy.requireGpuResident = true → cfg.hardware = true ∧ policy.allowCpuCopy = false
  copies : policy.allowCpuCopy = false → cfg.capacity = 0

structure Sound (cfg : DecoderConfig) (a : MkvcDecoder F B) (w : WorkerPc F) (ks : Party → Client F) (r : DecoderRecord) :
    Prop where
  frames : Frames a w (ks .reader).returns r
  copies : Copies cfg r
  stages : Staged r.stages
  peak : a.queue.length ≤ r.peakQueueDepth ∧ r.peakQueueDepth ≤ cfg.capacity
  room : w.reading = true → a.queue.length < cfg.capacity
  policy : Keepable cfg r.policy
  parties : ∀ party, (ks party).party = party ∧ party.At cfg.capacity a (ks party).pc

/-! ## Sections of the worker -/

variable {a : MkvcDecoder F B} {w : WorkerPc F} {ks : Party → Client F} {r : DecoderRecord}

/-- The counts that the record of the copies is compared with. -/
def DecoderRecord.counts (r : DecoderRecord) : Nat × Nat × Nat × Nat × Bool :=
  (r.gpuFrames, r.views, r.copies, r.conversions, r.gpuPathExercised)

/-- A CPU frame is accepted. -/
theorem Copies.accept (h : Copies cfg r) (r' : DecoderRecord) (hedges : r'.edges = DecoderRecord.readback cfg r.edges)
    (haccepted : r'.acceptedFrames = r.acceptedFrames + 1) (hcounts : r'.counts = r.counts) : Copies cfg r' := by
  simp only [DecoderRecord.counts, Prod.mk.injEq] at hcounts
  obtain ⟨hframes, hviews, hcopies, hconversions, hpath⟩ := hcounts
  have hother : ∀ edge, edge ≠ .cpuReadback → r'.edges edge = r.edges edge := by
    intro edge hne
    rw [hedges, DecoderRecord.readback]
    split
    · exact addEdge_of_ne hne _
    · rfl
  have hreadback := h.readback
  constructor
  · rw [hother _ (by decide), hframes, h.shared]
  · rw [hother _ (by decide), hframes, hviews, h.zeroCopy]
  · rw [hedges, DecoderRecord.readback, hframes, haccepted]
    cases hhardware : cfg.hardware with
    | true =>
        rw [hhardware, if_pos rfl] at hreadback
        rw [if_pos rfl, if_pos rfl, addEdge_self]
        omega
    | false =>
        rw [hhardware, if_neg (by decide)] at hreadback
        rwa [if_neg (by decide), if_neg (by decide)]
  · rw [hother _ (by decide), hcopies, h.normalized]
  · rw [hother _ (by decide), hconversions, h.converted]
  · rw [hother _ (by decide), hother _ (by decide)]
    exact h.unused
  · rw [hpath, hframes, h.path]
  · rw [hframes]
    exact h.gpu

/-- What only reads the frames and the copies does not change them. -/
theorem Copies.keep (h : Copies cfg r) (r' : DecoderRecord) (hedges : r'.edges = r.edges)
    (haccepted : r'.acceptedFrames = r.acceptedFrames) (hcounts : r'.counts = r.counts) : Copies cfg r' := by
  simp only [DecoderRecord.counts, Prod.mk.injEq] at hcounts
  obtain ⟨hframes, hviews, hcopies, hconversions, hpath⟩ := hcounts
  obtain ⟨hshared, hzero, hreadback, hnormalized, hconverted, hunused, hpath', hgpu⟩ := h
  constructor
  · rw [hedges, hframes, hshared]
  · rw [hedges, hframes, hviews, hzero]
  · rw [hedges, hframes, haccepted, hreadback]
  · rw [hedges, hcopies, hnormalized]
  · rw [hedges, hconversions, hconverted]
  · rw [hedges]
    exact hunused
  · rw [hpath, hframes, hpath']
  · rw [hframes]
    exact hgpu

theorem readEnd_isFrame_false {F : Type*} {ended : ReadEnd F} (h : ended.frame? = none) : ended.isFrame = false := by
  simp [ReadEnd.isFrame, h]

theorem Sound.worker {e : Choice X} {o : WorkerSection F B} (h : Sound cfg a w ks r)
    (hmove : WorkerMove backend cfg.capacity a w e o) (elapsed : UInt64) (pending : Nat) :
    Sound cfg o.shared o.loc ks (r.worker cfg a w elapsed pending) := by
  have hparties : ∀ party, (ks party).party = party ∧ party.At cfg.capacity o.shared (ks party).pc := fun party =>
    ⟨(h.parties party).1, (h.parties party).2.mono (hmove.stays.1 ▸ id) hmove.stays.2⟩
  obtain ⟨hframes, hcopies, hstages, hpeak, hroom, hpolicy, -⟩ := h
  cases hmove with
  | asleep => exact ⟨hframes, hcopies, hstages, hpeak, hroom, hpolicy, hparties⟩
  | go hstop hlt => exact ⟨⟨hframes.accepted, hframes.read, hframes.completed, hframes.running⟩, hcopies, hstages, hpeak,
      fun _ => hlt, hpolicy, hparties⟩
  | @read answers ended b hread =>
      refine ⟨⟨hframes.accepted, ?_, hframes.completed, hframes.running⟩, hcopies, hstages, hpeak, fun _ => hroom rfl, hpolicy,
        hparties⟩
      have hcount := hframes.read
      simp only [WorkerPc.inHand, DecoderRecord.worker] at hcount ⊢
      rw [List.countP_append]
      cases hframe : ended.isFrame <;> simp [hframe] at hcount ⊢ <;> omega
  | leave hw hstop =>
      obtain rfl | ⟨ended, rfl⟩ := hw
      · exact ⟨⟨hframes.accepted, hframes.read, hframes.completed, hframes.running⟩, hcopies, hstages, hpeak, (fun h => by cases h), hpolicy,
          hparties⟩
      · cases ended with
        | threw what =>
            exact ⟨⟨hframes.accepted, hframes.read, hframes.completed, hframes.running⟩, hcopies, hstages, hpeak, (fun h => by cases h), hpolicy,
              hparties⟩
        | ended status hne =>
            exact ⟨⟨hframes.accepted, hframes.read, hframes.completed, hframes.running⟩, hcopies.keep _ rfl rfl rfl,
              hstages.workerFrame elapsed, hpeak, (fun h => by cases h), hpolicy, hparties⟩
        | frame f =>
            have hcount := hframes.read
            simp only [WorkerPc.inHand, ReadEnd.isFrame, ReadEnd.frame?, Option.isSome_some, Bool.toNat_true] at hcount
            simp only [DecoderRecord.worker, DecoderRecord.workerRecord, hstop, if_true, workerReturn] at hparties ⊢
            refine ⟨⟨hframes.accepted, ?_, hframes.completed, fun h => by cases h⟩,
              hcopies.keep _ rfl rfl rfl, hstages.workerFrame elapsed, hpeak, (fun h => by cases h), hpolicy, hparties⟩
            simp only [WorkerPc.inHand]
            omega
  | @push frame hstop =>
      have hlt := hroom rfl
      have hdepth : u32 (a.queue.length + 1) = a.queue.length + 1 := u32_of_lt (by have := cfg.capacity_lt; omega)
      have hcount := hframes.read
      simp only [WorkerPc.inHand, ReadEnd.isFrame, ReadEnd.frame?, Option.isSome_some, Bool.toNat_true] at hcount
      simp only [DecoderRecord.worker, DecoderRecord.workerRecord, hstop, Bool.false_eq_true, if_false] at hparties ⊢
      refine ⟨⟨?_, ?_, hframes.completed, fun _ => hframes.running hstop⟩, hcopies.accept _ rfl rfl rfl,
        hstages.workerFrame elapsed, ?_, (fun h => by cases h), hpolicy, hparties⟩
      · simp only [List.length_append, List.length_singleton, hframes.accepted]
        omega
      · simp only [WorkerPc.inHand]
        omega
      · simp only [hdepth, List.length_append, List.length_singleton]
        omega
  | @finish ended hend =>
      have hnone := readEnd_isFrame_false hend
      have hcount := hframes.read
      simp only [WorkerPc.inHand, hnone, Bool.toNat_false] at hcount
      cases ended with
      | frame => cases hend
      | ended status hne =>
          exact ⟨⟨hframes.accepted, hcount, hframes.completed, hframes.running⟩, hcopies.keep _ rfl rfl rfl,
            hstages.workerFrame elapsed, hpeak, (fun h => by cases h), hpolicy, hparties⟩
      | threw what =>
          exact ⟨⟨hframes.accepted, hcount, hframes.completed, hframes.running⟩, hcopies, hstages, hpeak, (fun h => by cases h), hpolicy,
            hparties⟩

/-! ## Sections of the application -/

theorem returns_after (ks : Party → Client F) (party : Party) (sec : Section F B) :
    (Function.update ks party ((ks party).after sec) .reader).returns.countP ReadReturn.isFrame =
      (ks .reader).returns.countP ReadReturn.isFrame +
        if party = .reader then sec.returned.toList.countP ReadReturn.isFrame else 0 := by
  cases party with
  | reader =>
      rw [Function.update_self, if_pos rfl]
      exact List.countP_append
  | closer => rw [Function.update_of_ne (by decide), if_neg (by decide), Nat.add_zero]

theorem returns_same (ks : Party → Client F) (party : Party) (sec : Section F B)
    (hnone : sec.returned.toList.countP ReadReturn.isFrame = 0) :
    (Function.update ks party ((ks party).after sec) .reader).returns.countP ReadReturn.isFrame =
      (ks .reader).returns.countP ReadReturn.isFrame := by
  rw [returns_after, hnone, ite_self, Nat.add_zero]

theorem returned_isFrame (ended : ReadEnd F) (message : String) : (ended.returned message).isFrame = ended.isFrame := by
  cases ended <;> rfl

theorem Sound.parties_after (h : Sound cfg a w ks r) {party : Party} {e : Choice X} {sec : Section F B}
    (hmove : ClientMove backend cfg.capacity a party (ks party).pc e sec) (other : Party) :
    (Function.update ks party ((ks party).after sec) other).party = other ∧
      other.At cfg.capacity sec.shared (Function.update ks party ((ks party).after sec) other).pc := by
  obtain ⟨hparty, hat⟩ := h.parties other
  by_cases hother : other = party
  · subst hother
    rw [Function.update_self]
    exact ⟨hparty, hmove.at hat⟩
  · rw [Function.update_of_ne hother]
    exact ⟨hparty, hat.mono hmove.stays.1 fun hexit => hmove.stays.2.trans hexit⟩

/-- A section that takes no frame and returns none. -/
theorem Frames.keep {returns returns' : List (ReadReturn F)} {a' : MkvcDecoder F B} {r' : DecoderRecord}
    (h : Frames a w returns r) (hreads : a'.reads = a.reads) (hqueue : a'.queue = a.queue)
    (hreturns : returns'.countP ReadReturn.isFrame = returns.countP ReadReturn.isFrame)
    (hstop : a.stopRequested = true → a'.stopRequested = true)
    (hrecord : r'.acceptedFrames = r.acceptedFrames ∧ r'.completedFrames = r.completedFrames ∧ r'.gpuFrames = r.gpuFrames ∧
      r'.cleared = r.cleared ∧ r'.ignored = r.ignored) : Frames a' w returns' r' := by
  obtain ⟨haccepted, hcompleted, hgpu, hcleared, hignored⟩ := hrecord
  refine ⟨?_, ?_, ?_, fun hno => ?_⟩
  · rw [haccepted, hcompleted, hqueue, hcleared, h.accepted]
  · rw [hreads, hgpu, haccepted, hignored, h.read]
  · rw [hcompleted, hreturns, hgpu, h.completed]
  · rw [hcleared, hignored]
    refine h.running ?_
    cases hs : a.stopRequested with
    | false => rfl
    | true => rw [hstop hs] at hno; cases hno

theorem Sound.client {party : Party} {e : Choice X} {sec : Section F B} (h : Sound cfg a w ks r)
    (hmove : ClientMove backend cfg.capacity a party (ks party).pc e sec) (elapsed : UInt64) (pending : Nat) :
    Sound cfg sec.shared w (Function.update ks party ((ks party).after sec))
      (r.client cfg a (ks party).pc (readEnd backend a e) elapsed pending) := by
  have hparties := h.parties_after hmove
  have hat := (h.parties party).2
  obtain ⟨hframes, hcopies, hstages, hpeak, hroom, hpolicy, -⟩ := h
  generalize (ks party).pc = pc at hmove hat ⊢
  have hreader : pc = .readPrefetched ∨ pc = .readCpuSync → party = .reader := by
    rintro (rfl | rfl) <;> cases party <;> first | rfl | cases hat
  cases hmove with
  | start | join hexit =>
      exact ⟨hframes.keep rfl rfl (returns_same ks party _ rfl) id ⟨rfl, rfl, rfl, rfl, rfl⟩, hcopies, hstages, hpeak, hroom,
        hpolicy, hparties⟩
  | stop =>
      exact ⟨hframes.keep rfl rfl (returns_same ks party _ rfl) (fun _ => rfl) ⟨rfl, rfl, rfl, rfl, rfl⟩, hcopies, hstages, hpeak,
        hroom, hpolicy, hparties⟩
  | close =>
      exact ⟨hframes.keep rfl rfl (returns_same ks party _ rfl) id ⟨rfl, rfl, rfl, rfl, rfl⟩,
        hcopies.keep _ rfl rfl rfl, ⟨hstages.calls, hstages.time, hstages.backend⟩, hpeak, hroom, hpolicy, hparties⟩
  | clear =>
      refine ⟨⟨?_, hframes.read, ?_, fun hno => ?_⟩, hcopies.keep _ rfl rfl rfl, hstages, ⟨Nat.zero_le _, hpeak.2⟩,
        fun hreading => Nat.lt_of_le_of_lt (Nat.zero_le _) (hroom hreading), hpolicy, hparties⟩
      · simp only [DecoderRecord.client, stopClear, goto, hframes.accepted, List.length_nil]
        omega
      · rw [returns_same ks party _ rfl]
        exact hframes.completed
      · cases party with
        | reader => cases hat
        | closer => exact absurd (hat.2.1.symm.trans hno) (by decide)
  | asleep hstop hempty hfin =>
      have hrecord : r.prefetchedRecord a elapsed = r := by
        simp [DecoderRecord.prefetchedRecord, hstop, hempty, hfin]
      simp only [DecoderRecord.client, hrecord]
      exact ⟨hframes.keep rfl rfl (returns_same ks party _ rfl) id ⟨rfl, rfl, rfl, rfl, rfl⟩, hcopies, hstages, hpeak, hroom,
        hpolicy, hparties⟩
  | refused hstop =>
      have hrecord : r.prefetchedRecord a elapsed = { r with queueWait := r.queueWait + elapsed } := by
        simp [DecoderRecord.prefetchedRecord, hstop]
      simp only [DecoderRecord.client, hrecord]
      exact ⟨hframes.keep rfl rfl (returns_same ks party _ rfl) id ⟨rfl, rfl, rfl, rfl, rfl⟩, hcopies.keep _ rfl rfl rfl,
        hstages, hpeak, hroom, hpolicy, hparties⟩
  | final hstop hempty hfin =>
      have hrecord : r.prefetchedRecord a elapsed = { r with queueWait := r.queueWait + elapsed } := by
        simp [DecoderRecord.prefetchedRecord, hstop, hempty, hfin]
      simp only [DecoderRecord.client, hrecord]
      exact ⟨hframes.keep rfl rfl (returns_same ks party _ rfl) id ⟨rfl, rfl, rfl, rfl, rfl⟩, hcopies.keep _ rfl rfl rfl,
        hstages, hpeak, hroom, hpolicy, hparties⟩
  | @take frame rest hstop hqueue =>
      obtain rfl := hreader (.inl rfl)
      have hrecord : r.prefetchedRecord a elapsed =
          { r with queueWait := r.queueWait + elapsed, completedFrames := r.completedFrames + 1 } := by
        simp [DecoderRecord.prefetchedRecord, hstop, hqueue]
      have haccepted := hframes.accepted
      rw [hqueue, List.length_cons] at haccepted hpeak hroom
      simp only [DecoderRecord.client, hrecord]
      refine ⟨⟨?_, hframes.read, ?_, hframes.running⟩, hcopies.keep _ rfl rfl rfl, hstages, ⟨?_, hpeak.2⟩, fun hreading => ?_,
        hpolicy, hparties⟩
      · simp only [reply]
        omega
      · rw [returns_after, hframes.completed]
        simp [reply, ReadReturn.isFrame, ReadReturn.frame?]
        omega
      · simp only [reply]
        omega
      · have := hroom hreading
        simp only [reply]
        omega
  | @readSync answers ended b hread =>
      obtain rfl := hreader (.inr rfl)
      have hended : readEnd backend a (.backend answers) = some ended := by simp [readEnd, hread]
      have hcount : (a.reads ++ [ended]).countP ReadEnd.isFrame = a.reads.countP ReadEnd.isFrame + ended.isFrame.toNat := by
        rw [List.countP_append]
        cases hframe : ended.isFrame <;> simp [hframe]
      have hback : (Function.update ks .reader ((ks .reader).after (readCpuSync ended b a)) .reader).returns.countP
          ReadReturn.isFrame = (ks .reader).returns.countP ReadReturn.isFrame + ended.isFrame.toNat := by
        rw [returns_after, if_pos rfl]
        simp only [readCpuSync, reply, Option.toList_some]
        cases hframe : ended.isFrame <;> simp [returned_isFrame, hframe]
      have hread' := hframes.read
      have hcompleted := hframes.completed
      simp only [DecoderRecord.client, hended]
      cases ended with
      | threw what =>
          refine ⟨⟨hframes.accepted, ?_, ?_, hframes.running⟩, hcopies, hstages, hpeak, hroom, hpolicy, hparties⟩
          · exact (congrArg (· + r.gpuFrames) hcount).trans hread'
          · exact hcompleted.trans (congrArg (· + r.gpuFrames) hback.symm)
      | ended status hne =>
          refine ⟨⟨hframes.accepted, ?_, ?_, hframes.running⟩, hcopies.keep _ rfl rfl rfl, hstages.syncFrame elapsed, hpeak,
            hroom, hpolicy, hparties⟩
          · exact (congrArg (· + r.gpuFrames) hcount).trans hread'
          · exact hcompleted.trans (congrArg (· + r.gpuFrames) hback.symm)
      | frame f =>
          have haccepted := hframes.accepted
          simp only [ReadEnd.isFrame, ReadEnd.frame?, Option.isSome_some, Bool.toNat_true] at hcount hback
          simp only [DecoderRecord.syncRecord]
          refine ⟨⟨?_, ?_, ?_, hframes.running⟩, hcopies.accept _ rfl rfl rfl, hstages.syncFrame elapsed, hpeak, hroom, hpolicy,
            hparties⟩
          · simp only [readCpuSync, reply]
            omega
          · simp only [readCpuSync, reply] at hcount ⊢
            omega
          · simp only [hback]
            omega

/-! ## GPU reads and the copy policy -/

theorem Sound.readGpu (h : Sound cfg a w ks r) (hcheck : (checkGpuRead cfg).result = .ok) (b : B) (ended : Option Status)
    (elapsed : UInt64) : Sound cfg { a with backend := b } w ks (r.readGpu ended elapsed) := by
  have hgpu : cfg.capacity = 0 ∧ cfg.hardware = true := by
    unfold checkGpuRead at hcheck
    split at hcheck
    · cases hcheck
    split at hcheck
    · cases hcheck
    · simp_all
  have hparties : ∀ party, (ks party).party = party ∧ party.At cfg.capacity { a with backend := b } (ks party).pc := fun party =>
    ⟨(h.parties party).1, (h.parties party).2.mono id id⟩
  obtain ⟨hframes, hcopies, hstages, hpeak, hroom, hpolicy, -⟩ := h
  cases ended with
  | none => exact ⟨⟨hframes.accepted, hframes.read, hframes.completed, hframes.running⟩, hcopies, hstages, hpeak, hroom, hpolicy,
      hparties⟩
  | some status =>
      simp only [DecoderRecord.readGpu]
      by_cases hok : status.result = .ok
      · rw [if_pos hok]
        have haccepted := hframes.accepted
        have hread := hframes.read
        have hcompleted := hframes.completed
        have hreadback := hcopies.readback
        rw [hgpu.2, if_pos rfl] at hreadback
        have hzero := hcopies.zeroCopy
        refine ⟨⟨?_, ?_, ?_, hframes.running⟩, ⟨congrArg (· + 1) hcopies.shared, ?_, ?_, hcopies.normalized, hcopies.converted,
          hcopies.unused, ?_, fun _ => hgpu⟩, hstages.syncFrame elapsed, hpeak, hroom, hpolicy, hparties⟩
        · simp only
          omega
        · simp only
          omega
        · simp only
          omega
        · simp only [addEdge_self, addEdge_of_ne (show CopyEdge.zeroCopy ≠ .sharedSurface by decide)]
          omega
        · simp only [addEdge_of_ne (show CopyEdge.cpuReadback ≠ .zeroCopy by decide),
            addEdge_of_ne (show CopyEdge.cpuReadback ≠ .sharedSurface by decide), hgpu.2, if_true]
          omega
        · simp
      · rw [if_neg hok]
        exact ⟨⟨hframes.accepted, hframes.read, hframes.completed, hframes.running⟩, hcopies.keep _ rfl rfl rfl,
          hstages.syncFrame elapsed, hpeak, hroom, hpolicy, hparties⟩

/-- A policy that is set can be kept, nothing else changes, and behind the first frame the policy does not change either. -/
theorem setCopyPolicy_spec (h : Keepable cfg r.policy) (policy : CopyPolicy) :
    ∃ policy', (r.setCopyPolicy cfg policy).1 = { r with policy := policy' } ∧ Keepable cfg policy' ∧
      (r.acceptedFrames ≠ 0 → policy' = r.policy) := by
  unfold DecoderRecord.setCopyPolicy
  split
  · exact ⟨r.policy, rfl, h, fun _ => rfl⟩
  rename_i hfirst
  split
  · exact ⟨r.policy, rfl, h, fun _ => rfl⟩
  rename_i hcapacity
  split
  · exact ⟨r.policy, rfl, h, fun _ => rfl⟩
  rename_i hconflict
  split
  · exact ⟨r.policy, rfl, h, fun _ => rfl⟩
  rename_i hhardware
  refine ⟨policy, rfl, ⟨fun hresident => ?_, fun hcopies => ?_⟩, fun hne => absurd (.inl hne) hfirst⟩
  · simp_all
  · simp_all

theorem Sound.setCopyPolicy (h : Sound cfg a w ks r) (policy : CopyPolicy) :
    Sound cfg a w ks (r.setCopyPolicy cfg policy).1 := by
  obtain ⟨policy', hset, hpolicy', -⟩ := setCopyPolicy_spec h.policy policy
  rw [hset]
  obtain ⟨hframes, hcopies, hstages, hpeak, hroom, -, hparties⟩ := h
  exact ⟨⟨hframes.accepted, hframes.read, hframes.completed, hframes.running⟩, hcopies.keep _ rfl rfl rfl, hstages, hpeak,
    hroom, hpolicy', hparties⟩

theorem Copies.frameCall (h : Copies cfg r) (call : FrameCall) : Copies cfg (r.frameCall call) := by
  have hnormalized : r.edges .cpuNormalization + 1 = r.copies + 1 := congrArg (· + 1) h.normalized
  cases call with
  | view => exact ⟨h.shared, congrArg (· + 1) h.zeroCopy, h.readback, h.normalized, h.converted, h.unused, h.path, h.gpu⟩
  | copy format result =>
      unfold DecoderRecord.frameCall
      dsimp only
      split
      · split
        · exact ⟨h.shared, h.zeroCopy, h.readback, hnormalized, congrArg (· + 1) h.converted, h.unused, h.path, h.gpu⟩
        · exact ⟨h.shared, h.zeroCopy, h.readback, hnormalized, h.converted, h.unused, h.path, h.gpu⟩
      · exact h
  | process result =>
      unfold DecoderRecord.frameCall
      dsimp only
      split
      · exact ⟨h.shared, h.zeroCopy, h.readback, hnormalized, h.converted, h.unused, h.path, h.gpu⟩
      · exact h

/-- A call on a frame only records copies. -/
theorem frameCall_spec (r : DecoderRecord) (call : FrameCall) : ∃ edges views copies conversions,
    r.frameCall call = { r with edges := edges, views := views, copies := copies, conversions := conversions } := by
  unfold DecoderRecord.frameCall
  split
  · exact ⟨_, _, _, _, rfl⟩
  all_goals
    split
    · first
      | exact ⟨_, _, _, _, rfl⟩
      | (split <;> exact ⟨_, _, _, _, rfl⟩)
    · exact ⟨_, _, _, _, rfl⟩

theorem Sound.frameCall (h : Sound cfg a w ks r) (call : FrameCall) : Sound cfg a w ks (r.frameCall call) := by
  have hcopies := h.copies.frameCall call
  obtain ⟨hframes, -, hstages, hpeak, hroom, hpolicy, hparties⟩ := h
  obtain ⟨edges, views, copies, conversions, hcall⟩ := frameCall_spec r call
  rw [hcall] at hcopies ⊢
  exact ⟨⟨hframes.accepted, hframes.read, hframes.completed, hframes.running⟩, hcopies, hstages, hpeak, hroom, hpolicy, hparties⟩

/-! ## Runs -/

variable {s t : Recorded F B} {l : RecordedLabel B X}

abbrev Recorded.Sound (cfg : DecoderConfig) (s : Recorded F B) : Prop := Decoder.Sound cfg s.1.shared s.1.worker s.1.client s.2

theorem Recorded.Sound.step (h : Recorded.Sound cfg s) (hst : RecordedStep backend cfg s l t) : Recorded.Sound cfg t := by
  obtain ⟨s, r⟩ := s
  cases l with
  | run label elapsed pending =>
      simp only [RecordedStep, recordedStep] at hst
      split at hst
      · cases hst
        exact h
      obtain ⟨u, hu, rfl⟩ := Option.map_eq_some_iff.mp hst
      clear hst
      have hst : (program backend cfg.capacity).Step s label u := hu
      cases label with
      | worker e =>
          obtain ⟨-, o, ho, rfl⟩ := hst.worker_inv
          exact Decoder.Sound.worker h (workerAct_move ho) elapsed pending
      | client party e =>
          obtain ⟨-, o, ho, rfl⟩ := hst.client_inv
          obtain ⟨sec, hmove, rfl⟩ := clientAct_move ho
          rw [(h.parties party).1] at hmove
          exact Decoder.Sound.client h hmove elapsed pending
      | wakeWorker =>
          rw [hst.wakeWorker_inv]
          exact h
      | wake party =>
          rw [hst.wake_inv]
          exact h
  | readGpu ended b elapsed =>
      simp only [RecordedStep, recordedStep] at hst
      split at hst
      case h_2 => cases hst
      split at hst
      · cases hst
        exact h
      · cases hst
        exact Decoder.Sound.readGpu h (not_not.mp ‹_›) b ended elapsed
  | setCopyPolicy policy =>
      cases hst
      exact Decoder.Sound.setCopyPolicy h policy
  | frame call =>
      cases hst
      exact Decoder.Sound.frameCall h call

theorem sound_init (cfg : DecoderConfig) (b : B) :
    Recorded.Sound cfg ((DecoderState.init cfg.capacity b : DecoderState F B), DecoderRecord.zero) where
  frames := by
    have hworker : (if 0 < cfg.capacity then WorkerPc.wait else .notStarted : WorkerPc F).inHand = 0 := by split <;> rfl
    refine ⟨rfl, ?_, rfl, fun _ => ⟨rfl, rfl⟩⟩
    simp only [DecoderState.init, hworker]
    rfl
  copies := ⟨rfl, rfl, by cases cfg.hardware <;> rfl, rfl, rfl, ⟨rfl, rfl⟩, rfl, nofun⟩
  stages := ⟨rfl, rfl, rfl⟩
  peak := ⟨Nat.le_refl 0, Nat.zero_le _⟩
  room := by
    simp only [DecoderState.init]
    split <;> exact nofun
  policy := ⟨nofun, nofun⟩
  parties party := ⟨rfl, by cases party <;> trivial⟩

/-- The metrics of a decoder account for its frames, its copies, its backend time and its queue, the reported path is the one that
the frames have taken, and the policy in force can be kept. -/
structure Accounted (cfg : DecoderConfig) (s : Recorded F B) : Prop where
  frames : Frames s.1.shared s.1.worker (returns s.1) s.2
  copies : Copies cfg s.2
  stages : Staged s.2.stages
  peak : s.1.shared.queue.length ≤ s.2.peakQueueDepth ∧ s.2.peakQueueDepth ≤ cfg.capacity
  path : (snapshotMetrics cfg s.2).copyPath =
    if 0 < s.2.gpuFrames then .zeroCopy else if (returns s.1).any ReadReturn.isFrame then .cpu else .unknown
  policy : Keepable cfg s.2.policy

theorem Recorded.Sound.accounted (h : Recorded.Sound cfg s) : Accounted cfg s where
  frames := h.frames
  copies := h.copies
  stages := h.stages
  peak := h.peak
  policy := h.policy
  path := by
    have hcompleted : s.2.completedFrames = (returns s.1).countP ReadReturn.isFrame + s.2.gpuFrames := h.frames.completed
    simp only [snapshotMetrics, h.copies.path, decide_eq_true_eq]
    by_cases hgpu : 0 < s.2.gpuFrames
    · rw [if_pos hgpu, if_pos hgpu]
    · rw [if_neg hgpu, if_neg hgpu]
      by_cases hpos : 0 < (returns s.1).countP ReadReturn.isFrame
      · have hany : (returns s.1).any ReadReturn.isFrame = true := List.any_eq_true.mpr (List.countP_pos_iff.mp hpos)
        rw [if_pos hany, if_neg]
        omega
      · have hany : ¬ (returns s.1).any ReadReturn.isFrame = true := fun hany =>
          hpos (List.countP_pos_iff.mpr (List.any_eq_true.mp hany))
        rw [if_neg hany, if_pos]
        omega

end

end MkvCodec.Decoder
