import Mathlib.Logic.Function.Basic
import MkvCodec.Backend.CpuInput
import MkvCodec.Backend.Timing
import MkvCodec.Gpu.Frame

/-!
# The oneVPL encoder

`IntelVplEncoder` with its queue: `intel_vpl_encoder.cpp`, `vpl_encoder_queue.cpp`, `vpl_bitstream.cpp`,
`vpl_cpu_input.cpp` and `vpl_gpu_submission.cpp`. What oneVPL answers in one call is given with the call. A loop that
asks again as long as the device is busy, or a synchronization in execution, is one question.
-/

namespace MkvCodec.Backend

open Gpu (CompletionState GpuFrameDesc)

/-! ## Encoded bitstreams -/

/-- The part of `mfxBitstream` that is read, from its data offset on. -/
structure Bitstream where
  data : List UInt8
  timeStamp : Nat
  key : Bool

structure IntelEncodedPacket where
  data : List UInt8
  pts : Int
  key : Bool

def readLe32 (value : List UInt8) : Nat :=
  (value.getD 0 0).toNat + (value.getD 1 0).toNat * 2 ^ 8 + (value.getD 2 0).toNat * 2 ^ 16 +
    (value.getD 3 0).toNat * 2 ^ 24

/-- `"DKIF"`. -/
def ivfSignature : List UInt8 := [0x44, 0x4b, 0x49, 0x46]

/-- The payload of a bitstream: all of it, or that of the first IVF frame. -/
def vplPayload (codec : Codec) (data : List UInt8) : Except String (List UInt8) :=
  match codec with
  | .av1 => .ok data
  | .vp9 =>
      let header := decide (4 ≤ data.length) && decide (data.take 4 = ivfSignature)
      if header && decide (data.length < 32) then .error "oneVPL returned a truncated VP9 IVF header"
      else
        let offset := if header then 32 else 0
        if data.length < offset + 12 then .error "oneVPL returned a truncated VP9 IVF frame header"
        else
          let frameSize := readLe32 (data.drop offset)
          if frameSize = 0 ∨ data.length - (offset + 12) < frameSize then
            .error "oneVPL returned an invalid VP9 IVF frame size"
          else .ok ((data.drop (offset + 12)).take frameSize)

/-- `append_vpl_encoded_packet`. -/
def appendVplEncodedPacket (bitstream : Bitstream) (codec : Codec) (fpsNum fpsDen : Nat)
    (packets : List IntelEncodedPacket) : Status × List IntelEncodedPacket :=
  if bitstream.data.isEmpty then (.ok, packets)
  else
    match vplPayload codec bitstream.data with
    | .error error => (⟨.errorCodec, error⟩, packets)
    | .ok payload => (.ok, packets ++ [⟨payload, vplPts fpsNum fpsDen bitstream.timeStamp, bitstream.key⟩])

/-! ## The queue -/

/-- How `MFXVideoENCODE_EncodeFrameAsync` ends a submission that it does not accept. -/
inductive SubmitEnd
  | moreData
  | failed (status : Int) (h : status < 0 ∧ status ≠ -10)

/-- A submission is accepted, with a synchronization point or without, or it is not. -/
inductive SubmitAnswer
  | accepted (sync : Bool)
  | ended (e : SubmitEnd)

/-- What `MFXVideoCORE_SyncOperation` returns, and the bitstream that is then there. -/
structure CollectAnswer where
  status : Int
  bitstream : Bitstream

/-- `VplEncoderQueue::Impl::Pending`: the number of the completion of the input, and the input frame. -/
structure Pending where
  inputCompletion : Option Nat
  inputFrame : Option Nat

/-- `VplEncoderQueue::Impl`, with the completions that submissions have made. `surfaces` are the time stamps of the
surfaces that oneVPL has taken, `bitstreams` what has been collected, `signals` the completions in the order in
which they were signalled: all three for specifications only. -/
structure VplEncoderQueue where
  codec : Codec
  fpsNum : Nat
  fpsDen : Nat
  asyncDepth : Nat
  pending : List Pending
  maxPending : Nat
  closed : Bool
  completions : Nat → CompletionState
  completionCount : Nat
  surfaces : List Nat
  bitstreams : List Bitstream
  signals : List Nat

namespace VplEncoderQueue

def created (codec : Codec) (fpsNum fpsDen asyncDepth : Nat) : VplEncoderQueue :=
  { codec := codec, fpsNum := fpsNum, fpsDen := fpsDen, asyncDepth := asyncDepth, pending := [], maxPending := 0
    closed := false, completions := fun _ => .pending, completionCount := 0, surfaces := [], bitstreams := []
    signals := [] }

/-- `ManualCompletion::complete` or `fail`. -/
def signal (q : VplEncoderQueue) (completion : Option Nat) (state : CompletionState) : VplEncoderQueue :=
  match completion with
  | none => q
  | some n => { q with completions := Function.update q.completions n state, signals := q.signals ++ [n] }

/-- A completion that has failed, as its `wait` reports it. -/
def failure (error : String) : CompletionState := .failed ⟨.errorCodec, error⟩ Result.errorCodec_ne_ok

def take (q : VplEncoderQueue) (surface : Option Nat) : VplEncoderQueue :=
  { q with surfaces := q.surfaces ++ surface.toList }

/-- `submit`. A null surface, which drains the encoder, is `none`. -/
def submit (q : VplEncoderQueue) (surface : Option Nat) (completion frame : Option Nat) (answer : SubmitAnswer) :
    Status × VplEncoderQueue :=
  if q.closed then (⟨.errorInvalidState, "oneVPL encoder queue is closed"⟩, q)
  else
    match answer with
    | .ended .moreData => (⟨.endOfStream, ""⟩, q.take surface)
    | .ended (.failed status _) =>
        if status = -5 then (⟨.errorBufferTooSmall, "oneVPL bitstream buffer is too small"⟩, q)
        else
          (⟨if status = -13 then .errorIo else .errorCodec,
            "oneVPL EncodeFrameAsync failed with status " ++ toString status⟩, q)
    | .accepted true =>
        (.ok, { q.take surface with
          pending := q.pending ++ [⟨completion, frame⟩], maxPending := max q.maxPending (u32 (q.pending.length + 1)) })
    | .accepted false => (.ok, (q.take surface).signal completion .complete)

/-- `collect_oldest`, with the packets that have been collected before. -/
def collectOldest (q : VplEncoderQueue) (packets : List IntelEncodedPacket) (answer : CollectAnswer) :
    Status × List IntelEncodedPacket × VplEncoderQueue :=
  match q.pending with
  | [] => (.ok, packets, q)
  | pending :: rest =>
      let q := { q with pending := rest }
      if answer.status ≠ 0 then
        let error := "oneVPL SyncOperation failed with status " ++ toString answer.status
        (⟨if answer.status = -13 then .errorIo else .errorCodec, error⟩, packets,
          q.signal pending.inputCompletion (failure error))
      else
        let q := { q with bitstreams := q.bitstreams ++ [answer.bitstream] }
        match appendVplEncodedPacket answer.bitstream q.codec q.fpsNum q.fpsDen packets with
        | (status, packets) =>
            if status.result ≠ .ok then (status, packets, q.signal pending.inputCompletion (failure status.error))
            else (.ok, packets, q.signal pending.inputCompletion .complete)

/-- The answers to `drain`: the null submissions that are accepted, each with that to the collection that may follow,
the submission that is not, and the collections behind the loop by how much is pending. -/
structure DrainAnswer where
  accepted : List (Bool × CollectAnswer)
  last : SubmitEnd
  collects : Nat → CollectAnswer

/-- The first loop of `drain`. -/
def drainSubmit (q : VplEncoderQueue) (packets : List IntelEncodedPacket) (last : SubmitEnd) :
    List (Bool × CollectAnswer) → Status × List IntelEncodedPacket × VplEncoderQueue
  | [] =>
      match q.submit none none none (.ended last) with
      | (status, q) => (if status.result = .endOfStream then .ok else status, packets, q)
  | (sync, answer) :: rest =>
      match q.submit none none none (.accepted sync) with
      | (status, q) =>
          if status.result ≠ .ok then (status, packets, q)
          else if q.asyncDepth ≤ q.pending.length then
            match q.collectOldest packets answer with
            | (status, packets, q) =>
                if status.result ≠ .ok then (status, packets, q) else drainSubmit q packets last rest
          else drainSubmit q packets last rest

/-- The second loop of `drain`, which collects until nothing is pending. -/
def drainCollect (collects : Nat → CollectAnswer) :
    Nat → VplEncoderQueue → List IntelEncodedPacket → Status × List IntelEncodedPacket × VplEncoderQueue
  | 0, q, packets => (.ok, packets, q)
  | n + 1, q, packets =>
      match q.collectOldest packets (collects n) with
      | (status, packets, q) =>
          if status.result ≠ .ok then (status, packets, q) else drainCollect collects n q packets

def drain (q : VplEncoderQueue) (packets : List IntelEncodedPacket) (answer : DrainAnswer) :
    Status × List IntelEncodedPacket × VplEncoderQueue :=
  match q.drainSubmit packets answer.last answer.accepted with
  | (status, packets, q) =>
      if status.result ≠ .ok then (status, packets, q) else drainCollect answer.collects q.pending.length q packets

/-- `close` waits for every synchronization point; the statuses are those of the waits. -/
def close (q : VplEncoderQueue) (statuses : Nat → Int) : VplEncoderQueue :=
  if q.closed then q
  else
    let signalled := q.pending.zipIdx.foldl
      (fun q p => q.signal p.1.inputCompletion
        (if statuses p.2 = 0 then .complete else failure "oneVPL encoder close synchronization failed")) q
    { signalled with pending := [], closed := true }

end VplEncoderQueue

/-! ## The encoder -/

/-- The arguments of `write_nv12` but the pixels: whether a plane is there, and its stride. -/
structure Nv12Input where
  y : Bool
  yStride : Int
  uv : Bool
  uvStride : Int

/-- A GPU frame in the hands of the encoder. -/
structure GpuInput where
  frame : Nat
  desc : GpuFrameDesc

/-- Whether a surface can be acquired, mapped and unmapped, and what follows. -/
structure CpuSubmitAnswer where
  acquired : Bool
  mapped : Bool
  unmapped : Bool
  submit : SubmitAnswer
  collect : CollectAnswer

/-- What `VplImportedSurfaceTracker::acquire` returns: an error, or a surface, which may be imported. -/
inductive AcquireAnswer
  | failed (status : Status) (h : status.result ≠ .ok)
  | acquired (imported : Bool)

structure GpuSubmitAnswer where
  acquire : AcquireAnswer
  submit : SubmitAnswer
  addConsumer : Status
  collect : CollectAnswer

/-- `IntelVplEncoder::Impl`. -/
structure IntelVplEncoder where
  codec : Codec
  width : Nat
  height : Nat
  fpsNum : Nat
  fpsDen : Nat
  nextPts : Int
  drained : Bool
  closed : Bool
  queue : VplEncoderQueue

namespace IntelVplEncoder

/-- `create` with the default depth. `error` is what `VplEncoderRuntime::create` reports. -/
def create (codec : Codec) (width height fpsNum fpsDen quality : Nat) (error : Option String) :
    Except String IntelVplEncoder :=
  if decide (width = 0) || decide (height = 0) || decide (width > 65520) || decide (height > 65520) ||
      decide (width % 2 ≠ 0) || decide (height % 2 ≠ 0) || decide (fpsNum = 0) || decide (fpsDen = 0) ||
      decide (quality > 63) then
    .error "invalid oneVPL encoder configuration"
  else
    match error with
    | some error => .error error
    | none =>
        .ok
          { codec := codec, width := width, height := height, fpsNum := fpsNum, fpsDen := fpsDen, nextPts := 0
            drained := false, closed := false, queue := .created codec fpsNum fpsDen 4 }

def endedInvalid : Status := ⟨.errorInvalidState, "oneVPL encoder is closed or drained"⟩

/-- What a submission has returned becomes the result of the write. -/
def accept (e : IntelVplEncoder) (framePts : Int) (status : Status) (packets : List IntelEncodedPacket)
    (queue : VplEncoderQueue) : Status × List IntelEncodedPacket × IntelVplEncoder :=
  if status.result = .ok ∨ status.result = .endOfStream then
    (.ok, packets, { e with queue := queue, nextPts := max e.nextPts (i64 (framePts + 1)) })
  else (status, packets, { e with queue := queue })

/-- `submit_cpu_nv12`. -/
def submitCpuNv12 (e : IntelVplEncoder) (input : Nv12Input) (pts : Int) (answer : CpuSubmitAnswer) :
    Status × List IntelEncodedPacket × IntelVplEncoder :=
  if !input.y || !input.uv || decide (input.yStride < asInt32 e.width) || decide (input.uvStride < asInt32 e.width) then
    (⟨.errorInvalidArgument, "invalid NV12 input"⟩, [], e)
  else if !answer.acquired then (⟨.errorCodec, "oneVPL failed to acquire an encode surface"⟩, [], e)
  else if !answer.mapped then (⟨.errorCodec, "oneVPL failed to map an encode surface"⟩, [], e)
  else if !answer.unmapped then (⟨.errorCodec, "oneVPL failed to unmap an encode surface"⟩, [], e)
  else
    let framePts := if 0 ≤ pts then pts else e.nextPts
    match e.queue.submit (some (vplTimeStamp e.fpsNum e.fpsDen framePts)) none none answer.submit with
    | (status, queue) =>
        if status.result = .ok ∧ queue.asyncDepth ≤ queue.pending.length then
          match queue.collectOldest [] answer.collect with
          | (status, packets, queue) => e.accept framePts status packets queue
        else e.accept framePts status [] queue

/-- `write_nv12`. -/
def writeNv12 (e : IntelVplEncoder) (input : Nv12Input) (pts : Int) (answer : CpuSubmitAnswer) :
    Status × List IntelEncodedPacket × IntelVplEncoder :=
  if e.closed || e.drained then (endedInvalid, [], e) else e.submitCpuNv12 input pts answer

/-- `submit_gpu_surface` behind the submission. The completion has been signalled unless it is pending. -/
def submitted (e : IntelVplEncoder) (framePts : Int) (completion : Nat) (status : Status) (queue : VplEncoderQueue)
    (answer : GpuSubmitAnswer) : Status × List IntelEncodedPacket × IntelVplEncoder :=
  if status.result ≠ .ok ∧ status.result ≠ .endOfStream then
    (status, [], { e with queue := queue.signal (some completion) (VplEncoderQueue.failure status.error) })
  else if status.result = .ok then
    if answer.addConsumer.result ≠ .ok then (answer.addConsumer, [], { e with queue := queue })
    else if queue.pending.length ≠ 0 then
      match queue.collectOldest [] answer.collect with
      | (status, packets, queue) => e.accept framePts status packets queue
    else e.accept framePts status [] queue
  else e.accept framePts status [] (queue.signal (some completion) .complete)

/-- `submit_gpu_surface`. A null frame is `none`. -/
def submitGpuSurface (e : IntelVplEncoder) (frame : Option GpuInput) (requestedPts : Int)
    (answer : GpuSubmitAnswer) : Status × List IntelEncodedPacket × IntelVplEncoder :=
  if e.closed || e.drained then (endedInvalid, [], e)
  else
    let incompatible : Status := ⟨.errorInvalidArgument, "GPU frame is not a compatible Intel NV12 surface"⟩
    match frame with
    | none => (incompatible, [], e)
    | some input =>
        if decide (input.desc.backend ≠ .intel) || decide (input.desc.pixelFormat ≠ .nv12) ||
            decide (input.desc.width ≠ e.width) || decide (input.desc.height ≠ e.height) then
          (incompatible, [], e)
        else
          match answer.acquire with
          | .failed status _ => (status, [], e)
          | .acquired _ =>
              let framePts := if 0 ≤ requestedPts then requestedPts else e.nextPts
              let completion := e.queue.completionCount
              let queue := { e.queue with completionCount := completion + 1 }
              match queue.submit (some (vplTimeStamp e.fpsNum e.fpsDen framePts)) (some completion) (some input.frame)
                  answer.submit with
              | (status, queue) => e.submitted framePts completion status queue answer

/-- `drain`. -/
def drain (e : IntelVplEncoder) (answer : VplEncoderQueue.DrainAnswer) :
    Status × List IntelEncodedPacket × IntelVplEncoder :=
  if e.closed || e.drained then (.ok, [], e)
  else
    match e.queue.drain [] answer with
    | (status, packets, queue) =>
        if status.result ≠ .ok then (status, packets, { e with queue := queue })
        else (.ok, packets, { e with queue := queue, drained := true })

/-- `close`. -/
def close (e : IntelVplEncoder) (statuses : Nat → Int) : IntelVplEncoder :=
  if e.closed then e else { e with queue := e.queue.close statuses, closed := true }

end IntelVplEncoder

end MkvCodec.Backend
