import MkvCodec.Backend.Muxer
import MkvCodec.Backend.Vpl

/-!
# The Intel encoder

`VplEncoderSequence` of `vpl_encoder_sequence.cpp`, `VplPacketMuxer` of `vpl_packet_muxer.cpp` and `IntelWebmEncoder` of
`intel_webm_encoder.cpp`. A call that would go through the null pointer of a missing encoder gives `none`.
-/

namespace MkvCodec.Backend

/-! ## The sequence -/

/-- `VplEncoderSequence`. `retired` are the encoders that have been destroyed, for specifications only. -/
structure VplEncoderSequence where
  config : Config
  encoder : Option IntelVplEncoder
  nextPts : Int
  framesInSequence : Nat
  hardwarePendingPeak : Nat
  externalGpuMode : Bool
  closed : Bool
  retired : List IntelVplEncoder

namespace VplEncoderSequence

/-- `create_cpu_encoder`, and the creation of the encoder for external frames. -/
def createEncoder (config : Config) (error : Option String) : Except String IntelVplEncoder :=
  IntelVplEncoder.create config.codec config.width config.height config.fpsNum config.fpsDen config.quality error

def create (config : Config) (error : Option String) : Except String VplEncoderSequence :=
  match createEncoder config error with
  | .error error => .error error
  | .ok encoder =>
      .ok
        { config := config, encoder := some encoder, nextPts := 0, framesInSequence := 0, hardwarePendingPeak := 0
          externalGpuMode := false, closed := false, retired := [] }

def closedError : Status := ⟨.errorInvalidState, "Intel encoder is closed"⟩

/-- `destroy_encoder`; the statuses are those of the waits for what is pending. -/
def destroyEncoder (s : VplEncoderSequence) (statuses : Nat → Int) : VplEncoderSequence :=
  match s.encoder with
  | none => s
  | some encoder =>
      { s with
        hardwarePendingPeak := max s.hardwarePendingPeak encoder.queue.maxPending, encoder := none
        retired := s.retired ++ [encoder.close statuses] }

def writeNv12 (s : VplEncoderSequence) (input : Nv12Input) (requestedPts : Int) (answer : CpuSubmitAnswer) :
    Option (Status × List IntelEncodedPacket × VplEncoderSequence) :=
  if s.closed then some (closedError, [], s)
  else
    let framePts := if 0 ≤ requestedPts then requestedPts else s.nextPts
    match s.encoder with
    | none => none
    | some encoder =>
        match encoder.writeNv12 input framePts answer with
        | (status, packets, encoder) =>
            let s := { s with encoder := some encoder }
            if status.result ≠ .ok then some (status, packets, s)
            else
              some (.ok, packets,
                { s with
                  nextPts := max s.nextPts (i64 (framePts + 1)), framesInSequence := s.framesInSequence + 1 })

/-- The part of `write_gpu` behind the choice of the encoder. -/
def submitGpu (s : VplEncoderSequence) (frame : Option GpuInput) (answer : GpuSubmitAnswer) :
    Option (Status × List IntelEncodedPacket × VplEncoderSequence) :=
  match s.encoder with
  | none => none
  | some encoder =>
      match encoder.submitGpuSurface frame s.nextPts answer with
      | (status, packets, encoder) =>
          let s := { s with encoder := some encoder }
          if status.result ≠ .ok then some (status, packets, s)
          else
            some (.ok, packets,
              { s with nextPts := i64 (s.nextPts + 1), framesInSequence := s.framesInSequence + 1 })

/-- `write_gpu`. `adapter` is the error of the creation of an encoder that shares the device of the frame. -/
def writeGpu (s : VplEncoderSequence) (frame : Option GpuInput) (adapter : Option String) (statuses : Nat → Int)
    (answer : GpuSubmitAnswer) : Option (Status × List IntelEncodedPacket × VplEncoderSequence) :=
  if s.closed then some (closedError, [], s)
  else if s.externalGpuMode then s.submitGpu frame answer
  else if s.framesInSequence ≠ 0 then
    some (⟨.errorInvalidState, "flush Intel writer before switching to external GPU input"⟩, [], s)
  else
    match createEncoder s.config adapter with
    | .error error => some (⟨.errorNotSupported, error⟩, [], s)
    | .ok adapter =>
        submitGpu { s.destroyEncoder statuses with encoder := some adapter, externalGpuMode := true } frame answer

def flush (s : VplEncoderSequence) (answer : VplEncoderQueue.DrainAnswer) (statuses : Nat → Int) :
    Option (Status × List IntelEncodedPacket × VplEncoderSequence) :=
  if s.closed || (decide (s.framesInSequence = 0) && !s.externalGpuMode) then some (.ok, [], s)
  else
    match s.encoder with
    | none => none
    | some encoder =>
        match encoder.drain answer with
        | (status, packets, encoder) =>
            let s := destroyEncoder { s with encoder := some encoder } statuses
            some (status, packets, { s with framesInSequence := 0, externalGpuMode := false })

def restartCpu (s : VplEncoderSequence) (error : Option String) : Status × VplEncoderSequence :=
  if s.closed then (closedError, s)
  else
    match s.encoder with
    | some _ => (.ok, s)
    | none =>
        match createEncoder s.config error with
        | .error error => (⟨.errorCodec, error⟩, s)
        | .ok encoder => (.ok, { s with encoder := some encoder })

def close (s : VplEncoderSequence) (answer : VplEncoderQueue.DrainAnswer) (statuses : Nat → Int) :
    Status × List IntelEncodedPacket × VplEncoderSequence :=
  if s.closed then (.ok, [], s)
  else
    let (status, packets, s) : Status × List IntelEncodedPacket × VplEncoderSequence :=
      match s.encoder with
      | none => (.ok, [], s)
      | some encoder =>
          if 0 < s.framesInSequence then
            match encoder.drain answer with
            | (status, packets, encoder) => (status, packets, { s with encoder := some encoder })
          else (.ok, [], s)
    (status, packets, { s.destroyEncoder statuses with closed := true })

def maxPendingObserved (s : VplEncoderSequence) : Nat :=
  max s.hardwarePendingPeak (s.encoder.elim 0 fun encoder => encoder.queue.maxPending)

end VplEncoderSequence

/-! ## The muxer -/

/-- `VplPacketMuxer`. -/
structure VplPacketMuxer where
  muxer : WebmMuxer
  fpsNum : Nat
  fpsDen : Nat

namespace VplPacketMuxer

/-- `write`. The answers of the muxer are given by how many packets follow. -/
def write (m : VplPacketMuxer) (adds : Nat → AddAnswer) : List IntelEncodedPacket → Status × VplPacketMuxer
  | [] => (.ok, m)
  | packet :: rest =>
      match m.muxer.addFrame packet.data (toNanoseconds m.fpsNum m.fpsDen packet.pts)
          (durationNanoseconds m.fpsNum m.fpsDen) packet.key (adds rest.length) with
      | (status, muxer) =>
          if status.result ≠ .ok then (status, { m with muxer := muxer })
          else write { m with muxer := muxer } adds rest

def finalize (m : VplPacketMuxer) (answer : FinalizeAnswer) : Status × VplPacketMuxer :=
  match m.muxer.finalize answer with
  | (status, muxer) => (status, { m with muxer := muxer })

end VplPacketMuxer

/-! ## The encoder -/

structure IntelWriteAnswer where
  libyuv : Bool
  submit : CpuSubmitAnswer
  adds : Nat → AddAnswer

structure IntelGpuAnswer where
  adapter : Option String
  destroyed : Nat → Int
  submit : GpuSubmitAnswer
  adds : Nat → AddAnswer

structure IntelFlushAnswer where
  drain : VplEncoderQueue.DrainAnswer
  destroyed : Nat → Int
  adds : Nat → AddAnswer
  restart : Option String

structure IntelCloseAnswer where
  drain : VplEncoderQueue.DrainAnswer
  destroyed : Nat → Int
  adds : Nat → AddAnswer
  finalize : FinalizeAnswer

/-- `IntelWebmEncoder::Impl`. `i420` and `nv12` are the sizes of the staging buffers. -/
structure IntelWebmEncoder where
  muxer : VplPacketMuxer
  sequence : VplEncoderSequence
  width : Nat
  height : Nat
  closed : Bool
  i420 : Nat
  nv12 : Nat

namespace IntelWebmEncoder

/-- `create`. `runtime` and `muxer` are the errors of the vendor's runtime and of `WebmMuxer::create`. -/
def create (config : Config) (runtime muxer : Option String) : Except String IntelWebmEncoder :=
  match VplEncoderSequence.create config runtime with
  | .error error => .error error
  | .ok sequence =>
      match muxer with
      | some error => .error error
      | none =>
          .ok
            { muxer := ⟨.created, config.fpsNum, config.fpsDen⟩, sequence := sequence, width := config.width
              height := config.height, closed := false, i420 := config.width * config.height * 3 / 2
              nv12 := config.width * config.height * 3 / 2 }

/-- The packets of a call that has succeeded go to the muxer. -/
def mux (e : IntelWebmEncoder) (status : Status) (packets : List IntelEncodedPacket) (adds : Nat → AddAnswer) :
    Status × IntelWebmEncoder :=
  if status.result ≠ .ok then (status, e)
  else
    match e.muxer.write adds packets with
    | (status, muxer) => (status, { e with muxer := muxer })

def write (e : IntelWebmEncoder) (frame : FrameView) (answer : IntelWriteAnswer) :
    Option (Status × IntelWebmEncoder) :=
  if e.closed then some (VplEncoderSequence.closedError, e)
  else if frame.width ≠ e.width ∨ frame.height ≠ e.height then
    some (⟨.errorInvalidArgument, "frame dimensions do not match Intel encoder"⟩, e)
  else
    let conversion := convertCpuFrameToNv12 frame e.width e.height e.i420 e.nv12 "Intel" answer.libyuv
    if conversion.result ≠ .ok then some (conversion, e)
    else
      match e.sequence.writeNv12 ⟨true, asInt32 e.width, true, asInt32 e.width⟩ frame.pts answer.submit with
      | none => none
      | some (status, packets, sequence) => some (mux { e with sequence := sequence } status packets answer.adds)

/-- `write_gpu`. A null frame is `none`. -/
def writeGpu (e : IntelWebmEncoder) (frame : Option GpuInput) (answer : IntelGpuAnswer) :
    Option (Status × IntelWebmEncoder) :=
  if e.closed then some (VplEncoderSequence.closedError, e)
  else if frame.all fun input => decide (input.desc.width ≠ e.width) || decide (input.desc.height ≠ e.height) then
    some (⟨.errorInvalidArgument, "GPU frame dimensions do not match Intel encoder"⟩, e)
  else
    match e.sequence.writeGpu frame answer.adapter answer.destroyed answer.submit with
    | none => none
    | some (status, packets, sequence) => some (mux { e with sequence := sequence } status packets answer.adds)

def flush (e : IntelWebmEncoder) (answer : IntelFlushAnswer) : Option (Status × IntelWebmEncoder) :=
  if e.closed then some (.ok, e)
  else
    match e.sequence.flush answer.drain answer.destroyed with
    | none => none
    | some (status, packets, sequence) =>
        match mux { e with sequence := sequence } status packets answer.adds with
        | (status, e) =>
            if status.result ≠ .ok then some (status, e)
            else
              match e.sequence.restartCpu answer.restart with
              | (status, sequence) => some (status, { e with sequence := sequence })

def close (e : IntelWebmEncoder) (answer : IntelCloseAnswer) : Status × IntelWebmEncoder :=
  if e.closed then (.ok, e)
  else
    match e.sequence.close answer.drain answer.destroyed with
    | (status, packets, sequence) =>
        match mux { e with sequence := sequence } status packets answer.adds with
        | (status, e) =>
            if status.result ≠ .ok then (status, { e with closed := true })
            else
              match e.muxer.finalize answer.finalize with
              | (status, muxer) => (status, { e with muxer := muxer, closed := true })

end IntelWebmEncoder

/-- A call on the encoder with the answers that it gets. -/
inductive IntelOp
  | write (frame : FrameView) (answer : IntelWriteAnswer)
  | writeGpu (frame : Option GpuInput) (answer : IntelGpuAnswer)
  | flush (answer : IntelFlushAnswer)
  | close (answer : IntelCloseAnswer)

def IntelWebmEncoder.run (e : IntelWebmEncoder) : IntelOp → Option (Status × IntelWebmEncoder)
  | .write frame answer => e.write frame answer
  | .writeGpu frame answer => e.writeGpu frame answer
  | .flush answer => e.flush answer
  | .close answer => some (e.close answer)

end MkvCodec.Backend
