import MkvCodec.Backend.Muxer
import MkvCodec.Backend.RateParameters
import MkvCodec.Backend.Timing
import MkvCodec.Gpu.Frame

/-!
# The NVIDIA encoder

`NvidiaWebmEncoder` of `nvidia_webm_encoder.cpp` with its session (`nvenc_session.cpp`), its submissions
(`nvenc_encoder_submission.cpp` and the files behind it) and its packets (`nvenc_packet_io.cpp`). What CUDA, NVENC and
the muxer answer in one call is given with the call. A null pointer is `none`.
-/

namespace MkvCodec.Backend

open Gpu (GpuFrameDesc NativeHandleDesc)

/-! ## The session -/

structure NvencSession where
  context : Option Nat
  ownsContext : Bool
  encoder : Option Nat
  input : Option Nat
  output : Option Nat

def NvencSession.empty : NvencSession := ⟨none, false, none, none, none⟩

/-- What `nvEncOpenEncodeSessionEx` leaves behind. -/
inductive NvencOpen
  | opened (encoder : Nat)
  | failed (encoder : Option Nat)

/-- The answers to the calls of `initialize_nvenc_session`. `context` and the buffers are `none` where a call fails. -/
structure NvencInit where
  context : Option Nat
  opened : NvencOpen
  preset : Bool
  initialized : Bool
  input : Option Nat
  output : Option Nat

/-- The fields of `NV_ENC_PIC_PARAMS` that differ from picture to picture. -/
structure NvencPicture where
  frameIdx : Nat
  inputTimeStamp : Nat
  inputDuration : Nat
  forceIdr : Bool

/-- What `nvEncLockBitstream` gives. -/
structure NvencPacket where
  data : List UInt8
  outputTimeStamp : Nat
  outputDuration : Nat
  key : Bool

/-- The calls into CUDA and NVENC. Those that submit a picture or take a packet carry the session. -/
inductive NvencCall
  | createContext
  | openSession (context : Option Nat)
  | presetConfig
  | initializeEncoder
  | createInput
  | createOutput
  | destroyInput
  | destroyOutput
  | destroyEncoder
  | destroyContext
  | lockInput (session : NvencSession)
  | unlockInput (session : NvencSession)
  | register (session : NvencSession)
  | map (session : NvencSession)
  | unmap (session : NvencSession)
  | unregister (session : NvencSession)
  | encode (session : NvencSession) (picture : NvencPicture) (encoded : Bool)
  | eos (session : NvencSession)
  | lockBitstream (session : NvencSession) (packet : Option NvencPacket)
  | unlockBitstream (session : NvencSession)

def nvencError (error : String) : Status := ⟨.errorCodec, error⟩

/-- `initialize_nvenc_session` from the opening of the session on. -/
def openNvencSession (session : NvencSession) (answer : NvencInit) : Status × NvencSession × List NvencCall :=
  let opened : NvencCall := .openSession session.context
  match answer.opened with
  | .failed encoder => (nvencError "nvEncOpenEncodeSessionEx failed", { session with encoder := encoder }, [opened])
  | .opened encoder =>
      let session := { session with encoder := some encoder }
      if !answer.preset then (nvencError "NVENC AV1 P4 preset query failed", session, [opened, .presetConfig])
      else if !answer.initialized then
        (nvencError "nvEncInitializeEncoder AV1 failed", session, [opened, .presetConfig, .initializeEncoder])
      else
        match answer.input with
        | none =>
            (nvencError "nvEncCreateInputBuffer failed", session,
              [opened, .presetConfig, .initializeEncoder, .createInput])
        | some input =>
            let session := { session with input := some input }
            let calls : List NvencCall := [opened, .presetConfig, .initializeEncoder, .createInput, .createOutput]
            match answer.output with
            | none => (nvencError "nvEncCreateBitstreamBuffer failed", session, calls)
            | some output => (.ok, { session with output := some output }, calls)

/-- `initialize_nvenc_session`. -/
def initializeNvencSession (externalContext : Option Nat) (session : NvencSession) (answer : NvencInit) :
    Status × NvencSession × List NvencCall :=
  if session.context.isSome || session.encoder.isSome || session.input.isSome || session.output.isSome then
    (⟨.errorInvalidState, "NVENC session resources are already initialized"⟩, session, [])
  else
    match externalContext with
    | some context => openNvencSession { session with context := some context, ownsContext := false } answer
    | none =>
        match answer.context with
        | none => (nvencError "failed to create NVIDIA encode CUDA context", session, [.createContext])
        | some context =>
            match openNvencSession { session with context := some context, ownsContext := true } answer with
            | (status, session, calls) => (status, session, .createContext :: calls)

/-- The calls of `destroy_nvenc_session`, which leaves an empty session. -/
def destroyNvencSession (session : NvencSession) : List NvencCall :=
  (if session.encoder.isSome then
    (if session.input.isSome then [.destroyInput] else []) ++
      (if session.output.isSome then [.destroyOutput] else []) ++ [.destroyEncoder]
  else []) ++
  (if session.context.isSome && session.ownsContext then [.destroyContext] else [])

/-- `NvencSessionManager`. The owner of the context is a frame. -/
structure NvencSessionManager where
  externalContext : Option Nat
  session : NvencSession
  contextOwner : Option Nat

namespace NvencSessionManager

/-- `NvencSessionManager::initialize`. -/
def initializeSession (m : NvencSessionManager) (externalContext : Option Nat) (answer : NvencInit) :
    Status × NvencSessionManager × List NvencCall :=
  match initializeNvencSession externalContext m.session answer with
  | (status, session, calls) =>
      if status.result ≠ .ok then (status, { m with session := .empty }, calls ++ destroyNvencSession session)
      else (status, { m with session := session }, calls)

/-- `initialize_cpu`. -/
def initializeCpu (m : NvencSessionManager) (answer : NvencInit) : Status × NvencSessionManager × List NvencCall :=
  if m.session.context.isSome || m.session.encoder.isSome then
    (⟨.errorInvalidState, "NVENC session manager is already initialized"⟩, m, [])
  else m.initializeSession none answer

/-- `bind_cuda_context`. -/
def bindCudaContext (m : NvencSessionManager) (context : Option Nat) (contextOwner : Option Nat)
    (submittedFrames : Nat) (answer : NvencInit) : Status × NvencSessionManager × List NvencCall :=
  if context.isNone || contextOwner.isNone then
    (⟨.errorInvalidArgument, "NVENC external CUDA context or owner is null"⟩, m, [])
  else if m.externalContext.isSome then
    if m.externalContext = context then (.ok, m, [])
    else (⟨.errorNotSupported, "all GPU frames must belong to the NVENC session CUDA context"⟩, m, [])
  else if submittedFrames ≠ 0 then
    (⟨.errorInvalidState, "cannot switch a running CPU-input NVENC session to GPU input"⟩, m, [])
  else
    let destroyed := destroyNvencSession m.session
    match initializeSession ⟨context, .empty, contextOwner⟩ context answer with
    | (status, bound, calls) =>
        if status.result ≠ .ok then
          (status, { bound with contextOwner := none, externalContext := none }, destroyed ++ calls)
        else (status, bound, destroyed ++ calls)

/-- `restart_cpu`. -/
def restartCpu (m : NvencSessionManager) (answer : NvencInit) : Status × NvencSessionManager × List NvencCall :=
  match initializeSession ⟨none, .empty, none⟩ none answer with
  | (status, restarted, calls) => (status, restarted, destroyNvencSession m.session ++ calls)

/-- `destroy`. -/
def destroy (m : NvencSessionManager) : NvencSessionManager × List NvencCall :=
  (⟨none, .empty, none⟩, destroyNvencSession m.session)

end NvencSessionManager

/-! ## Submissions -/

/-- What `nvEncEncodePicture` returns for a picture. -/
inductive NvencStatus
  | success
  | needMoreInput
  | failed
  deriving DecidableEq

/-- The answers of a submission from the CPU: whether the input buffer can be locked and has room for the rows. -/
structure NvencCpuSubmit where
  locked : Bool
  layout : Bool
  encoded : NvencStatus

/-- `submit_nvenc_cpu_frame`. -/
def submitNvencCpuFrame (session : NvencSession) (nv12 : Bool) (picture : NvencPicture) (answer : NvencCpuSubmit) :
    Status × List NvencCall :=
  if !nv12 then (⟨.errorInvalidArgument, "NVENC CPU input is null"⟩, [])
  else if !answer.locked then (nvencError "nvEncLockInputBuffer failed", [.lockInput session])
  else if !answer.layout then
    (nvencError "NVENC returned an invalid CPU input buffer layout", [.lockInput session, .unlockInput session])
  else
    let calls : List NvencCall :=
      [.lockInput session, .unlockInput session, .encode session picture (decide (answer.encoded = .success))]
    match answer.encoded with
    | .success => (.ok, calls)
    | .needMoreInput =>
        (nvencError "NVENC unexpectedly buffered input with the synchronous no-B-frame profile", calls)
    | .failed => (nvencError "nvEncEncodePicture failed", calls)

/-- The answers of a submission from the GPU. -/
structure NvencGpuSubmit where
  registered : Bool
  mapped : Bool
  encoded : Bool

/-- `submit_nvenc_cuda_frame`. -/
def submitNvencCudaFrame (session : NvencSession) (picture : NvencPicture) (answer : NvencGpuSubmit) :
    Status × List NvencCall :=
  if !answer.registered then
    (nvencError "nvEncRegisterResource rejected the CUDA input resource", [.register session])
  else if !answer.mapped then
    (nvencError "nvEncMapInputResource failed", [.register session, .map session, .unregister session])
  else
    (if answer.encoded then .ok else nvencError "nvEncEncodePicture failed for GPU input",
      [.register session, .map session, .encode session picture answer.encoded, .unmap session, .unregister session])

/-- `mux_nvenc_packet`. -/
def muxNvencPacket (session : NvencSession) (muxer : WebmMuxer) (defaultDurationNs : Nat)
    (packet : Option NvencPacket) (answer : AddAnswer) : Status × WebmMuxer × List NvencCall :=
  match packet with
  | none => (nvencError "nvEncLockBitstream failed", muxer, [.lockBitstream session none])
  | some packet =>
      let calls : List NvencCall := [.lockBitstream session (some packet), .unlockBitstream session]
      if packet.data.isEmpty then (nvencError "NVENC returned an empty bitstream buffer", muxer, calls)
      else
        match muxer.addFrame packet.data packet.outputTimeStamp
            (if packet.outputDuration ≠ 0 then packet.outputDuration else defaultDurationNs) packet.key answer with
        | (status, muxer) => (status, muxer, calls)

/-- A frame in the hands of the encoder: its descriptor, what the wait for its producer and `get_native_handle` return,
and the object of its resource. `producer` is `none` without a producer. -/
structure CudaFrame where
  frame : Nat
  desc : GpuFrameDesc
  producer : Option Status
  native : Except Status NativeHandleDesc
  object : Nat
  native_error : ∀ status, native = .error status → status.result ≠ .ok

structure NvencCudaFrameView where
  cudaArray : Bool
  resourceHandle : Nat
  contextHandle : Nat
  pitch : Nat
  ptsNs : Int

def expectedNativeType (cudaPointer : Bool) : Gpu.NativeHandleType := if cudaPointer then .cudaPointer else .cudaArray

/-- `prepare_nvenc_cuda_frame`. -/
def prepareNvencCudaFrame (frame : Option CudaFrame) (requiredWidth requiredHeight : Nat) :
    Except Status NvencCudaFrameView :=
  match frame with
  | none => .error ⟨.errorInvalidArgument, "GPU frame is null"⟩
  | some frame =>
      let desc := frame.desc
      let cudaPointer := decide (desc.memoryType = .cudaPointer)
      let cudaArray := decide (desc.memoryType = .cudaArray)
      if decide (desc.backend ≠ .nvidia) || (!cudaPointer && !cudaArray) || decide (desc.pixelFormat ≠ .nv12) ||
          decide (desc.planeCount ≠ 2) then
        .error ⟨.errorNotSupported, "NVENC requires a NVIDIA CUDA pointer/array NV12 frame"⟩
      else if decide (desc.width ≠ requiredWidth) || decide (desc.height ≠ requiredHeight) ||
          decide (desc.pitches 0 < requiredWidth) || decide (desc.pitches 0 ≠ desc.pitches 1) ||
          decide (desc.pitches 0 > 2 ^ 32 - 1) then
        .error ⟨.errorInvalidArgument, "GPU frame dimensions or NV12 pitch do not match NVENC"⟩
      else
        match frame.producer with
        | none => .error ⟨.errorInvalidState, "GPU frame has no producer completion"⟩
        | some waited =>
            if waited.result ≠ .ok then .error waited
            else
              match frame.native with
              | .error status => .error status
              | .ok native =>
                  if decide (native.type ≠ expectedNativeType cudaPointer) ||
                      decide (native.handles 0 = 0) || decide (native.handles 1 = 0) ||
                      decide (native.handles 0 ≠ frame.object) then
                    .error ⟨.errorInvalidArgument, "GPU frame has an inconsistent CUDA native handle"⟩
                  else .ok ⟨cudaArray, native.handles 0, native.handles 1, u32 (desc.pitches 0), desc.pts⟩

/-! ## The encoder -/

structure NvencCpuAnswer where
  libyuv : Bool
  submit : NvencCpuSubmit
  packet : Option NvencPacket
  add : AddAnswer

structure NvencGpuAnswer where
  init : NvencInit
  submit : NvencGpuSubmit
  packet : Option NvencPacket
  add : AddAnswer

/-- Whether the end-of-stream picture is taken, and the initialization of the next session. -/
structure NvencFlushAnswer where
  eos : Bool
  init : NvencInit

structure NvencCloseAnswer where
  eos : Bool
  finalize : FinalizeAnswer

/-- `NvidiaWebmEncoder::Impl`. `i420` and `nv12` are the sizes of the staging buffers; `calls` are the calls into CUDA
and NVENC, for specifications only. -/
structure NvidiaWebmEncoder where
  sessionManager : NvencSessionManager
  muxer : WebmMuxer
  width : Nat
  height : Nat
  fpsNum : Nat
  fpsDen : Nat
  keyframeInterval : Nat
  frameIndex : Nat
  nextPts : Int
  closed : Bool
  i420 : Nat
  nv12 : Nat
  calls : List NvencCall

structure PictureTiming where
  ptsNs : Int
  durationNs : Int
  forceKeyframe : Bool

namespace NvidiaWebmEncoder

/-- `create`: whether the probe finds AV1 encoding, and the errors of `NvencApi::load` and `WebmMuxer::create`. -/
def create (config : Config) (av1Encode : Bool) (api : Option String) (init : NvencInit) (muxer : Option String) :
    Except String NvidiaWebmEncoder :=
  if decide (config.codec ≠ .av1) || !av1Encode then .error "NVIDIA AV1 encode is unavailable"
  else
    match api with
    | some error => .error error
    | none =>
        match NvencSessionManager.initializeCpu ⟨none, .empty, none⟩ init with
        | (status, sessionManager, calls) =>
            if status.result ≠ .ok then .error status.error
            else
              match muxer with
              | some error => .error error
              | none =>
                  .ok
                    { sessionManager := sessionManager, muxer := .created, width := config.width
                      height := config.height, fpsNum := config.fpsNum, fpsDen := config.fpsDen
                      keyframeInterval := nvencKeyframeInterval Words.wrapping config
                      frameIndex := 0, nextPts := 0, closed := false, i420 := config.width * config.height * 3 / 2
                      nv12 := config.width * config.height * 3 / 2, calls := calls }

def call (e : NvidiaWebmEncoder) (calls : List NvencCall) : NvidiaWebmEncoder := { e with calls := e.calls ++ calls }

/-- `select_picture_timing`. -/
def selectPictureTiming (e : NvidiaWebmEncoder) (requestedPts : Int) : PictureTiming :=
  ⟨if 0 ≤ requestedPts then requestedPts else e.nextPts, asInt64 (durationNanoseconds e.fpsNum e.fpsDen),
    decide (e.frameIndex % e.keyframeInterval = 0)⟩

/-- `commit_picture`. -/
def commitPicture (e : NvidiaWebmEncoder) (timing : PictureTiming) : NvidiaWebmEncoder :=
  { e with
    frameIndex := e.frameIndex + 1, nextPts := max e.nextPts (i64 (timing.ptsNs + timing.durationNs)) }

def picture (e : NvidiaWebmEncoder) (timing : PictureTiming) : NvencPicture :=
  ⟨u32 e.frameIndex, asUInt64 timing.ptsNs, asUInt64 timing.durationNs, timing.forceKeyframe⟩

/-- What follows a submission: the packet goes to the muxer, and then the picture counts. -/
def finish (e : NvidiaWebmEncoder) (timing : PictureTiming) (submitted : Status) (packet : Option NvencPacket)
    (add : AddAnswer) : Status × NvidiaWebmEncoder :=
  if submitted.result ≠ .ok then (submitted, e)
  else
    match muxNvencPacket e.sessionManager.session e.muxer (durationNanoseconds e.fpsNum e.fpsDen) packet add with
    | (status, muxer, calls) =>
        let e := { e.call calls with muxer := muxer }
        if status.result ≠ .ok then (status, e) else (status, e.commitPicture timing)

def closedError : Status := ⟨.errorInvalidState, "NVIDIA encoder is closed"⟩

/-- `write_nvenc_gpu_frame`. A null frame is `none`. -/
def writeGpu (e : NvidiaWebmEncoder) (frame : Option CudaFrame) (answer : NvencGpuAnswer) :
    Status × NvidiaWebmEncoder :=
  if e.closed then (closedError, e)
  else
    match prepareNvencCudaFrame frame e.width e.height with
    | .error status => (status, e)
    | .ok input =>
        match e.sessionManager.bindCudaContext (some input.contextHandle) (frame.map CudaFrame.frame) e.frameIndex
            answer.init with
        | (bound, sessionManager, calls) =>
            let e := { e.call calls with sessionManager := sessionManager }
            if bound.result ≠ .ok then (bound, e)
            else
              let timing := e.selectPictureTiming input.ptsNs
              match submitNvencCudaFrame e.sessionManager.session (e.picture timing) answer.submit with
              | (submitted, calls) => (e.call calls).finish timing submitted answer.packet answer.add

/-- `write_nvenc_cpu_frame`. -/
def write (e : NvidiaWebmEncoder) (frame : FrameView) (answer : NvencCpuAnswer) : Status × NvidiaWebmEncoder :=
  if e.closed then (closedError, e)
  else if frame.width ≠ e.width ∨ frame.height ≠ e.height then
    (⟨.errorInvalidArgument, "frame dimensions do not match NVIDIA encoder"⟩, e)
  else
    let conversion := convertCpuFrameToNv12 frame e.width e.height e.i420 e.nv12 "NVIDIA" answer.libyuv
    if conversion.result ≠ .ok then (conversion, e)
    else
      let timing := e.selectPictureTiming frame.pts
      match submitNvencCpuFrame e.sessionManager.session true (e.picture timing) answer.submit with
      | (submitted, calls) => (e.call calls).finish timing submitted answer.packet answer.add

/-- `drain_nvenc_session`. -/
def drainNvencSession (e : NvidiaWebmEncoder) (eos : Bool) : Status × NvidiaWebmEncoder :=
  (if eos then .ok else nvencError "NVENC session drain failed", e.call [.eos e.sessionManager.session])

def flush (e : NvidiaWebmEncoder) (answer : NvencFlushAnswer) : Status × NvidiaWebmEncoder :=
  if e.closed || decide (e.frameIndex = 0) then (.ok, e)
  else
    match e.drainNvencSession answer.eos with
    | (drained, e) =>
        if drained.result ≠ .ok then (drained, e)
        else
          match e.sessionManager.restartCpu answer.init with
          | (status, sessionManager, calls) =>
              (status, { e.call calls with sessionManager := sessionManager, frameIndex := 0 })

def close (e : NvidiaWebmEncoder) (answer : NvencCloseAnswer) : Status × NvidiaWebmEncoder :=
  if e.closed then (.ok, e)
  else
    match if e.sessionManager.session.encoder.isSome && decide (0 < e.frameIndex) then e.drainNvencSession answer.eos
        else (.ok, e) with
    | (drained, e) =>
        let (sessionManager, calls) := e.sessionManager.destroy
        let e := { e.call calls with sessionManager := sessionManager }
        if drained.result ≠ .ok then (drained, { e with closed := true })
        else
          match e.muxer.finalize answer.finalize with
          | (status, muxer) => (status, { e with muxer := muxer, closed := true })

end NvidiaWebmEncoder

/-- A call on the encoder with the answers that it gets. -/
inductive NvencOp
  | write (frame : FrameView) (answer : NvencCpuAnswer)
  | writeGpu (frame : Option CudaFrame) (answer : NvencGpuAnswer)
  | flush (answer : NvencFlushAnswer)
  | close (answer : NvencCloseAnswer)

def NvidiaWebmEncoder.run (e : NvidiaWebmEncoder) : NvencOp → Status × NvidiaWebmEncoder
  | .write frame answer => e.write frame answer
  | .writeGpu frame answer => e.writeGpu frame answer
  | .flush answer => e.flush answer
  | .close answer => e.close answer

end MkvCodec.Backend
