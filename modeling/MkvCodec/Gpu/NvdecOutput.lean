import MkvCodec.Gpu.FramePool
import MkvCodec.Gpu.NvdecRuntime

/-!
# Reading from NVDEC

`NvidiaWebmDecoder` with its `NvdecCallbackState` and its `NvdecPacketPump`. The thread that reads makes one step for each
call of the driver, each turn of the loop and each callback of the parser, and a delivered frame gives its slot back between
any two of them. What the driver and the reader of the container answer is part of the label. Formats, packets, pixels and
mappings are left out.
-/

namespace MkvCodec.Gpu

open Concurrency SlotPool

/-! ## Frames -/

/-- `CUVIDPARSERDISPINFO`, without what only the driver reads. -/
structure NvdecPicture where
  pictureIndex : Int
  timestamp : Int
  deriving DecidableEq

/-- A frame of the pool with the picture that it shows. -/
structure NvdecFrame where
  picture : NvdecPicture
  desc : GpuFrameDesc
  native : NativeHandleDesc
  slot : Nat
  generation : Nat

/-- `make_cuda_handle`. -/
def makeCudaHandle (deviceId generation : Nat) (type : NativeHandleType) (pointerOrArray context stream event : Nat) :
    Except Status NativeHandleDesc :=
  if (decide (type ≠ .cudaPointer) && decide (type ≠ .cudaArray)) || decide (pointerOrArray = 0) || decide (context = 0) then
    .error ⟨.errorInvalidArgument, "invalid CUDA native handle"⟩
  else
    .ok {
      structSize := 64
      structVersion := 1
      type := type
      borrowed := 1
      deviceId := deviceId
      generation := generation
      handles := ![pointerOrArray, context, stream, event] }

/-- The descriptor of a mapped picture. -/
def nvdecDesc (pitch width height : Nat) (pts : Int) : GpuFrameDesc where
  structSize := 136
  structVersion := 1
  backend := .nvidia
  memoryType := .cudaPointer
  deviceId := 0
  generation := 0
  pixelFormat := .nv12
  width := width
  height := height
  planeCount := 2
  planeOffsets := ![0, pitch * height, 0, 0]
  pitches := ![pitch, pitch, 0, 0]
  pts := pts
  colorPrimaries := 0
  colorTransfer := 0
  colorMatrix := 0
  colorRange := 0

/-- `acquire_nvdec_gpu_frame`; behind an error the picture is unmapped again. -/
def acquireNvdecGpuFrame (pool : GpuFramePool) (context devicePointer pitch width height : Nat) (picture : NvdecPicture) :
    Except Status (GpuFramePool × NvdecFrame) := do
  let native ← makeCudaHandle 0 0 .cudaPointer devicePointer context 0 0
  let (pool, slot, generation) ← pool.acquire true
  .ok (pool, {
    picture := picture
    desc := { nvdecDesc pitch width height picture.timestamp with generation := generation }
    native := { native with generation := generation }
    slot := slot
    generation := generation })

/-! ## Callbacks -/

inductive OutputMode
  | unset
  | cpu
  | gpu
  deriving DecidableEq

/-- `NvdecCallbackState` with an attached runtime. `decoder` says that the runtime has a decoder. -/
structure NvdecCallbackState where
  context : Nat
  decoder : Bool
  width : Nat
  height : Nat
  callbackError : String
  sequenceCallbacks : UInt32
  decodeCallbacks : UInt32
  displayCallbacks : UInt32
  completedCpu : List NvdecPicture
  completedGpu : List NvdecFrame
  gpuPool : GpuFramePool
  outputMode : OutputMode

namespace NvdecCallbackState

def new (context : Nat) : NvdecCallbackState where
  context := context
  decoder := false
  width := 0
  height := 0
  callbackError := ""
  sequenceCallbacks := 0
  decodeCallbacks := 0
  displayCallbacks := 0
  completedCpu := []
  completedGpu := []
  gpuPool := .new nvdecPoolCapacity
  outputMode := .unset

def selectCpu (s : NvdecCallbackState) : NvdecCallbackState × Status :=
  if s.outputMode = .gpu then
    (s, ⟨.errorInvalidState, "NVIDIA decoder output mode cannot switch from GPU to CPU"⟩)
  else ({ s with outputMode := .cpu }, .ok)

def selectGpu (s : NvdecCallbackState) : NvdecCallbackState × Status :=
  if s.outputMode = .cpu then
    (s, ⟨.errorInvalidState, "NVIDIA decoder output mode cannot switch from CPU to GPU"⟩)
  else
    ({ s with outputMode := .gpu },
      if s.gpuPool.slots.length ≤ s.gpuPool.inUse then ⟨.wouldBlock, "NVIDIA GPU frame pool is full"⟩ else .ok)

/-- What `read` and `read_gpu` begin with. -/
def select (s : NvdecCallbackState) (gpu : Bool) : NvdecCallbackState × Status :=
  if gpu then s.selectGpu else s.selectCpu

def outputReady (s : NvdecCallbackState) (gpuOutput : Bool) : Bool :=
  if gpuOutput then !s.completedGpu.isEmpty else !s.completedCpu.isEmpty

def noDisplayDiagnostic (s : NvdecCallbackState) (packetsSubmitted : UInt32) : String :=
  "NVDEC parser produced callbacks sequence=" ++ toString s.sequenceCallbacks ++ " decode=" ++ toString s.decodeCallbacks ++
    " display=0 packets=" ++ toString packetsSubmitted

/-- `sequence`, with what `configure_nvdec_sequence` comes to: the dimensions of its decoder or an error. -/
def sequence (s : NvdecCallbackState) (configured : Except String (Nat × Nat)) : NvdecCallbackState :=
  let s := { s with sequenceCallbacks := s.sequenceCallbacks + 1 }
  match configured with
  | .error message => { s with callbackError := message }
  | .ok (width, height) => { s with decoder := true, width := width, height := height }

def decode (s : NvdecCallbackState) (decoded : Bool) : NvdecCallbackState :=
  let s := { s with decodeCallbacks := s.decodeCallbacks + 1 }
  if !s.decoder || !decoded then { s with callbackError := "cuvidDecodePicture failed" } else s

/-- `display`. `mapped` are the device pointer and the pitch that `cuvidMapVideoFrame` answers, `readBack` says how the
copy to the CPU ends. -/
def display (s : NvdecCallbackState) (picture : NvdecPicture) (mapped : Option (Nat × Nat)) (readBack : Bool) :
    NvdecCallbackState :=
  let s := { s with displayCallbacks := s.displayCallbacks + 1 }
  if !s.decoder then { s with callbackError := "invalid NVDEC display callback" }
  else
    match mapped with
    | none => { s with callbackError := "cuvidMapVideoFrame failed" }
    | some (devicePointer, pitch) =>
        if s.outputMode = .gpu then
          match acquireNvdecGpuFrame s.gpuPool s.context devicePointer pitch s.width s.height picture with
          | .error status => { s with callbackError := status.error }
          | .ok (pool, frame) => { s with gpuPool := pool, completedGpu := s.completedGpu ++ [frame] }
        else if !readBack then { s with callbackError := "NVDEC frame readback failed" }
        else { s with completedCpu := s.completedCpu ++ [picture] }

/-- The slots of queued frames come back through their destructors. -/
def clearOutputs (s : NvdecCallbackState) : NvdecCallbackState :=
  { s with
    completedCpu := []
    completedGpu := []
    gpuPool := s.completedGpu.foldl (fun pool frame => pool.recycle frame.slot frame.generation) s.gpuPool }

end NvdecCallbackState

/-! ## Reads -/

/-- Where the thread of the decoder is: outside, before the push of the CUDA context, at the head of the loop, inside
`cuvidParseVideoData`, or behind the loop with the result of the pump. -/
inductive NvdecReadPc
  | idle
  | activate (gpu : Bool)
  | pump (gpu : Bool)
  | parse (gpu : Bool)
  | release (gpu : Bool) (status : Status)

/-- `NvidiaWebmDecoder`. `answer` is what the latest call came to, `outside` are the delivered GPU frames whose slot has not
come back, `displayed` and `delivered` the pictures of all display callbacks and of all frames returned; the code has none
of these. -/
structure NvdecReader where
  callbacks : NvdecCallbackState
  packetsSubmitted : UInt32
  demuxEos : Bool
  parserDrained : Bool
  closed : Bool
  pc : NvdecReadPc
  answer : Option Status
  outside : List NvdecFrame
  displayed : List NvdecPicture
  delivered : List NvdecPicture

inductive NvdecReadLabel
  | call (gpu : Bool)
  | activate (pushed : Bool)
  | pump (read : Status)
  | sequence (configured : Except String (Nat × Nat))
  | decode (decoded : Bool)
  | display (picture : NvdecPicture) (mapped : Option (Nat × Nat)) (readBack : Bool)
  | parsed (success : Bool)
  | releaseContext (popped : Bool)
  | releaseFrame (k : Nat)
  | close

namespace NvdecReader

def init (context : Nat) : NvdecReader := ⟨.new context, 0, false, false, false, .idle, none, [], [], []⟩

def returns (s : NvdecReader) (status : Status) : NvdecReader := { s with pc := .idle, answer := some status }

/-- One turn of the loop up to the call of the parser; `read` is what the reader of the container answers, if it is asked. -/
def pump (s : NvdecReader) (gpu : Bool) (read : Status) : NvdecReader :=
  if s.callbacks.outputReady gpu then { s with pc := .release gpu .ok }
  else if !s.demuxEos && decide (read.result ≠ .ok ∧ read.result ≠ .endOfStream) then { s with pc := .release gpu read }
  else
    let demuxEos := s.demuxEos || decide (read.result = .endOfStream)
    let s := { s with
      demuxEos := demuxEos
      packetsSubmitted := if demuxEos then s.packetsSubmitted else s.packetsSubmitted + 1 }
    if demuxEos && s.parserDrained then
      if s.callbacks.displayCallbacks = 0 then
        { s with pc := .release gpu ⟨.errorCodec, s.callbacks.noDisplayDiagnostic s.packetsSubmitted⟩ }
      else { s with pc := .release gpu ⟨.endOfStream, ""⟩ }
    else
      { s with
        parserDrained := s.parserDrained || demuxEos
        callbacks := { s.callbacks with callbackError := "" }
        pc := .parse gpu }

/-- `read` and `read_gpu` behind the pump. -/
def pop (s : NvdecReader) (gpu : Bool) : NvdecReader :=
  if gpu then
    match s.callbacks.completedGpu with
    | [] => s.returns ⟨.errorInternal, ""⟩
    | frame :: completedGpu =>
        { s.returns .ok with
          callbacks := { s.callbacks with completedGpu := completedGpu }
          outside := s.outside ++ [frame]
          delivered := s.delivered ++ [frame.picture] }
  else
    match s.callbacks.completedCpu with
    | [] => s.returns .ok
    | picture :: completedCpu =>
        { s.returns .ok with
          callbacks := { s.callbacks with completedCpu := completedCpu }
          delivered := s.delivered ++ [picture] }

/-- One step. One thread reads and closes; the parser calls back while it parses. -/
def step (s : NvdecReader) : NvdecReadLabel → Option NvdecReader
  | .call gpu =>
      match s.pc with
      | .idle =>
          if s.closed then some (s.returns ⟨.errorInvalidState, "NVIDIA decoder is closed"⟩)
          else
            let status := (s.callbacks.select gpu).2
            let s := { s with callbacks := (s.callbacks.select gpu).1 }
            if status.result ≠ .ok then some (s.returns status) else some { s with pc := .activate gpu, answer := none }
      | _ => none
  | .activate pushed =>
      match s.pc with
      | .activate gpu =>
          if !pushed then some (s.returns ⟨.errorCodec, "failed to activate CUDA context"⟩)
          else some { s with pc := .pump gpu }
      | _ => none
  | .pump read =>
      match s.pc with
      | .pump gpu => some (s.pump gpu read)
      | _ => none
  | .sequence configured =>
      match s.pc with
      | .parse _ => some { s with callbacks := s.callbacks.sequence configured }
      | _ => none
  | .decode decoded =>
      match s.pc with
      | .parse _ => some { s with callbacks := s.callbacks.decode decoded }
      | _ => none
  | .display picture mapped readBack =>
      match s.pc with
      | .parse _ =>
          some { s with
            callbacks := s.callbacks.display picture mapped readBack
            displayed := s.displayed ++ [picture] }
      | _ => none
  | .parsed success =>
      match s.pc with
      | .parse gpu =>
          if success then some { s with pc := .pump gpu }
          else
            let error := s.callbacks.callbackError
            some { s with pc := .release gpu ⟨.errorCodec, if error.isEmpty then "cuvidParseVideoData failed" else error⟩ }
      | _ => none
  | .releaseContext popped =>
      match s.pc with
      | .release gpu status =>
          if status.result ≠ .ok then some (s.returns status)
          else if !popped then some (s.returns ⟨.errorCodec, "failed to release CUDA context"⟩)
          else some (s.pop gpu)
      | _ => none
  | .releaseFrame k =>
      s.outside[k]?.map fun frame =>
        { s with
          callbacks := { s.callbacks with gpuPool := s.callbacks.gpuPool.recycle frame.slot frame.generation }
          outside := s.outside.eraseIdx k }
  | .close =>
      match s.pc with
      | .idle => if s.closed then none else some { s with callbacks := s.callbacks.clearOutputs, closed := true }
      | _ => none

def Step (s : NvdecReader) (l : NvdecReadLabel) (t : NvdecReader) : Prop := s.step l = some t

/-- What the driver promises when its calls succeed: a picture is displayed behind a sequence that was configured, and is
mapped to memory and copied. -/
def Displays (s : NvdecReader) : NvdecReadLabel → Prop
  | .display _ mapped readBack =>
      s.callbacks.decoder = true ∧ readBack = true ∧ (mapped.any fun mapping => decide (mapping.1 ≠ 0)) = true
  | _ => True

/-- A slot of the pool is free. -/
def HasRoom (s : NvdecReader) : Prop := s.callbacks.gpuPool.inUse < s.callbacks.gpuPool.slots.length

/-- A picture is displayed, and a frame that is queued is asked for, only while a slot of the pool is free. -/
def Roomy (s : NvdecReader) : NvdecReadLabel → Prop
  | .display _ _ _ => s.callbacks.outputMode = .gpu → s.HasRoom
  | .call gpu => gpu = true → s.callbacks.completedGpu.isEmpty = false → s.HasRoom
  | _ => True

instance (s : NvdecReader) : Decidable s.HasRoom := inferInstanceAs (Decidable (_ < _))

instance (s : NvdecReader) (l : NvdecReadLabel) : Decidable (s.Displays l) :=
  match l with
  | .display _ _ _ => inferInstanceAs (Decidable (_ ∧ _ ∧ _))
  | .call _ | .activate _ | .pump _ | .sequence _ | .decode _ | .parsed _ | .releaseContext _ | .releaseFrame _ | .close =>
      .isTrue trivial

instance (s : NvdecReader) (l : NvdecReadLabel) : Decidable (s.Roomy l) :=
  match l with
  | .display _ _ _ => inferInstanceAs (Decidable (_ → _))
  | .call _ => inferInstanceAs (Decidable (_ → _ → _))
  | .activate _ | .pump _ | .sequence _ | .decode _ | .parsed _ | .releaseContext _ | .releaseFrame _ | .close => .isTrue trivial

end NvdecReader

end MkvCodec.Gpu
