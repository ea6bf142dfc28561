import MkvCodec.Gpu.Frame

/-!
# Import of an external GPU frame

`mkvc_gpu_frame_import_external` of `gpu_external_import.cpp` up to the construction of the frame: the checks of
the configuration, and the completion of the producer.
-/

namespace MkvCodec.Gpu

/-- `sizeof` of the three descriptors of the C ABI. -/
def frameDescSize : Nat := 136

def nativeHandleDescSize : Nat := 64

def externalFrameConfigSize : Nat := 232

/-- `mkvc_gpu_external_frame_config`. `query` names the completion behind the query callback, `release` says
whether there is a release callback. -/
structure ExternalFrameConfig (C : Type*) where
  structSize : Nat
  structVersion : Nat
  frame : GpuFrameDesc
  nativeHandle : NativeHandleDesc
  query : Option C
  release : Bool

variable {C : Type*}

/-- Linear NV12: equal pitches, the second plane right behind the first. The product is taken in `uint64_t`. -/
def GpuFrameDesc.linearNv12 (desc : GpuFrameDesc) : Bool :=
  !(decide (desc.pitches 0 < desc.width) || decide (desc.pitches 0 ≠ desc.pitches 1) ||
    decide (desc.pitches 0 > 2 ^ 32 - 1) || decide (desc.planeOffsets 0 ≠ 0) ||
    decide (desc.planeOffsets 1 ≠ desc.pitches 0 * desc.height % 2 ^ 64))

def validNvidiaLayout (desc : GpuFrameDesc) (native : NativeHandleDesc) : Except String Unit :=
  let pointer := decide (desc.memoryType = .cudaPointer) && decide (native.type = .cudaPointer)
  let array := decide (desc.memoryType = .cudaArray) && decide (native.type = .cudaArray)
  if (!pointer && !array) || decide (native.handles 0 = 0) || decide (native.handles 1 = 0) ||
      decide (desc.pixelFormat ≠ .nv12) || decide (desc.planeCount ≠ 2) || !desc.linearNv12 then
    .error "external NVIDIA import requires CUDA NV12 pointer/array layout"
  else if array && decide (desc.pitches 0 ≠ desc.width) then
    .error "external CUDA-array NV12 pitch must equal its byte width"
  else .ok ()

def validIntelLayout (config : ExternalFrameConfig C) (allowUsmLevelZeroEvent : Bool) : Except String Unit :=
  let desc := config.frame
  let native := config.nativeHandle
  let d3d11 := decide (desc.memoryType = .d3d11Texture) && decide (native.type = .d3d11Texture)
  let va := decide (desc.memoryType = .vaSurface) && decide (native.type = .vaSurface)
  let usm := decide (desc.memoryType = .usm) && decide (native.type = .usmPointer)
  if (!d3d11 && !va && !usm) || decide (native.handles 0 = 0) || decide (desc.pixelFormat ≠ .nv12) ||
      decide (desc.planeCount ≠ 2) then
    .error "external Intel import requires a D3D11, VA, or device-USM resource"
  else if usm && (decide (native.handles 1 = 0) || decide (native.handles 2 = 0) || !desc.linearNv12 ||
      config.query.isSome || (decide (native.handles 3 ≠ 0) && !allowUsmLevelZeroEvent)) then
    .error "external Intel USM import requires linear NV12, context, queue, and valid completion identity"
  else .ok ()

/-- `valid_layout`. -/
def validLayout (config : ExternalFrameConfig C) (allowUsmLevelZeroEvent : Bool) : Except String Unit :=
  let desc := config.frame
  let native := config.nativeHandle
  if decide (desc.structSize < frameDescSize) || decide (desc.structVersion ≠ 1) ||
      decide (native.structSize < nativeHandleDescSize) || decide (native.structVersion ≠ 1) then
    .error "invalid external GPU descriptor version"
  else if !config.release then .error "external GPU import requires a release callback"
  else if decide (desc.width = 0) || decide (desc.height = 0) || decide (desc.width % 2 ≠ 0) ||
      decide (desc.height % 2 ≠ 0) || decide (desc.planeCount = 0) || decide (desc.planeCount > 4) ||
      decide (desc.generation ≠ native.generation) || decide (desc.deviceId ≠ native.deviceId) ||
      decide (native.borrowed = 0) then
    .error "external GPU descriptor identity or dimensions are invalid"
  else
    match desc.backend with
    | .nvidia => validNvidiaLayout desc native
    | .intel => validIntelLayout config allowUsmLevelZeroEvent
    | _ => .error "external GPU import backend is unsupported"

/-- The producer of an imported frame: completed without a query callback, else up to the callback. -/
def ExternalFrameConfig.producer (config : ExternalFrameConfig C) : Completion C :=
  match config.query with
  | none => .completed
  | some c => .driver c

/-- The checks of `mkvc_gpu_frame_import_external`. `config` is `none` for a null pointer, and `out` says
whether there is an output pointer. -/
def importExternal (config : Option (ExternalFrameConfig C)) (out : Bool) : Except Status (GpuFrameCore C) :=
  match config with
  | none => .error ⟨.errorInvalidArgument, "invalid external GPU frame configuration"⟩
  | some config =>
      if !out || decide (config.structSize < externalFrameConfigSize) || decide (config.structVersion ≠ 1) then
        .error ⟨.errorInvalidArgument, "invalid external GPU frame configuration"⟩
      else
        match validLayout config false with
        | .error message => .error ⟨.errorInvalidArgument, message⟩
        | .ok () => .ok (.new config.frame (some config.producer) (some config.nativeHandle))

/-- An imported frame starts without leases, with its producer alone. -/
theorem importExternal_ok {config : Option (ExternalFrameConfig C)} {out : Bool} {core : GpuFrameCore C}
    (h : importExternal config out = .ok core) :
    core.recycled = false ∧ core.externalLeases = 0 ∧ core.producer ≠ none ∧ core.consumers = [] := by
  unfold importExternal at h
  split at h
  · cases h
  · split at h
    · cases h
    · split at h
      · cases h
      · cases h
        exact ⟨rfl, rfl, by simp [GpuFrameCore.new], rfl⟩

theorem importExternal_error {config : Option (ExternalFrameConfig C)} {out : Bool} {status : Status}
    (h : importExternal config out = .error status) : status.result = .errorInvalidArgument := by
  unfold importExternal at h
  split at h
  · cases h; rfl
  · split at h
    · cases h; rfl
    · split at h
      · cases h; rfl
      · cases h

end MkvCodec.Gpu
