import MkvCodec.Frame.View

/-!
# GPU frames

`GpuFrameCore` of `gpu_frame.cpp`, the state behind all leases of one GPU frame. The functions here are its
critical sections. What its completions answer within one section they answer at one instant.
-/

namespace MkvCodec.Gpu

/-! ## Completions -/

/-- What a completion would answer now; for one that has failed, with what its `wait` returns. -/
inductive CompletionState
  | pending
  | complete
  | failed (status : Status) (h : status.result ≠ .ok)

def CompletionState.isPending : CompletionState → Bool
  | .pending => true
  | _ => false

/-- A completion: a `ManualCompletion` that was completed before anybody else could see it, or one whose state
is up to its driver, or to the callback behind it. -/
inductive Completion (C : Type*)
  | completed
  | driver (c : C)

def Completion.query {C : Type*} (states : C → CompletionState) : Completion C → CompletionState
  | .completed => .complete
  | .driver c => states c

/-! ## Descriptors -/

/-- `mkvc_backend`. -/
inductive Backend
  | cpu
  | nvidia
  | intel
  | unknown (code : Nat)
  deriving DecidableEq

/-- `mkvc_gpu_memory_type`. -/
inductive GpuMemoryType
  | d3d11Texture
  | vaSurface
  | cudaPointer
  | cudaArray
  | usm
  | unknown (code : Nat)
  deriving DecidableEq

/-- `mkvc_gpu_native_handle_type`. -/
inductive NativeHandleType
  | d3d11Texture
  | vaSurface
  | cudaPointer
  | cudaArray
  | usmPointer
  | unknown (code : Nat)
  deriving DecidableEq

/-- `mkvc_gpu_frame_desc`. -/
structure GpuFrameDesc where
  structSize : Nat
  structVersion : Nat
  backend : Backend
  memoryType : GpuMemoryType
  deviceId : Nat
  generation : Nat
  pixelFormat : PixelFormat
  width : Nat
  height : Nat
  planeCount : Nat
  planeOffsets : Fin 4 → Nat
  pitches : Fin 4 → Nat
  pts : Int
  colorPrimaries : Nat
  colorTransfer : Nat
  colorMatrix : Nat
  colorRange : Nat

/-- `mkvc_gpu_native_handle_desc`. -/
structure NativeHandleDesc where
  structSize : Nat
  structVersion : Nat
  type : NativeHandleType
  borrowed : Nat
  deviceId : Nat
  generation : Nat
  handles : Fin 4 → Nat

/-! ## The core -/

/-- `GpuFrameCore`, without the recycle callback. -/
structure GpuFrameCore (C : Type*) where
  desc : GpuFrameDesc
  producer : Option (Completion C)
  native : Option NativeHandleDesc
  externalLeases : Nat
  consumers : List (Completion C)
  recycled : Bool

namespace GpuFrameCore

variable {C : Type*}

def new (desc : GpuFrameDesc) (producer : Option (Completion C)) (native : Option NativeHandleDesc) :
    GpuFrameCore C :=
  ⟨desc, producer, native, 0, [], false⟩

/-- The completions that the destructor waits for, in its order. -/
def completions (a : GpuFrameCore C) : List (Completion C) := a.producer.toList ++ a.consumers

/-- `completions_done_locked`. -/
def completionsDone (states : C → CompletionState) (a : GpuFrameCore C) : Bool :=
  match a.producer with
  | none => false
  | some producer =>
      !(producer.query states).isPending && a.consumers.all fun completion => !(completion.query states).isPending

/-- `maybe_recycle_locked`, up to the call of the recycle callback: the generation that is handed to it. -/
def maybeRecycle (states : C → CompletionState) (a : GpuFrameCore C) : GpuFrameCore C × Option Nat :=
  if a.recycled || decide (a.externalLeases ≠ 0) || !a.completionsDone states then (a, none)
  else ({ a with recycled := true }, some a.desc.generation)

def recycledError : String := "GPU frame slot is already recycled"

/-- `acquire_external`; the error is the text of the exception. -/
def acquireExternal (a : GpuFrameCore C) : Except String (GpuFrameCore C) :=
  if a.recycled then .error recycledError else .ok { a with externalLeases := u32 (a.externalLeases + 1) }

def releaseExternal (states : C → CompletionState) (a : GpuFrameCore C) : GpuFrameCore C × Option Nat :=
  maybeRecycle states
    { a with externalLeases := if a.externalLeases ≠ 0 then a.externalLeases - 1 else a.externalLeases }

def addConsumer (completion : Option (Completion C)) (a : GpuFrameCore C) : Status × GpuFrameCore C :=
  match completion with
  | none => (⟨.errorInvalidArgument, "consumer completion is null"⟩, a)
  | some completion =>
      if a.recycled then (⟨.errorInvalidState, recycledError⟩, a)
      else (.ok, { a with consumers := a.consumers ++ [completion] })

def getNativeHandle (a : GpuFrameCore C) : Except Status NativeHandleDesc :=
  if a.recycled then .error ⟨.errorInvalidState, recycledError⟩
  else
    match a.native with
    | none => .error ⟨.errorNotSupported, "GPU frame has no exportable native handle"⟩
    | some native => .ok native

/-- The second part of the destructor, after it has waited for the completions. -/
def destroy (states : C → CompletionState) (a : GpuFrameCore C) : GpuFrameCore C × Option Nat :=
  maybeRecycle states { a with externalLeases := 0 }

/-! ## When a frame is recycled -/

/-- There is a producer, and no completion of the frame is pending. -/
def Terminal (states : C → CompletionState) (a : GpuFrameCore C) : Prop :=
  a.producer ≠ none ∧ ∀ completion ∈ a.completions, (completion.query states).isPending = false

theorem completionsDone_iff {states : C → CompletionState} {a : GpuFrameCore C} :
    a.completionsDone states = true ↔ a.Terminal states := by
  unfold completionsDone Terminal completions
  cases a.producer with
  | none => simp
  | some producer => simp

/-- What a section can make of `maybe_recycle_locked`. -/
theorem maybeRecycle_cases (states : C → CompletionState) (a : GpuFrameCore C) :
    a.maybeRecycle states = (a, none) ∧ (a.recycled = true ∨ a.externalLeases ≠ 0 ∨ ¬ a.Terminal states) ∨
      a.maybeRecycle states = ({ a with recycled := true }, some a.desc.generation) ∧ a.recycled = false ∧
        a.externalLeases = 0 ∧ a.Terminal states := by
  unfold maybeRecycle
  split
  case isTrue h =>
      simp only [Bool.or_eq_true, decide_eq_true_eq, Bool.not_eq_true', or_assoc] at h
      refine .inl ⟨rfl, h.imp_right (Or.imp_right fun hdone hterminal => ?_)⟩
      rw [completionsDone_iff.mpr hterminal] at hdone
      cases hdone
  case isFalse h =>
      simp only [Bool.or_eq_true, decide_eq_true_eq, Bool.not_eq_true', not_or, Bool.not_eq_true, ne_eq,
        not_not, Bool.not_eq_false] at h
      exact .inr ⟨rfl, h.1.1, h.1.2, completionsDone_iff.mp h.2⟩

end GpuFrameCore

end MkvCodec.Gpu
