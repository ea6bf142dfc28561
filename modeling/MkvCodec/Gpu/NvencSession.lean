import MkvCodec.Concurrency.Transition
import MkvCodec.Data.Resources
import MkvCodec.Frame.View

/-!
# The NVENC session

`NvencSessionManager` and the two functions that create and destroy the native resources of its session. The driver hands
out a new number with everything that it creates, and what it answers is an argument. The contexts of callers are not
among those numbers.
-/

namespace MkvCodec.Gpu

open Concurrency Resources

/-- A CUDA context: one that a session has created, or one of a caller. -/
inductive CudaContext (γ : Type*)
  | own (n : Nat)
  | external (context : γ)
  deriving DecidableEq

inductive NvencResource (γ : Type*)
  | context (context : CudaContext γ)
  | encoder (n : Nat)
  | input (n : Nat)
  | output (n : Nat)
  deriving DecidableEq

/-- `NvencSession`; a null handle is `none`. -/
structure NvencSession (γ : Type*) where
  context : Option (CudaContext γ)
  ownsContext : Bool
  encoder : Option Nat
  input : Option Nat
  output : Option Nat

/-- A session with what the driver has done for it. -/
structure Nvenc (γ : Type*) where
  session : NvencSession γ
  next : Nat
  events : List (Event (NvencResource γ))

/-- How `nvEncOpenEncodeSessionEx` ends. A session that could not be opened may have left a handle to be destroyed. -/
inductive OpenAnswer
  | opened
  | failed
  | failedWithHandle

/-- Which calls of the driver succeed. -/
structure InitializeAnswer where
  cuInit : Bool
  deviceGet : Bool
  contextCreate : Bool
  openSession : OpenAnswer
  presetConfig : Bool
  initializeEncoder : Bool
  createInput : Bool
  createBitstream : Bool

namespace Nvenc

variable {γ : Type*}

def empty : NvencSession γ := ⟨none, false, none, none, none⟩

def log (a : Nvenc γ) (event : Event (NvencResource γ)) : Nvenc γ := { a with events := event :: a.events }

/-- The driver creates something. -/
def create (a : Nvenc γ) (resource : Nat → NvencResource γ) : Nvenc γ :=
  { a.log (.create (resource a.next)) with next := a.next + 1 }

def codecError (text : String) : Status := ⟨.errorCodec, text⟩

/-- `initialize_nvenc_session`, the buffers. -/
def createBuffers (a : Nvenc γ) (answer : InitializeAnswer) : Nvenc γ × Status :=
  if !answer.createInput then (a, codecError "nvEncCreateInputBuffer failed")
  else
    let a := { a.create .input with session := { a.session with input := some a.next } }
    if !answer.createBitstream then (a, codecError "nvEncCreateBitstreamBuffer failed")
    else ({ a.create .output with session := { a.session with output := some a.next } }, .ok)

/-- `initialize_nvenc_session`, behind the context. -/
def openEncoder (a : Nvenc γ) (answer : InitializeAnswer) : Nvenc γ × Status :=
  let handle := { a.create .encoder with session := { a.session with encoder := some a.next } }
  match answer.openSession with
  | .failed => (a, codecError "nvEncOpenEncodeSessionEx failed")
  | .failedWithHandle => (handle, codecError "nvEncOpenEncodeSessionEx failed")
  | .opened =>
      if !answer.presetConfig then (handle, codecError "NVENC AV1 P4 preset query failed")
      else if !answer.initializeEncoder then (handle, codecError "nvEncInitializeEncoder AV1 failed")
      else handle.createBuffers answer

def initializeSession (a : Nvenc γ) (external : Option γ) (answer : InitializeAnswer) : Nvenc γ × Status :=
  if a.session.context.isSome || a.session.encoder.isSome || a.session.input.isSome || a.session.output.isSome then
    (a, ⟨.errorInvalidState, "NVENC session resources are already initialized"⟩)
  else
    match external with
    | some context =>
        { a with session := { a.session with context := some (.external context), ownsContext := false } }.openEncoder
          answer
    | none =>
        if !(answer.cuInit && answer.deviceGet && answer.contextCreate) then
          (a, codecError "failed to create NVIDIA encode CUDA context")
        else
          { a.create fun n => .context (.own n) with
            session := { a.session with context := some (.own a.next), ownsContext := true } }.openEncoder answer

/-- The three calls that need the encoder. -/
def destroyEncoder (a : Nvenc γ) : Nvenc γ :=
  match a.session.encoder with
  | none => a
  | some encoder =>
      let a := match a.session.input with
        | some input => a.log (.destroy (.input input))
        | none => a
      let a := match a.session.output with
        | some output => a.log (.destroy (.output output))
        | none => a
      a.log (.destroy (.encoder encoder))

/-- `destroy_nvenc_session`, which ignores what the driver answers. -/
def destroySession (a : Nvenc γ) : Nvenc γ :=
  let a := a.destroyEncoder
  let a := match a.session.context with
    | some context => if a.session.ownsContext then a.log (.destroy (.context context)) else a
    | none => a
  { a with session := empty }

end Nvenc

/-! ## The manager -/

/-- `NvencSessionManager`. `φ` are the frames that own a context. -/
structure NvencManager (γ φ : Type*) where
  nvenc : Nvenc γ
  externalContext : Option γ
  contextOwner : Option φ

namespace NvencManager

variable {γ φ : Type*}

def new : NvencManager γ φ := ⟨⟨Nvenc.empty, 0, []⟩, none, none⟩

/-- `NvencSessionManager::initialize`. -/
def start (m : NvencManager γ φ) (external : Option γ) (answer : InitializeAnswer) : NvencManager γ φ × Status :=
  let (a, status) := m.nvenc.initializeSession external answer
  if status.result ≠ .ok then ({ m with nvenc := a.destroySession }, status) else ({ m with nvenc := a }, status)

def initializeCpu (m : NvencManager γ φ) (answer : InitializeAnswer) : NvencManager γ φ × Status :=
  if m.nvenc.session.context.isSome || m.nvenc.session.encoder.isSome then
    (m, ⟨.errorInvalidState, "NVENC session manager is already initialized"⟩)
  else m.start none answer

/-- `bind_cuda_context`; a null argument is `none`. -/
def bindCudaContext [DecidableEq γ] (m : NvencManager γ φ) (context : Option γ) (contextOwner : Option φ)
    (submittedFrames : Nat) (answer : InitializeAnswer) : NvencManager γ φ × Status :=
  match context, contextOwner with
  | some context, some contextOwner =>
      match m.externalContext with
      | some external =>
          if external = context then (m, .ok)
          else (m, ⟨.errorNotSupported, "all GPU frames must belong to the NVENC session CUDA context"⟩)
      | none =>
          if submittedFrames ≠ 0 then
            (m, ⟨.errorInvalidState, "cannot switch a running CPU-input NVENC session to GPU input"⟩)
          else
            let (m, status) :=
              (⟨m.nvenc.destroySession, some context, some contextOwner⟩ : NvencManager γ φ).start (some context) answer
            if status.result ≠ .ok then ({ m with contextOwner := none, externalContext := none }, status)
            else (m, status)
  | _, _ => (m, ⟨.errorInvalidArgument, "NVENC external CUDA context or owner is null"⟩)

def destroy (m : NvencManager γ φ) : NvencManager γ φ := ⟨m.nvenc.destroySession, none, none⟩

def restartCpu (m : NvencManager γ φ) (answer : InitializeAnswer) : NvencManager γ φ × Status :=
  m.destroy.start none answer

end NvencManager

/-- A call of the manager. -/
inductive NvencCall (γ φ : Type*)
  | initializeCpu (answer : InitializeAnswer)
  | bind (context : Option γ) (contextOwner : Option φ) (submittedFrames : Nat) (answer : InitializeAnswer)
  | restartCpu (answer : InitializeAnswer)
  | destroy

namespace NvencManager

variable {γ φ : Type*} [DecidableEq γ]

def call (m : NvencManager γ φ) : NvencCall γ φ → NvencManager γ φ × Status
  | .initializeCpu answer => m.initializeCpu answer
  | .bind context contextOwner submittedFrames answer => m.bindCudaContext context contextOwner submittedFrames answer
  | .restartCpu answer => m.restartCpu answer
  | .destroy => (m.destroy, .ok)

def Step (m : NvencManager γ φ) (c : NvencCall γ φ) (m' : NvencManager γ φ) : Prop := (m.call c).1 = m'

end NvencManager

end MkvCodec.Gpu
