import MkvCodec.Concurrency.History
import MkvCodec.Concurrency.Transition
import MkvCodec.Frame.View

/-!
# The NVDEC runtime

`NvdecRuntimeOwner` with the thread of its decoder and the threads that release mapped frames. A section under the
owner's lock is one step. Every call of the driver that creates or destroys something is written down; what the driver
answers is part of the label.
-/

namespace MkvCodec.Gpu

open Concurrency

/-! ## The driver -/

/-- A call of the driver, or the first call of `close` on the owner. Mappings are numbered. -/
inductive NvdecEvent
  | decoderCreate
  | map (n : Nat)
  | unmap (n : Nat)
  | closeRequested
  | parserDestroy
  | decoderDestroy
  | contextDestroy
  deriving DecidableEq

/-- What the driver answers to a call between the push and the pop of a `CudaContextGuard`. `pop` says that it popped the
context that was pushed. -/
structure GuardedAnswer where
  push : Bool
  call : Bool
  pop : Bool

/-- The same for the destruction of the decoder; the context is destroyed behind the pop. -/
structure DestroyAnswer extends GuardedAnswer where
  context : Bool

def GuardedAnswer.succeeds (a : GuardedAnswer) : Bool := a.push && a.call && a.pop

def DestroyAnswer.succeeds (a : DestroyAnswer) : Bool := a.toGuardedAnswer.succeeds && a.context

/-! ## The owner -/

/-- `NvdecRuntimeOwner`. A flag of a handle says that it is not null. -/
structure NvdecRuntimeOwner where
  context : Bool
  parser : Bool
  decoder : Bool
  outstandingMappings : Nat
  closed : Bool
  events : List NvdecEvent

namespace NvdecRuntimeOwner

def log (o : NvdecRuntimeOwner) (event : NvdecEvent) : NvdecRuntimeOwner := { o with events := event :: o.events }

@[simp] theorem mem_log {o : NvdecRuntimeOwner} {event event' : NvdecEvent} :
    event ∈ (o.log event').events ↔ event = event' ∨ event ∈ o.events := List.mem_cons

/-- `destroy_nvdec_parser`; the error is that of a call that returns false. -/
def destroyParser (o : NvdecRuntimeOwner) (a : GuardedAnswer) : NvdecRuntimeOwner × Option String :=
  if !o.parser then (o, none)
  else if !(o.context && a.push) then (o, some "failed to activate CUDA context during parser destruction")
  else
    let o := { o.log .parserDestroy with parser := false }
    if !a.call then (o, some "cuvidDestroyVideoParser failed")
    else if !a.pop then (o, some "failed to release CUDA context after parser destruction")
    else (o, none)

/-- `release_nvdec_mapping`. -/
def unmapFrame (o : NvdecRuntimeOwner) (n : Nat) (a : GuardedAnswer) : NvdecRuntimeOwner × Option String :=
  if !(o.context && a.push) then (o, some "failed to activate CUDA context during mapped-frame release")
  else
    let o := o.log (.unmap n)
    if !a.call then (o, some "cuvidUnmapVideoFrame failed")
    else if !a.pop then (o, some "failed to release CUDA context after mapped-frame release")
    else (o, none)

/-- `destroy_nvdec_decoder_context`. -/
def destroyDecoderContext (o : NvdecRuntimeOwner) (a : DestroyAnswer) : NvdecRuntimeOwner × Option String :=
  if !o.context then (o, none)
  else if !a.push then (o, some "failed to activate CUDA context during decoder destruction")
  else
    let failed := o.decoder && !a.call
    let o := { (if o.decoder then o.log .decoderDestroy else o) with decoder := false }
    if !a.pop then (o, some "failed to release CUDA context during decoder destruction")
    else
      let o := { o.log .contextDestroy with context := false }
      if failed then (o, some "cuvidDestroyDecoder failed")
      else if !a.context then (o, some "cuCtxDestroy failed")
      else (o, none)

def destroyDecoderIfReady (o : NvdecRuntimeOwner) (a : DestroyAnswer) : NvdecRuntimeOwner × Option String :=
  if !o.closed || decide (o.outstandingMappings ≠ 0) || !o.context then (o, none) else o.destroyDecoderContext a

def acquireMapping (o : NvdecRuntimeOwner) : NvdecRuntimeOwner :=
  { o with outstandingMappings := u32 (o.outstandingMappings + 1) }

/-- `release_mapping`, which ignores the errors. -/
def releaseMapping (o : NvdecRuntimeOwner) (n : Nat) (unmap : GuardedAnswer) (destroy : DestroyAnswer) :
    NvdecRuntimeOwner :=
  let o := (o.unmapFrame n unmap).1
  let o := { o with
    outstandingMappings := if o.outstandingMappings ≠ 0 then o.outstandingMappings - 1 else o.outstandingMappings }
  (o.destroyDecoderIfReady destroy).1

/-- `close`; a later error replaces an earlier one. -/
def close (o : NvdecRuntimeOwner) (parser : GuardedAnswer) (destroy : DestroyAnswer) :
    NvdecRuntimeOwner × Option String :=
  if o.closed then (o, none)
  else
    let (o, error) := (o.log .closeRequested).destroyParser parser
    let (o, error') := { o with closed := true }.destroyDecoderIfReady destroy
    (o, error' <|> error)

end NvdecRuntimeOwner

/-! ## The decoder and its frames -/

/-- Slots of the GPU frame pool of `NvdecCallbackState`. -/
def nvdecPoolCapacity : Nat := 8

/-- Where the decoder's thread is: between two callbacks of the parser, in the display callback with a mapped picture
that has no slot yet or has one, in `close` or behind it. -/
inductive NvdecPc
  | reading
  | mapped (n : Nat)
  | acquired (n : Nat)
  | closing
  | closed
  | destroyed

/-- `next` is the number of the next mapping, `queue` is `completed_gpu_`, `outside` are the delivered frames whose
release callback has not run, and `returning` counts the frames between that callback and the return of their slot. -/
structure NvdecState where
  owner : NvdecRuntimeOwner
  pc : NvdecPc
  next : Nat
  queue : List Nat
  outside : List Nat
  returning : Nat

inductive NvdecLabel
  | createDecoder
  | map
  | discard (unmap : Bool)
  | acquire
  | count
  | deliver
  | release (n : Nat) (unmap : GuardedAnswer) (destroy : DestroyAnswer)
  | recycle
  | close
  | drop (unmap : GuardedAnswer) (destroy : DestroyAnswer)
  | closeRuntime (parser : GuardedAnswer) (destroy : DestroyAnswer)
  | destroy
  | dropOwner (parser : GuardedAnswer) (destroy : DestroyAnswer)

namespace NvdecState

/-- What `create_nvdec_parser_runtime` hands over: a context and a parser. -/
def init : NvdecState := ⟨⟨true, true, false, 0, false, []⟩, .reading, 0, [], [], 0⟩

/-- One step. A creation or a mapping that fails changes nothing and has none. -/
def step (s : NvdecState) : NvdecLabel → Option NvdecState
  | .createDecoder =>
      match s.pc with
      | .reading =>
          if s.owner.decoder then none else some { s with owner := { s.owner.log .decoderCreate with decoder := true } }
      | _ => none
  | .map =>
      match s.pc with
      | .reading =>
          if !s.owner.decoder then none
          else some { s with owner := s.owner.log (.map s.next), pc := .mapped s.next, next := s.next + 1 }
      | _ => none
  | .discard _ =>
      -- a picture that is read back for the CPU, that has no native handle or finds the pool full
      match s.pc with
      | .mapped n => some { s with owner := s.owner.log (.unmap n), pc := .reading }
      | _ => none
  | .acquire =>
      match s.pc with
      | .mapped n =>
          if s.queue.length + s.outside.length + s.returning < nvdecPoolCapacity then some { s with pc := .acquired n }
          else none
      | _ => none
  | .count =>
      match s.pc with
      | .acquired n => some { s with owner := s.owner.acquireMapping, queue := s.queue ++ [n], pc := .reading }
      | _ => none
  | .deliver =>
      match s.pc, s.queue with
      | .reading, n :: queue => some { s with queue := queue, outside := s.outside ++ [n] }
      | _, _ => none
  | .release n unmap destroy =>
      if n ∈ s.outside then
        some { s with
          owner := s.owner.releaseMapping n unmap destroy
          outside := s.outside.erase n
          returning := s.returning + 1 }
      else none
  | .recycle => if s.returning = 0 then none else some { s with returning := s.returning - 1 }
  | .close =>
      match s.pc with
      | .reading => some { s with pc := .closing }
      | _ => none
  | .drop unmap destroy =>
      match s.pc, s.queue with
      | .closing, n :: queue => some { s with
          owner := s.owner.releaseMapping n unmap destroy
          queue := queue
          returning := s.returning + 1 }
      | _, _ => none
  | .closeRuntime parser destroy =>
      match s.pc, s.queue with
      | .closing, [] => some { s with owner := (s.owner.close parser destroy).1, pc := .closed }
      | _, _ => none
  | .destroy =>
      match s.pc with
      | .closed => some { s with pc := .destroyed }
      | _ => none
  | .dropOwner parser destroy =>
      -- the destructor of the owner, behind the last frame
      match s.pc, s.outside with
      | .destroyed, [] => some { s with owner := (s.owner.close parser destroy).1 }
      | _, _ => none

def Step (s : NvdecState) (l : NvdecLabel) (t : NvdecState) : Prop := s.step l = some t

end NvdecState

/-- Every call of the driver in this step succeeds. -/
def NvdecLabel.succeeds : NvdecLabel → Bool
  | .discard unmap => unmap
  | .release _ call teardown | .drop call teardown => call.succeeds && teardown.succeeds
  | .closeRuntime call teardown | .dropOwner call teardown => call.succeeds && teardown.succeeds
  | _ => true

end MkvCodec.Gpu
