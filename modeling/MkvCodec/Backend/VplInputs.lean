import MkvCodec.Backend.Vpl
import MkvCodec.Concurrency.Transition

/-!
# Inputs of the oneVPL queue

`VplEncoderQueue` with the GPU frames that it encodes and everybody else who uses them. A submission, its registration on
the frame and a collection are steps; `drain` is submissions of no surface and collections. What the hardware makes of
its inputs is told with its answers.
-/

namespace MkvCodec.Backend

open Concurrency
open Gpu (Completion CompletionState GpuFrameCore)

variable {C : Type*}

/-- What others do with a frame, and the calls of `poll_recycle`. -/
inductive FrameUse (C : Type*)
  | acquireExternal
  | releaseExternal
  | addConsumer (c : C)
  | poll
  | destroy

/-- A section of a frame. Its completions are those of others, and those of the queue by their numbers. -/
def FrameUse.run (states : C ⊕ Nat → CompletionState) (a : GpuFrameCore (C ⊕ Nat)) : FrameUse C → GpuFrameCore (C ⊕ Nat)
  | .acquireExternal =>
      match a.acquireExternal with
      | .ok a => a
      | .error _ => a
  | .releaseExternal => (a.releaseExternal states).1
  | .addConsumer c => (a.addConsumer (some (.driver (.inl c)))).2
  | .poll => (a.maybeRecycle states).1
  | .destroy => (a.destroy states).1

/-- The thread of the encoder is between two calls of the queue, or in `submit_gpu_surface` before `add_consumer`. -/
inductive VplPc
  | idle
  | registering (frame completion : Nat)

structure VplInputs (C : Type*) where
  queue : VplEncoderQueue
  frames : Nat → GpuFrameCore (C ⊕ Nat)
  others : C → CompletionState
  pc : VplPc

/-- `consumes` are the inputs, by their completions, that an output consumes. -/
inductive VplInputLabel (C : Type*)
  | submitGpu (frame timeStamp : Nat) (answer : SubmitAnswer) (consumes : List Nat)
  | register
  | submit (surface : Option Nat) (answer : SubmitAnswer) (consumes : List Nat)
  | collect (packets : List IntelEncodedPacket) (answer : CollectAnswer)
  | close (statuses : Nat → Int)
  | use (frame : Nat) (u : FrameUse C)
  | evolve (others : C → CompletionState)

namespace VplInputs

def states (s : VplInputs C) : C ⊕ Nat → CompletionState := Sum.elim s.others s.queue.completions

/-- The frames before the encoder has got any; producers are completions of others. -/
def init (queue : VplEncoderQueue) (desc : Nat → Gpu.GpuFrameDesc) (producer : Nat → Option C)
    (native : Nat → Option Gpu.NativeHandleDesc) (others : C → CompletionState) : VplInputs C :=
  ⟨queue, fun f => .new (desc f) ((producer f).map fun c => .driver (.inl c)) (native f), others, .idle⟩

/-- `submit_gpu_surface` from the creation of the completion to the call of `add_consumer`. -/
def submitGpu (s : VplInputs C) (frame timeStamp : Nat) (answer : SubmitAnswer) : VplInputs C :=
  let completion := s.queue.completionCount
  match { s.queue with completionCount := completion + 1 }.submit (some timeStamp) (some completion) (some frame)
      answer with
  | (status, queue) =>
      if status.result = .ok then { s with queue := queue, pc := .registering frame completion }
      else if status.result = .endOfStream then { s with queue := queue.signal (some completion) .complete }
      else { s with queue := queue.signal (some completion) (VplEncoderQueue.failure status.error) }

def modify (s : VplInputs C) (frame : Nat) (g : GpuFrameCore (C ⊕ Nat) → GpuFrameCore (C ⊕ Nat)) : VplInputs C :=
  { s with frames := Function.update s.frames frame (g (s.frames frame)) }

def register (s : VplInputs C) (frame completion : Nat) : VplInputs C :=
  { s.modify frame fun a => (a.addConsumer (some (.driver (.inr completion)))).2 with pc := .idle }

/-- One step. An encoder that is closed asks nothing of its queue. -/
def step (s : VplInputs C) : VplInputLabel C → Option (VplInputs C)
  | .submitGpu frame timeStamp answer _ =>
      match s.pc with
      | .idle => if s.queue.closed then none else some (s.submitGpu frame timeStamp answer)
      | .registering _ _ => none
  | .register =>
      match s.pc with
      | .idle => none
      | .registering frame completion => some (s.register frame completion)
  | .submit surface answer _ =>
      match s.pc with
      | .idle => if s.queue.closed then none else some { s with queue := (s.queue.submit surface none none answer).2 }
      | .registering _ _ => none
  | .collect packets answer =>
      match s.pc with
      | .idle => some { s with queue := (s.queue.collectOldest packets answer).2.2 }
      | .registering _ _ => none
  | .close statuses =>
      match s.pc with
      | .idle => some { s with queue := s.queue.close statuses }
      | .registering _ _ => none
  | .use frame u => some (s.modify frame fun a => u.run s.states a)
  | .evolve others => some { s with others := others }

def Step (s : VplInputs C) (l : VplInputLabel C) (t : VplInputs C) : Prop := s.step l = some t

end VplInputs

/-! ## What the hardware has done -/

/-- The inputs that each output consumes, in the order of the synchronization points, how many of these have ended, and
the submissions that have failed. -/
structure VplHistory where
  outputs : List (List Nat)
  synchronized : Nat
  rejected : List Nat

namespace VplHistory

def empty : VplHistory := ⟨[], 0, []⟩

/-- An output that consumes the input has been waited for. -/
def Finished (h : VplHistory) (n : Nat) : Prop := ∃ consumes ∈ h.outputs.take h.synchronized, n ∈ consumes

def emit (h : VplHistory) (consumes : List Nat) : VplHistory := { h with outputs := h.outputs ++ [consumes] }

def next (s : VplInputs C) (l : VplInputLabel C) (h : VplHistory) : VplHistory :=
  match l with
  | .submitGpu _ _ (.accepted true) consumes | .submit _ (.accepted true) consumes => h.emit consumes
  | .submitGpu _ _ (.ended (.failed _ _)) _ => { h with rejected := s.queue.completionCount :: h.rejected }
  | .collect _ _ => if s.queue.pending.isEmpty then h else { h with synchronized := h.synchronized + 1 }
  | .close _ => { h with synchronized := h.outputs.length }
  | _ => h

end VplHistory

/-- The hardware does not keep the surface of a GPU frame for an output of a later call. -/
def Unbuffered (s : VplInputs C × VplHistory) : VplInputLabel C → Prop
  | .submitGpu _ _ (.accepted true) consumes => s.1.queue.completionCount ∈ consumes
  | .submitGpu _ _ (.accepted false) _ => False
  | .submitGpu _ _ (.ended .moreData) _ => False
  | _ => True

end MkvCodec.Backend
