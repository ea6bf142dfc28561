import MkvCodec.Concurrency.Transition
import MkvCodec.Data.SlotPool
import MkvCodec.Gpu.Frame

/-!
# The GPU frame pool

`GpuFramePool` with the frames that it has handed out. A section of the pool or of a frame is one step, and so are the two
parts of the recycle callback: the release of the resource, which may throw, and the return of the slot.
-/

namespace MkvCodec.Gpu

open Concurrency SlotPool

variable {C : Type*}

/-! ## The pool -/

/-- `GpuFramePool`, without its lock. -/
structure GpuFramePool where
  slots : List Slot
  inUse : Nat
  peakInUse : Nat

namespace GpuFramePool

def new (capacity : Nat) : GpuFramePool := ⟨List.replicate capacity ⟨false, 0⟩, 0, 0⟩

def full : Status := ⟨.wouldBlock, "GPU frame pool is full"⟩

/-- `acquire` up to the unlock: the slot and its generation. -/
def acquire (p : GpuFramePool) (producer : Bool) : Except Status (GpuFramePool × Nat × Nat) :=
  if !producer || p.slots.isEmpty then
    .error ⟨.errorInvalidArgument, "GPU frame pool or producer completion is invalid"⟩
  else
    match firstFree p.slots with
    | none => .error full
    | some index =>
        match p.slots[index]? with
        | none => .error full
        | some slot =>
            let generation := (slot.generation + 1) % 2 ^ 64
            .ok (⟨p.slots.set index ⟨true, generation⟩, p.inUse + 1, max p.peakInUse (p.inUse + 1)⟩, index, generation)

def recycle (p : GpuFramePool) (slot generation : Nat) : GpuFramePool :=
  match giveBack p.slots slot generation with
  | none => p
  | some slots => { p with slots := slots, inUse := if p.inUse ≠ 0 then p.inUse - 1 else p.inUse }

end GpuFramePool

/-! ## The frames -/

/-- A frame before the construction of its core, with a core, in the destructor, where it waits for the completions that
are left, and behind it; or its construction has thrown. -/
inductive PooledLife (C : Type*)
  | constructing
  | alive
  | dying (waits : List (Completion C))
  | destroyed
  | failed

/-- How far the recycle callback has come. -/
inductive RecycleCall
  | notCalled
  | called (generation : Nat)
  | released (generation : Nat)
  | finished
  | threw
  deriving DecidableEq

/-- A frame with the slot that its callback gives back. `releases` counts the calls of the resource's release. -/
structure PooledFrame (C : Type*) where
  core : GpuFrameCore C
  slot : Nat
  generation : Nat
  hasRelease : Bool
  life : PooledLife C
  call : RecycleCall
  releases : Nat

/-- A section of the core; when it recycles the frame, the callback is called. -/
def PooledFrame.after (f : PooledFrame C) (r : GpuFrameCore C × Option Nat) : PooledFrame C :=
  match r.2 with
  | none => { f with core := r.1 }
  | some generation => { f with core := r.1, call := .called generation }

inductive PooledUse (C : Type*)
  | acquireExternal
  | releaseExternal
  | addConsumer (completion : Option (Completion C))
  | poll

def PooledUse.run (states : C → CompletionState) (a : GpuFrameCore C) : PooledUse C → GpuFrameCore C × Option Nat
  | .acquireExternal =>
      match a.acquireExternal with
      | .ok a => (a, none)
      | .error _ => (a, none)
  | .releaseExternal => a.releaseExternal states
  | .addConsumer completion => ((a.addConsumer completion).2, none)
  | .poll => a.maybeRecycle states

/-- `frame` are the frames in the order of their acquisitions. `issued` are the slots that were acquired, the latest first,
and `returned` counts the slots that were given back; the code has neither. -/
structure FramePoolState (C : Type*) where
  pool : GpuFramePool
  alive : Bool
  frame : Nat → Option (PooledFrame C)
  next : Nat
  states : C → CompletionState
  issued : List (Nat × Nat)
  returned : Nat

inductive FramePoolLabel (C : Type*)
  | acquire (desc : GpuFrameDesc) (producer : Option (Completion C)) (native : Option NativeHandleDesc) (hasRelease : Bool)
  | construct (k : Nat)
  | fail (k : Nat)
  | use (k : Nat) (u : PooledUse C)
  | beginDestroy (k : Nat)
  | wait (k : Nat)
  | destroy (k : Nat)
  | release (k : Nat) (throws : Bool)
  | recycle (k : Nat)
  | destroyPool
  | evolve (states : C → CompletionState)

namespace FramePoolState

def init (capacity : Nat) (states : C → CompletionState) : FramePoolState C :=
  ⟨.new capacity, true, fun _ => none, 0, states, [], 0⟩

def set (s : FramePoolState C) (k : Nat) (f : PooledFrame C) : FramePoolState C :=
  { s with frame := Function.update s.frame k (some f) }

/-- The slot comes back through `GpuFramePool::recycle`. -/
def give (s : FramePoolState C) (slot generation : Nat) : FramePoolState C :=
  { s with
    pool := s.pool.recycle slot generation
    returned := if (giveBack s.pool.slots slot generation).isSome then s.returned + 1 else s.returned }

/-- A call of `acquire` is between its two parts. -/
def acquiring (s : FramePoolState C) : Bool :=
  (List.range s.next).any fun k => (s.frame k).any fun f =>
    match f.life with
    | .constructing => true
    | _ => false

/-- The core of a frame that is acquired with these arguments. -/
def newCore (desc : GpuFrameDesc) (producer : Option (Completion C)) (native : Option NativeHandleDesc)
    (generation : Nat) : GpuFrameCore C :=
  .new { desc with generation := generation } producer (native.map fun native => { native with generation := generation })

/-- One step. Calls of `acquire` hold the pool, and users of a frame its core. -/
def step (s : FramePoolState C) : FramePoolLabel C → Option (FramePoolState C)
  | .acquire desc producer native hasRelease =>
      if !s.alive then none
      else
        match s.pool.acquire producer.isSome with
        | .error _ => some s
        | .ok (pool, slot, generation) =>
            some { s.set s.next
                ⟨newCore desc producer native generation, slot, generation, hasRelease, .constructing, .notCalled, 0⟩ with
              pool := pool
              next := s.next + 1
              issued := (slot, generation) :: s.issued }
  | .construct k =>
      (s.frame k).bind fun f =>
        match f.life with
        | .constructing => some (s.set k { f with life := .alive })
        | _ => none
  | .fail k =>
      (s.frame k).bind fun f =>
        match f.life with
        | .constructing => some ((s.give f.slot f.generation).set k { f with life := .failed })
        | _ => none
  | .use k u =>
      (s.frame k).bind fun f =>
        match f.life with
        | .alive => some (s.set k (f.after (u.run s.states f.core)))
        | _ => none
  | .beginDestroy k =>
      (s.frame k).bind fun f =>
        match f.life, f.call with
        | .alive, .notCalled => some (s.set k { f with life := .dying f.core.completions })
        | .alive, .finished | .alive, .threw => some (s.set k { f with life := .destroyed })
        | _, _ => none
  | .wait k =>
      (s.frame k).bind fun f =>
        match f.life with
        | .dying (completion :: rest) =>
            if (completion.query s.states).isPending then none else some (s.set k { f with life := .dying rest })
        | _ => none
  | .destroy k =>
      (s.frame k).bind fun f =>
        match f.life with
        | .dying [] => some (s.set k { f.after (f.core.destroy s.states) with life := .destroyed })
        | _ => none
  | .release k throws =>
      (s.frame k).bind fun f =>
        match f.call with
        | .called generation =>
            if !f.hasRelease then some (s.set k { f with call := .released generation })
            else
              some (s.set k { f with
                call := if throws then .threw else .released generation
                releases := f.releases + 1 })
        | _ => none
  | .recycle k =>
      (s.frame k).bind fun f =>
        match f.call with
        | .released generation =>
            -- the lock of a `weak_ptr`
            let s := if s.alive then s.give f.slot generation else s
            some (s.set k { f with call := .finished })
        | _ => none
  | .destroyPool => if s.alive && !s.acquiring then some { s with alive := false } else none
  | .evolve states => some { s with states := states }

def Step (s : FramePoolState C) (l : FramePoolLabel C) (t : FramePoolState C) : Prop := s.step l = some t

end FramePoolState

/-- No release throws, and the destructor of a frame finds its completions as its waits have left them. -/
def FramePoolState.Calm (s : FramePoolState C) : FramePoolLabel C → Prop
  | .release _ throws => throws = false
  | .destroy k => ∀ f, s.frame k = some f → ∀ completion ∈ f.core.completions,
      (completion.query s.states).isPending = false
  | _ => True

end MkvCodec.Gpu
