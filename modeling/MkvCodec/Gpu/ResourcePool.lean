import MkvCodec.Concurrency.Transition
import MkvCodec.Data.SlotPool
import MkvCodec.Frame.View

/-!
# The pool of external GPU resources

`GpuResourcePool` with any number of clients inside `acquire`, its reservations and its owner. What runs under the
pool's lock is one step. Behind the section that marks a slot a client holds it in local variables until the
reservation is built or its construction throws.
-/

namespace MkvCodec.Gpu

open Concurrency SlotPool

/-! ## The pool -/

/-- `GpuResourcePool`, without its lock and its condition variable. -/
structure ResourcePool where
  slots : List Slot
  inUse : Nat
  peakInUse : Nat
  acquisitions : UInt64
  rejectedAcquisitions : UInt64
  waitNs : UInt64

/-- `if (++generation == 0) ++generation` on 64 bits. -/
def nextGeneration (generation : Nat) : Nat :=
  if (generation + 1) % 2 ^ 64 = 0 then 1 else (generation + 1) % 2 ^ 64

namespace ResourcePool

def new (capacity : UInt32) : ResourcePool := ⟨List.replicate capacity.toNat ⟨false, 0⟩, 0, 0, 0, 0, 0⟩

def available (p : ResourcePool) : Bool := p.slots.any fun slot => !slot.inUse

/-- `acquire` behind its wait, up to the unlock: the slot and its generation. -/
def mark (p : ResourcePool) : Option (ResourcePool × Nat × Nat) :=
  (firstFree p.slots).bind fun index => p.slots[index]?.map fun slot =>
    let generation := nextGeneration slot.generation
    let inUse := u32 (p.inUse + 1)
    ({ p with
        slots := p.slots.set index ⟨true, generation⟩
        inUse := inUse
        acquisitions := p.acquisitions + 1
        peakInUse := max p.peakInUse inUse }, index, generation)

def reject (p : ResourcePool) : ResourcePool := { p with rejectedAcquisitions := p.rejectedAcquisitions + 1 }

def waited (p : ResourcePool) (ns : UInt64) : ResourcePool := { p with waitNs := p.waitNs + ns }

def release (p : ResourcePool) (slot generation : Nat) : ResourcePool :=
  match giveBack p.slots slot generation with
  | none => p
  | some slots => { p with slots := slots, inUse := if p.inUse ≠ 0 then p.inUse - 1 else p.inUse }

end ResourcePool

/-! ## The clients -/

inductive AcquireAnswer
  | returned (status : Status)
  | threw

/-- Where a client is: outside, with what its latest call came to; in the wait; behind the unlock. -/
inductive AcquirePc
  | outside (answer : Option AcquireAnswer)
  | waiting (timeoutMs : UInt32)
  | marked (slot generation : Nat)

/-- `reservation` are the live ones, by the order of their construction. `issued` are the slots that were marked, the
latest first, and `released` counts the slots that were given back; the code has neither. -/
structure PoolState (ι : Type*) where
  pool : ResourcePool
  owner : Bool
  client : ι → AcquirePc
  reservation : Nat → Option (Nat × Nat)
  created : Nat
  issued : List (Nat × Nat)
  released : Nat

inductive PoolLabel (ι : Type*)
  | enter (i : ι) (timeoutMs : UInt32)
  | wake (i : ι) (ns : UInt64)
  | timeout (i : ι) (ns : UInt64)
  | construct (i : ι)
  | fail (i : ι)
  | release (k : Nat)
  | destroyOwner

def poolFull : Status := ⟨.wouldBlock, "external GPU resource pool is full"⟩

def poolTimedOut : Status := ⟨.errorTimeout, "external GPU resource pool acquire timed out"⟩

namespace PoolState

variable {ι : Type*}

def init (ι : Type*) (capacity : UInt32) : PoolState ι :=
  ⟨.new capacity, true, fun _ => .outside none, fun _ => none, 0, [], 0⟩

/-- The owner and every reservation hold a `shared_ptr` to the pool. -/
def alive (s : PoolState ι) : Bool := s.owner || (List.range s.created).any fun k => (s.reservation k).isSome

/-- The slot comes back through `release`. -/
def give (s : PoolState ι) (slot generation : Nat) : PoolState ι :=
  { s with
    pool := s.pool.release slot generation
    released := if (giveBack s.pool.slots slot generation).isSome then s.released + 1 else s.released }

variable [DecidableEq ι]

def move (s : PoolState ι) (i : ι) (pc : AcquirePc) : PoolState ι :=
  { s with client := Function.update s.client i pc }

/-- The client marks the first free slot of the pool `p`. -/
def marks (s : PoolState ι) (i : ι) (p : ResourcePool) : Option (PoolState ι) :=
  p.mark.map fun (pool, slot, generation) =>
    { s.move i (.marked slot generation) with pool := pool, issued := (slot, generation) :: s.issued }

/-- One step. A call inside a pool that nobody holds has none: its memory is gone. -/
def step (s : PoolState ι) : PoolLabel ι → Option (PoolState ι)
  | .enter i timeoutMs =>
      match s.client i with
      | .outside _ =>
          if !s.owner then none
          else if s.pool.available then s.marks i s.pool
          else if timeoutMs = 0 then
            some { s.move i (.outside (some (.returned poolFull))) with pool := s.pool.reject }
          else some (s.move i (.waiting timeoutMs))
      | _ => none
  | .wake i ns =>
      match s.client i with
      | .waiting _ => if s.alive && s.pool.available then s.marks i (s.pool.waited ns) else none
      | _ => none
  | .timeout i ns =>
      match s.client i with
      | .waiting timeoutMs =>
          -- the wait without a limit, and a wait whose predicate has become true
          if !s.alive || decide (timeoutMs = 0xFFFFFFFF) || s.pool.available then none
          else some { s.move i (.outside (some (.returned poolTimedOut))) with pool := (s.pool.waited ns).reject }
      | _ => none
  | .construct i =>
      match s.client i with
      | .marked slot generation =>
          if !s.alive then none
          else some { s.move i (.outside (some (.returned .ok))) with
            reservation := Function.update s.reservation s.created (some (slot, generation))
            created := s.created + 1 }
      | _ => none
  | .fail i =>
      match s.client i with
      | .marked slot generation =>
          if !s.alive then none else some ((s.give slot generation).move i (.outside (some .threw)))
      | _ => none
  | .release k =>
      match s.reservation k with
      | none => none
      | some (slot, generation) =>
          some { s.give slot generation with reservation := Function.update s.reservation k none }
  | .destroyOwner => if s.owner then some { s with owner := false } else none

/-- `step` as a relation. -/
def Step (s : PoolState ι) (l : PoolLabel ι) (t : PoolState ι) : Prop := s.step l = some t

end PoolState

end MkvCodec.Gpu
