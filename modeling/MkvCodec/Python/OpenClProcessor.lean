import MkvCodec.Data.FreeList
import MkvCodec.Python.OutputLease

/-!
# The Intel OpenCL processor

`_OutputPool` and `IntelOpenClProcessorAdapter` of `intel_opencl_processor.py`. Threads of any number convert frames, close the
tokens of output leases and close the adapter. A section under the condition of a pool is one step, and so is a lookup under the
lock of the adapter; a close of the adapter keeps that lock while it looks at one pool after the other. What the calls into
OpenCL, into the driver and into other packages raise is decided outside. A pool whose construction raises is closed there and
nobody else has it; a conversion that raises before it looks up its pool has changed nothing.
-/

namespace MkvCodec.Python

open Concurrency

variable {ι : Type*} [DecidableEq ι]

/-! ## Model -/

inductive AdapterError
  | runtimeError (message : String)
  | timeoutError (message : String)
  | indexError
  | raised
  deriving DecidableEq

/-- `_OutputPool`. The end of `_free` comes first; of `resources` there is the number. Of the past there is how often the
teardown got through. -/
structure OutputPool extends FreeList.Slots Nat where
  closed : Bool
  resources : Nat
  torn : Nat
  deriving DecidableEq

namespace OutputPool

/-- A pool that is not there. -/
def absent : OutputPool := ⟨⟨[], []⟩, false, 0, 0⟩

def new (capacity : Nat) : OutputPool := ⟨⟨List.range capacity, []⟩, false, capacity, 0⟩

def release (pool : OutputPool) (index : Nat) : OutputPool := { pool with toSlots := FreeList.give pool.toSlots index }

end OutputPool

/-- The key of `_pools`. -/
structure PoolKey where
  display : Int
  deviceId : Int
  width : Int
  height : Int
  channels : Int
  deriving DecidableEq

/-- How a call ends. -/
inductive AdapterOutcome
  | nothing
  | image (k : Nat)
  | closed
  | raised (error : AdapterError)
  deriving DecidableEq

/-- Where a thread stands. The states from `releasing` to `completing` and `unwinding` are those of the handler of `convert`.
A close has a list of pools to look at and one of those that it has looked at, and then one of the pools that are left. -/
inductive AdapterPc
  | idle (last : AdapterOutcome)
  | acquiring (pool : Nat)
  | submitting (pool index : Nat)
  | leasing (pool index : Nat)
  | completing (pool index : Nat)
  | releasing (pool index : Nat)
  | providing (k : Nat)
  | building (k : Nat)
  | unwinding (k : Nat)
  | checking (todo checked : List Nat)
  | closing (pools : List Nat)
  | runtimeClosing (pool : Nat) (rest : List Nat)
  | tearing (pool : Nat) (failed : Bool) (rest : List Nat)
  deriving DecidableEq

/-- The lease of an output, with the slot that it releases. -/
structure PooledLease (ι : Type*) where
  pool : Nat
  index : Nat
  lease : OutputLease ι

/-- `IntelOpenClProcessorAdapter`, its pools, the leases of its outputs and the threads. Pools and leases are numbered. Of the
past there are the slots that were acquired and returned, whether one was acquired from a closed pool, and whether a close
succeeded while one was in use. -/
structure OpenClAdapter (ι : Type*) where
  poolSize : Nat
  acquireTimeoutMs : Nat
  pools : List (PoolKey × Nat)
  closed : Bool
  lock : Option ι
  poolCount : Nat
  pool : Nat → OutputPool
  leaseCount : Nat
  lease : Nat → PooledLease ι
  threads : ι → AdapterPc
  acquired : List (Nat × Nat)
  returned : List (Nat × Nat)
  late : Bool
  occupied : Bool

inductive AdapterCall
  | convert (key : PoolKey) (constructs : Bool)
  | close

/-- A thread starts a call, or goes on with it, or with a call on the token of a lease; `raises` is what other code does in that
step. -/
inductive AdapterStep (ι : Type*)
  | call (i : ι) (c : AdapterCall)
  | next (i : ι) (raises : Bool)
  | lease (k : Nat) (l : LeaseStep ι)

/-- The calls on a lease that images and their tensors make. -/
def LeaseStep.closes : LeaseStep ι → Bool
  | .call _ (.close _) | .call _ (.wait _) | .next _ _ => true
  | .call _ .retain | .call _ .dlpack => false

/-- A step of a lease calls the `release_slot` of its constructor. -/
def OutputLease.releasesSlot (lease : OutputLease ι) : LeaseStep ι → Bool
  | .next i _ => decide ((lease.threads i).cleans = some (true, .releaseSlot))
  | .call _ _ => false

/-- `retain` as one step, where nobody else has the lease; none when it raises. -/
def OutputLease.retained (lease : OutputLease ι) (i : ι) : Option (OutputLease ι) :=
  exec OutputLease.step lease [.call i .retain, .next i false]

namespace OpenClAdapter

/-- An adapter without pools. -/
def new (ι : Type*) (poolSize acquireTimeoutMs : Nat) : OpenClAdapter ι where
  poolSize := poolSize
  acquireTimeoutMs := acquireTimeoutMs
  pools := []
  closed := false
  lock := none
  poolCount := 0
  pool _ := .absent
  leaseCount := 0
  lease _ := ⟨0, 0, .new ι⟩
  threads _ := .idle .nothing
  acquired := []
  returned := []
  late := false
  occupied := false

def put (s : OpenClAdapter ι) (i : ι) (pc : AdapterPc) : OpenClAdapter ι :=
  { s with threads := Function.update s.threads i pc }

def raise (s : OpenClAdapter ι) (i : ι) (error : AdapterError) : OpenClAdapter ι := s.put i (.idle (.raised error))

def setPool (s : OpenClAdapter ι) (p : Nat) (pool : OutputPool) : OpenClAdapter ι :=
  { s with pool := Function.update s.pool p pool }

def setLease (s : OpenClAdapter ι) (k : Nat) (lease : OutputLease ι) : OpenClAdapter ι :=
  { s with lease := Function.update s.lease k { s.lease k with lease := lease } }

/-- `IntelOpenClProcessorAdapter._pool`. -/
def lookup (s : OpenClAdapter ι) (i : ι) (key : PoolKey) (constructs : Bool) : OpenClAdapter ι :=
  if s.closed then s.raise i (.runtimeError "Intel OpenCL processor is closed")
  else
    match s.pools.lookup key with
    | some p => s.put i (.acquiring p)
    | none =>
        if constructs then
          { s with
            pools := s.pools ++ [(key, s.poolCount)]
            poolCount := s.poolCount + 1
            pool := Function.update s.pool s.poolCount (.new s.poolSize)
            threads := Function.update s.threads i (.acquiring s.poolCount) }
        else s.raise i .raised

/-- A turn of the loop of `_OutputPool.acquire`; `expired` says that the deadline is over. -/
def acquire (s : OpenClAdapter ι) (i : ι) (p : Nat) (expired : Bool) : OpenClAdapter ι :=
  match FreeList.take (s.pool p).toSlots with
  | none =>
      if (s.pool p).closed then s.raise i (.runtimeError "Intel OpenCL output pool is closed")
      else if s.acquireTimeoutMs = 0 then s.raise i (.runtimeError "Intel OpenCL output pool is exhausted")
      else if decide (s.acquireTimeoutMs ≠ 0xFFFFFFFF) && expired then
        s.raise i (.timeoutError "Intel OpenCL output pool acquisition timed out")
      else s
  | some (index, slots) =>
      { s with
        pool := Function.update s.pool p { s.pool p with toSlots := slots }
        acquired := (p, index) :: s.acquired
        late := s.late || (s.pool p).closed
        threads := Function.update s.threads i
          (if index < (s.pool p).resources then .submitting p index else .idle (.raised .indexError)) }

/-- `_OutputPool.release`, and how the thread goes on. -/
def release (s : OpenClAdapter ι) (p index : Nat) : OpenClAdapter ι :=
  { s.setPool p ((s.pool p).release index) with
    returned := if index ∈ (s.pool p).inUse then (p, index) :: s.returned else s.returned }

/-- The lease of a new output with its first token. -/
def newLease (s : OpenClAdapter ι) (i : ι) (p index : Nat) : OpenClAdapter ι :=
  match (OutputLease.new ι).retained i with
  | none => s.put i (.completing p index)
  | some lease =>
      { s with
        leaseCount := s.leaseCount + 1
        lease := Function.update s.lease s.leaseCount ⟨p, index, lease⟩
        threads := Function.update s.threads i (.providing s.leaseCount) }

/-- The second token. -/
def provide (s : OpenClAdapter ι) (i : ι) (k : Nat) : OpenClAdapter ι :=
  match (s.lease k).lease.retained i with
  | none => s.put i (.unwinding k)
  | some lease => (s.setLease k lease).put i (.building k)

/-- Some slot is in use. -/
def active (s : OpenClAdapter ι) : Bool := (List.range s.poolCount).any fun p => !(s.pool p).inUse.isEmpty

/-- A close succeeds. -/
def succeed (s : OpenClAdapter ι) (i : ι) : OpenClAdapter ι :=
  { s with occupied := s.occupied || s.active, threads := Function.update s.threads i (.idle .closed) }

/-- `close` behind the lock. -/
def startClose (s : OpenClAdapter ι) (i : ι) : OpenClAdapter ι :=
  if s.closed then s.succeed i
  else { s with lock := some i, threads := Function.update s.threads i (.checking (s.pools.map Prod.snd) []) }

/-- `close` looks at the next pool, or has looked at all of them. -/
def check (s : OpenClAdapter ι) (i : ι) (checked : List Nat) : List Nat → OpenClAdapter ι
  | [] => { s with closed := true, pools := [], lock := none, threads := Function.update s.threads i (.closing checked) }
  | p :: todo =>
      if (s.pool p).inUse ≠ [] then
        { s with lock := none }.raise i (.runtimeError "Intel OpenCL processor still has active images")
      else s.put i (.checking todo (checked ++ [p]))

/-- `_OutputPool.close` under the condition, for the next pool. -/
def closePool (s : OpenClAdapter ι) (i : ι) : List Nat → OpenClAdapter ι
  | [] => s.succeed i
  | p :: rest =>
      if (s.pool p).closed then s.put i (.closing rest)
      else if (s.pool p).inUse ≠ [] then s.raise i (.runtimeError "Intel OpenCL output pool still has active images")
      else (s.setPool p { s.pool p with closed := true }).put i (.runtimeClosing p rest)

/-- The `finally` of `_OutputPool.close`: carriers, allocations and the anchor. -/
def tear (s : OpenClAdapter ι) (i : ι) (p : Nat) (failed : Bool) (rest : List Nat) (raises : Bool) : OpenClAdapter ι :=
  if raises then s.raise i .raised
  else
    (s.setPool p { s.pool p with resources := 0, torn := (s.pool p).torn + 1 }).put i
      (if failed then .idle (.raised .raised) else .closing rest)

/-- The handler of `convert` closes the first token. -/
def unwind (s : OpenClAdapter ι) (i : ι) (k : Nat) : Option (OpenClAdapter ι) :=
  ((s.lease k).lease.step (.call i (.close 0))).map fun lease => (s.setLease k lease).raise i .raised

/-- The next step of a thread that stands at `pc`. -/
def advance (s : OpenClAdapter ι) (i : ι) (raises : Bool) : AdapterPc → Option (OpenClAdapter ι)
  | .idle _ => none
  | .acquiring p => s.acquire i p raises
  | .submitting p index => s.put i (if raises then .releasing p index else .leasing p index)
  | .leasing p index => if raises then s.put i (.completing p index) else s.newLease i p index
  | .completing p index => if raises then s.raise i .raised else s.put i (.releasing p index)
  | .releasing p index => (s.release p index).raise i .raised
  | .providing k => if raises then s.put i (.unwinding k) else s.provide i k
  | .building k => s.put i (if raises then .unwinding k else .idle (.image k))
  | .unwinding k => s.unwind i k
  | .checking todo checked => s.check i checked todo
  | .closing pools => s.closePool i pools
  | .runtimeClosing p rest => s.put i (.tearing p raises rest)
  | .tearing p failed rest => s.tear i p failed rest raises

/-- A step of a lease, which may return its slot. -/
def leaseStep (s : OpenClAdapter ι) (k : Nat) (l : LeaseStep ι) : Option (OpenClAdapter ι) :=
  ((s.lease k).lease.step l).map fun lease =>
    if (s.lease k).lease.releasesSlot l then (s.setLease k lease).release (s.lease k).pool (s.lease k).index
    else s.setLease k lease

def step (s : OpenClAdapter ι) : AdapterStep ι → Option (OpenClAdapter ι)
  | .call i c =>
      match s.threads i, s.lock with
      | .idle _, none =>
          match c with
          | .convert key constructs => s.lookup i key constructs
          | .close => s.startClose i
      | _, _ => none
  | .next i raises => s.advance i raises (s.threads i)
  | .lease k l => if k < s.leaseCount ∧ l.closes = true then s.leaseStep k l else none

def Step (s : OpenClAdapter ι) (l : AdapterStep ι) (t : OpenClAdapter ι) : Prop := s.step l = some t

end OpenClAdapter

end MkvCodec.Python
