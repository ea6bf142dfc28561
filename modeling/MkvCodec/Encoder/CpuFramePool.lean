import MkvCodec.Concurrency.Transition
import MkvCodec.Data.SlotPool
import MkvCodec.Encoder.State

/-!
# The CPU frame pool and the submissions of its buffers

`CpuFramePool` with the leases of its slots and any number of calls of `mkvc_encoder_submit_cpu_buffer`. What runs under
one lock is one step, and so is the destructor of a lease. A submission has the number of its call. The memory behind a
slot is left out: a lease only passes it on.
-/

namespace MkvCodec.Encoder

open Concurrency SlotPool

/-! ## The pool -/

/-- `CpuFramePool`, without its lock and its condition variable. -/
structure CpuFramePool where
  slots : List Slot
  inUse : Nat
  peakInUse : Nat
  acquisitions : UInt64
  rejectedAcquisitions : UInt64
  waitNs : UInt64
  leaseTimeNs : UInt64
  peakLeaseTimeNs : UInt64

namespace CpuFramePool

def new (capacity : UInt32) : CpuFramePool := ⟨List.replicate capacity.toNat ⟨false, 0⟩, 0, 0, 0, 0, 0, 0, 0⟩

def timedOut (timeoutMs : UInt32) : Status :=
  ⟨if timeoutMs = 0 then .wouldBlock else .errorTimeout, "native CPU frame pool acquire timed out"⟩

def noFreeSlot : Status := ⟨.wouldBlock, "native CPU frame pool has no free slot"⟩

/-- `acquire` once its wait is over: the slot and its generation, or why there is none. -/
def acquire (p : CpuFramePool) (timeoutMs : UInt32) (ns : UInt64) : Option (CpuFramePool × Except Status (Nat × Nat)) :=
  let waited := { p with waitNs := p.waitNs + ns }
  match firstFree p.slots with
  | none =>
      -- the wait without a limit goes on
      if timeoutMs = 0xFFFFFFFF then none
      else some ({ waited with rejectedAcquisitions := p.rejectedAcquisitions + 1 }, .error (timedOut timeoutMs))
  | some index =>
      match p.slots[index]? with
      | none => some ({ p with rejectedAcquisitions := p.rejectedAcquisitions + 1 }, .error noFreeSlot)
      | some slot =>
          let nextGeneration := (slot.generation + 1) % 2 ^ 64
          let inUse := u32 (p.inUse + 1)
          some ({ waited with
            slots := p.slots.set index ⟨true, nextGeneration⟩
            acquisitions := p.acquisitions + 1
            inUse := inUse
            peakInUse := max p.peakInUse inUse }, .ok (index, nextGeneration))

/-- `get_view`, without the view. -/
def getView (p : CpuFramePool) (slot generation : Nat) : Status :=
  match p.slots[slot]? with
  | none => ⟨.errorInvalidState, "native CPU buffer slot is invalid"⟩
  | some slot =>
      if !slot.inUse || decide (slot.generation ≠ generation) then
        ⟨.errorInvalidState, "native CPU buffer generation is stale"⟩
      else .ok

def recycle (p : CpuFramePool) (slot generation : Nat) (leaseNs : UInt64) : CpuFramePool :=
  match giveBack p.slots slot generation with
  | none => p
  | some slots =>
      { p with
        slots := slots
        inUse := if p.inUse ≠ 0 then p.inUse - 1 else p.inUse
        leaseTimeNs := p.leaseTimeNs + leaseNs
        peakLeaseTimeNs := max p.peakLeaseTimeNs leaseNs }

end CpuFramePool

/-! ## Leases and submissions -/

/-- `CpuBufferLease`. `handle` says whether its `mkvc_cpu_buffer` is there. -/
structure CpuBufferLease where
  slot : Nat
  generation : Nat
  handle : Bool

/-- `CpuSubmission` with its owner, a lease. `released` says whether `mkvc_submission_release` has returned. -/
structure OwningSubmission where
  state : CpuSubmission
  owner : Option Nat
  released : Bool

namespace OwningSubmission

def new : OwningSubmission := ⟨.new, none, false⟩

def setOwner (s : OwningSubmission) (owner : Nat) : OwningSubmission :=
  if !s.state.terminal then { s with owner := some owner } else s

def complete (s : OwningSubmission) (status : Status) : OwningSubmission :=
  if s.state.terminal then s else { s with state := s.state.complete status, owner := none }

end OwningSubmission

/-- Where a call of `mkvc_encoder_submit_cpu_buffer` is: before `get_view`, before `submit_borrowed`, before `set_owner`, or
behind its return. -/
inductive SubmitPc
  | getView
  | submitBorrowed
  | setOwner
  | returned (status : Status)

def SubmitPc.running : SubmitPc → Bool
  | .returned _ => false
  | _ => true

/-- A call with the lease behind its buffer, and the submission that it has made. -/
structure SubmitCall where
  buffer : Nat
  pc : SubmitPc
  submission : Option OwningSubmission

/-! ## Steps -/

/-- `lease` are the leases whose destructor has not run, in the order of their acquisitions. `issued` are the slots that were
acquired, the latest first, and `recycled` counts the slots that were given back; the code has neither. -/
structure CpuPoolState where
  pool : CpuFramePool
  owner : Bool
  lease : Nat → Option CpuBufferLease
  next : Nat
  call : Nat → Option SubmitCall
  calls : Nat
  issued : List (Nat × Nat)
  recycled : Nat

inductive CpuPoolLabel
  | acquire (timeoutMs : UInt32) (ns : UInt64)
  | releaseBuffer (k : Nat)
  | recycle (k : Nat) (leaseNs : UInt64)
  | enter (k : Nat)
  | getView (c : Nat)
  | submitBorrowed (c : Nat) (answer : CallEnd)
  | setOwner (c : Nat)
  | complete (c : Nat) (status : Status)
  | releaseSubmission (c : Nat)
  | destroyPool

namespace CpuPoolState

def init (capacity : UInt32) : CpuPoolState := ⟨.new capacity, true, fun _ => none, 0, fun _ => none, 0, [], 0⟩

def setLease (s : CpuPoolState) (k : Nat) (lease : Option CpuBufferLease) : CpuPoolState :=
  { s with lease := Function.update s.lease k lease }

def setCall (s : CpuPoolState) (c : Nat) (call : SubmitCall) : CpuPoolState :=
  { s with call := Function.update s.call c (some call) }

/-- The handle of the pool and every lease hold a `shared_ptr` to it. -/
def alive (s : CpuPoolState) : Bool := s.owner || (List.range s.next).any fun k => (s.lease k).isSome

/-- Some call has this property. -/
def anyCall (s : CpuPoolState) (p : SubmitCall → Bool) : Bool := (List.range s.calls).any fun c => (s.call c).any p

/-- A call is still inside with the buffer of this lease. -/
def busy (s : CpuPoolState) (k : Nat) : Bool := s.anyCall fun call => call.pc.running && decide (call.buffer = k)

/-- A submission owns this lease. -/
def owned (s : CpuPoolState) (k : Nat) : Bool :=
  s.anyCall fun call => call.submission.any fun submission => decide (submission.owner = some k)

/-- One step. The caller keeps a buffer while it submits it; the worker, a cancellation or a failure may complete any
submission at any time. -/
def step (s : CpuPoolState) : CpuPoolLabel → Option CpuPoolState
  | .acquire timeoutMs ns =>
      if !s.alive then none
      else
        (s.pool.acquire timeoutMs ns).map fun
          | (pool, .error _) => { s with pool := pool }
          | (pool, .ok (slot, generation)) =>
              { s.setLease s.next (some ⟨slot, generation, true⟩) with
                pool := pool
                next := s.next + 1
                issued := (slot, generation) :: s.issued }
  | .releaseBuffer k =>
      (s.lease k).bind fun lease =>
        if !lease.handle || s.busy k then none else some (s.setLease k (some { lease with handle := false }))
  | .recycle k leaseNs =>
      (s.lease k).bind fun lease =>
        if lease.handle || s.owned k then none
        else
          some { s.setLease k none with
            pool := s.pool.recycle lease.slot lease.generation leaseNs
            recycled :=
              if (giveBack s.pool.slots lease.slot lease.generation).isSome then s.recycled + 1 else s.recycled }
  | .enter k =>
      (s.lease k).bind fun lease =>
        if !lease.handle then none
        else some { s.setCall s.calls ⟨k, .getView, none⟩ with calls := s.calls + 1 }
  | .getView c =>
      (s.call c).bind fun call =>
        match call.pc with
        | .getView =>
            (s.lease call.buffer).map fun lease =>
              let status := s.pool.getView lease.slot lease.generation
              s.setCall c { call with pc := if status.result ≠ .ok then .returned status else .submitBorrowed }
        | _ => none
  | .submitBorrowed c answer =>
      (s.call c).bind fun call =>
        match call.pc with
        | .submitBorrowed =>
            match answer with
            | .returned status =>
                if status.result ≠ .ok then some (s.setCall c { call with pc := .returned status })
                else some (s.setCall c { call with pc := .setOwner, submission := some .new })
            | .threw what =>
                let status := guard "unknown native CPU buffer submission failure" what
                some (s.setCall c { call with pc := .returned status })
        | _ => none
  | .setOwner c =>
      (s.call c).bind fun call =>
        match call.pc with
        | .setOwner =>
            call.submission.map fun submission =>
              s.setCall c ⟨call.buffer, .returned .ok, some (submission.setOwner call.buffer)⟩
        | _ => none
  | .complete c status =>
      (s.call c).bind fun call => call.submission.map fun submission =>
        s.setCall c { call with submission := some (submission.complete status) }
  | .releaseSubmission c =>
      (s.call c).bind fun call => call.submission.bind fun submission =>
        -- `wait` without a limit
        if call.pc.running || submission.released || !submission.state.terminal then none
        else some (s.setCall c { call with submission := some { submission with released := true } })
  | .destroyPool => if s.owner then some { s with owner := false } else none

def Step (s : CpuPoolState) (l : CpuPoolLabel) (t : CpuPoolState) : Prop := s.step l = some t

end CpuPoolState

end MkvCodec.Encoder
