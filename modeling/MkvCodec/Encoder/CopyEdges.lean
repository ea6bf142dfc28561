import MkvCodec.Encoder.Accepted
import MkvCodec.Encoder.Closing
import MkvCodec.Encoder.Metrics
import MkvCodec.Metrics.CopyEdges

/-!
# Copy metrics of an encoder session

The copy path and the copy edges over the metered sections of a session. The worker records the edges of what it has encoded under the
lock. The functions of `encoder_session.cpp` record theirs without it, when they are about to return.
-/

namespace MkvCodec.Encoder

open Concurrency

/-- `copy_path` and `copy_edge_metrics`. `cpuFrames` and `gpuFrames` count the frames that were recorded as completed, for
specifications only. -/
structure CopyRecord where
  path : CopyPath
  edges : CopyEdge → Nat
  cpuFrames : Nat
  gpuFrames : Nat

def CopyRecord.zero : CopyRecord := ⟨.unknown, fun _ => 0, 0, 0⟩

/-- The format of the frame in an item. -/
def Item.format? : Item → Option PixelFormat
  | .owned frame _ => some frame.pixelFormat
  | .borrowed frame _ => some frame.pixelFormat
  | .flush _ => none

/-- The format that a backend encodes without a conversion. -/
def nativeFormat (hardware : Bool) : PixelFormat := if hardware then .nv12 else .i420

/-- What is added for a frame that the backend has encoded. -/
def addEncoded (hardware : Bool) (format : Option PixelFormat) (edges : CopyEdge → Nat) : CopyEdge → Nat :=
  let edges := if hardware then addEdge .cpuUpload edges else edges
  if format ≠ some (nativeFormat hardware) then addEdge .pixelConversion edges else edges

namespace CopyRecord

variable (hardware : Bool) (r : CopyRecord)

/-- A frame that the worker has encoded. -/
def served (item : Item) : CopyRecord :=
  let edges := if item.submission?.isSome then addEdge .cpuNormalization r.edges else r.edges
  { r with
    edges := addEncoded hardware item.format? edges
    path := observeCopyPath r.path .cpu
    cpuFrames := r.cpuFrames + 1 }

def worker (w : WorkerPc) : CopyRecord :=
  match w with
  | .record item status => if item.isFrame && decide (status.result = .ok) then r.served hardware item else r
  | _ => r

/-- The end of `write`, of `write_borrowed` and of `submit_borrowed`. -/
def returned (cfg : Config) (c : Call) (edges : CopyEdge → Nat) : CopyEdge → Nat :=
  match c with
  | .write frame | .tryWrite frame =>
      let edges := addEdge .cpuNormalization edges
      if cfg.capacity = 0 then addEncoded hardware (some frame.pixelFormat) edges else edges
  | .writeBorrowed frame =>
      addEncoded hardware (some frame.pixelFormat) (addEdge .cpuNormalization (addEdge .zeroCopy edges))
  | .submitBorrowed _ => addEdge .zeroCopy edges
  | _ => edges

def client (cfg : Config) (k : Client) : CopyRecord :=
  match k.pc, k.current with
  | .writeCpuSyncRecord status, _ =>
      if status.result = .ok then { r with path := observeCopyPath r.path .cpu, cpuFrames := r.cpuFrames + 1 } else r
  | .returning status, some c => if status.result = .ok then { r with edges := returned hardware cfg c r.edges } else r
  | _, _ => r

/-- `write_gpu`. -/
def writeGpu (cfg : Config) (a : Impl) (ended : CallEnd) : CopyRecord :=
  match gpuRefusal cfg a, ended with
  | none, .returned status =>
      if status.result = .ok then
        { path := observeCopyPath r.path .zeroCopy
          edges := addEdge .zeroCopy (addEdge .sharedSurface r.edges)
          cpuFrames := r.cpuFrames
          gpuFrames := r.gpuFrames + 1 }
      else r
  | _, _ => r

end CopyRecord

variable {ι : Type*}

def copyMeter (cfg : Config) (hardware : Bool) (s : SessionState ι) (l : MeteredLabel ι) (r : CopyRecord) : CopyRecord :=
  match l with
  | .session (.worker _) _ => r.worker hardware s.worker
  | .session (.client i _) _ => r.client hardware cfg (s.client i)
  | .session _ _ => r
  | .writeGpu _ ended _ => r.writeGpu cfg s.shared ended

/-- The steps of a session with its copy metrics. -/
abbrev CopyStep [DecidableEq ι] (cfg : Config) (hardware : Bool) :
    SessionState ι × CopyRecord → MeteredLabel ι → SessionState ι × CopyRecord → Prop :=
  Watch (fun s l t => meteredStep cfg s l = some t) (copyMeter cfg hardware)

/-! ## The account -/

/-- A frame of a format goes over an edge in the backend. -/
def encodes (hardware : Bool) (edge : CopyEdge) (format : Option PixelFormat) : Bool :=
  match edge with
  | .cpuUpload => hardware
  | .pixelConversion => decide (format ≠ some (nativeFormat hardware))
  | _ => false

/-- The worker has the frame of an item go over an edge. -/
def Item.takes (hardware : Bool) (edge : CopyEdge) (item : Item) : Bool :=
  item.isFrame && ((decide (edge = .cpuNormalization) && item.submission?.isSome) || encodes hardware edge item.format?)

/-- The frame of an item goes over an edge before it is queued. -/
def Item.enters (edge : CopyEdge) : Item → Bool
  | .owned _ _ => decide (edge = .cpuNormalization)
  | .borrowed _ _ => decide (edge = .zeroCopy)
  | .flush _ => false

/-- The backend has encoded a frame that goes over an edge. -/
def BackendCall.takes (hardware : Bool) (edge : CopyEdge) : BackendCall → Bool
  | .item served (.returned status) => served.takes hardware edge && decide (status.result = .ok)
  | .write frame (.returned status) =>
      (decide (edge = .cpuNormalization) || encodes hardware edge (some frame.pixelFormat)) && decide (status.result = .ok)
  | _ => false

/-- A frame that goes over an edge and has been encoded, but not recorded. -/
def WorkerPc.takes (hardware : Bool) (edge : CopyEdge) : WorkerPc → Nat
  | .record item status => (item.takes hardware edge && decide (status.result = .ok)).toNat
  | _ => 0

/-- A call that returns OK records an edge. The `zero_copy` of a synchronous borrowed write is left to its return. -/
def Call.owes (cfg : Config) (hardware : Bool) (edge : CopyEdge) : Call → Bool
  | .write frame | .tryWrite frame =>
      decide (edge = .cpuNormalization) || decide (cfg.capacity = 0) && encodes hardware edge (some frame.pixelFormat)
  | .writeBorrowed frame => decide (edge = .cpuNormalization) || encodes hardware edge (some frame.pixelFormat)
  | .submitBorrowed _ => decide (edge = .zeroCopy)
  | _ => false

/-- A client that is about to record an edge. -/
def ClientPc.owes (cfg : Config) (hardware : Bool) (edge : CopyEdge) (c : Call) : ClientPc → Nat
  | .writeCpuSyncRecord status | .returning status => (c.owes cfg hardware edge && decide (status.result = .ok)).toNat
  | _ => 0

def Client.owes (cfg : Config) (hardware : Bool) (edge : CopyEdge) (k : Client) : Nat :=
  match k.current with
  | some c => k.pc.owes cfg hardware edge c
  | none => 0

/-- A synchronous write of a borrowed frame, where it shares its memory. -/
def lends (edge : CopyEdge) : Call × Status → Bool
  | (.writeBorrowed _, status) => decide (edge = .zeroCopy) && decide (status.result = .ok)
  | _ => false

def Client.lent (edge : CopyEdge) (k : Client) : Nat := k.history.countP (lends edge)

/-- An edge of every GPU frame. -/
def ofGpu (edge : CopyEdge) : Bool := decide (edge = .sharedSurface) || decide (edge = .zeroCopy)

/-- The copy path is that of the recorded frames, and they are the completed ones. Every edge has been recorded once for each frame
that has gone over it, but for those that the worker or a client is about to record. -/
structure CopiesAccounted (cfg : Config) (hardware : Bool) [Fintype ι] (s : SessionState ι × CopyRecord) : Prop where
  path : s.2.path = pathOf s.2.cpuFrames s.2.gpuFrames
  completed : s.1.shared.completedFrames = s.2.cpuFrames + s.2.gpuFrames
  encoded : s.1.shared.calls.countP BackendCall.writesOk =
    s.2.cpuFrames + s.1.worker.unrecorded + ∑ i, (s.1.client i).pc.unrecorded
  edges : ∀ edge, s.2.edges edge + s.1.worker.takes hardware edge + ∑ i, (s.1.client i).owes cfg hardware edge =
    s.1.shared.calls.countP (BackendCall.takes hardware edge) + s.1.shared.admitted.countP (Item.enters edge) +
      (∑ i, (s.1.client i).lent edge) + (if ofGpu edge then s.2.gpuFrames else 0)

/-! ## Records -/

variable {cfg : Config} {hardware : Bool} {a : Impl} {r : CopyRecord} {edge : CopyEdge}

theorem addEdge_apply (e : CopyEdge) (edges : CopyEdge → Nat) (edge : CopyEdge) :
    addEdge e edges edge = edges edge + (decide (edge = e)).toNat := by
  by_cases he : edge = e
  · simp [he, addEdge_self]
  · simp [he, addEdge_of_ne he]

theorem addEncoded_apply (format : Option PixelFormat) (edges : CopyEdge → Nat) :
    addEncoded hardware format edges edge = edges edge + (encodes hardware edge format).toNat := by
  have hif : ∀ (b : Prop) [Decidable b] (e : CopyEdge) (edges : CopyEdge → Nat),
      (if b then addEdge e edges else edges) edge = edges edge + (decide (edge = e) && decide b).toNat := by
    intro b _ e edges
    by_cases hb : b <;> simp [hb, addEdge_apply]
  simp only [addEncoded, hif]
  cases edge <;> simp [encodes]

/-- What is recorded of a frame are the edges that it goes over. -/
theorem served_edges {item : Item} (hframe : item.isFrame = true) :
    (r.served hardware item).edges edge = r.edges edge + (item.takes hardware edge).toNat := by
  simp only [CopyRecord.served, addEncoded_apply]
  by_cases hborrowed : item.submission?.isSome
  · simp only [hborrowed, ↓reduceIte, addEdge_apply, Item.takes, hframe]
    cases edge <;> simp [encodes]
  · simp [hborrowed, Item.takes, hframe]

/-- What is recorded of a call are the edges that it owes and those that it lends. -/
theorem returned_edges (c : Call) {status : Status} (hok : status.result = .ok) (edges : CopyEdge → Nat) :
    CopyRecord.returned hardware cfg c edges edge =
      edges edge + (c.owes cfg hardware edge).toNat + (lends edge (c, status)).toNat := by
  cases c with
  | write frame | tryWrite frame =>
      by_cases hcap : cfg.capacity = 0
      · simp only [CopyRecord.returned, hcap, ↓reduceIte, addEncoded_apply, addEdge_apply, Call.owes, lends]
        cases edge <;> simp [encodes]
      · simp [CopyRecord.returned, hcap, addEdge_apply, Call.owes, lends]
  | writeBorrowed frame =>
      simp only [CopyRecord.returned, addEncoded_apply, addEdge_apply, Call.owes, lends]
      cases edge <;> simp [encodes, hok]
  | submitBorrowed frame => simp [CopyRecord.returned, addEdge_apply, Call.owes, lends]
  | _ => simp [CopyRecord.returned, Call.owes, lends]

variable (cfg hardware) in
/-- The record of a client counts the write that its section records. -/
theorem client_record (r : CopyRecord) (k : Client) (hpath : r.path = pathOf r.cpuFrames r.gpuFrames) :
    (r.client hardware cfg k).gpuFrames = r.gpuFrames ∧
      (r.client hardware cfg k).cpuFrames = r.cpuFrames + k.pc.unrecorded ∧
      (r.client hardware cfg k).path = pathOf (r.client hardware cfg k).cpuFrames (r.client hardware cfg k).gpuFrames := by
  obtain ⟨pc, current, history⟩ := k
  cases pc with
  | writeCpuSyncRecord status =>
      by_cases hok : status.result = .ok
      · simp [CopyRecord.client, ClientPc.unrecorded, hok, hpath, observeCopyPath_cpu]
      · simp [CopyRecord.client, ClientPc.unrecorded, hok, hpath]
  | returning status =>
      cases current with
      | none => exact ⟨rfl, rfl, hpath⟩
      | some c => by_cases hok : status.result = .ok <;> simp [CopyRecord.client, ClientPc.unrecorded, hok, hpath]
  | _ => exact ⟨rfl, rfl, hpath⟩

variable (hardware r) in
/-- A section of the worker records the frame that it completes. -/
theorem WorkerEffect.completes {w : WorkerPc} {e : Choice} {o : WorkerSection} (h : WorkerEffect a w e o)
    (hpath : r.path = pathOf r.cpuFrames r.gpuFrames) :
    o.shared.completedFrames + r.cpuFrames = a.completedFrames + (r.worker hardware w).cpuFrames ∧
      (r.worker hardware w).gpuFrames = r.gpuFrames ∧
      (r.worker hardware w).path = pathOf (r.worker hardware w).cpuFrames (r.worker hardware w).gpuFrames := by
  cases h with
  | @failure item status hne => simp [CopyRecord.worker, recordFailure, Impl.recycle, hne, hpath]
  | @success item status hok =>
      cases item <;> simp [CopyRecord.worker, CopyRecord.served, recordSuccess, Impl.recycle, Item.isFrame, hok, hpath,
        observeCopyPath_cpu] <;> omega
  | _ => exact ⟨rfl, rfl, hpath⟩

variable (hardware r) in
/-- What a section of the worker does to the account of an edge. -/
theorem WorkerEffect.takes {w : WorkerPc} {e : Choice} {o : WorkerSection} (h : WorkerEffect a w e o) (edge : CopyEdge) :
    (r.worker hardware w).edges edge + a.calls.countP (BackendCall.takes hardware edge) + o.loc.takes hardware edge =
      r.edges edge + o.shared.calls.countP (BackendCall.takes hardware edge) + w.takes hardware edge := by
  cases h with
  | asleep | stop | pop | finish | finishFailed | handler => rfl
  | @served item status =>
      cases htakes : item.takes hardware edge && decide (status.result = .ok) with
      | false => simp [CopyRecord.worker, Impl.called, BackendCall.takes, WorkerPc.takes, htakes]
      | true =>
          simp [CopyRecord.worker, Impl.called, BackendCall.takes, WorkerPc.takes, htakes]
          omega
  | @threw item what => simp [CopyRecord.worker, Impl.called, BackendCall.takes, WorkerPc.takes]
  | @failure item status hne =>
      simp [CopyRecord.worker, recordFailure, Impl.recycle, WorkerPc.takes, hne]
  | @success item status hok =>
      have hcalls : (recordSuccess item a).shared.calls = a.calls := by cases item <;> rfl
      have hloc : (recordSuccess item a).loc = .loop := by cases item <;> rfl
      have htakes : (r.worker hardware (.record item status)).edges edge = r.edges edge + (item.takes hardware edge).toNat := by
        by_cases hframe : item.isFrame = true
        · simp [CopyRecord.worker, hframe, hok, served_edges hframe]
        · simp [CopyRecord.worker, hframe, Item.takes]
      rw [htakes, hcalls, hloc]
      simp [WorkerPc.takes, hok]
      omega
  | closed | closeThrew => simp [CopyRecord.worker, Impl.called, BackendCall.takes, WorkerPc.takes]

/-! ## Clients -/

theorem owes_of_not_writes {c : Call} (hc : c.writes = false) : c.owes cfg hardware edge = false := by
  cases c with
  | write | tryWrite | writeBorrowed | submitBorrowed => cases hc
  | _ => rfl

theorem enqueueBorrowedSpace_owes {frame : FrameView} (hreports : a.Reports) :
    (enqueueBorrowedSpace cfg frame a).loc.owes cfg hardware edge (.submitBorrowed frame) + a.admitted.countP (Item.enters edge) =
      (enqueueBorrowedSpace cfg frame a).shared.admitted.countP (Item.enters edge) := by
  unfold enqueueBorrowedSpace
  split
  · simp [sleepOn, ClientPc.owes]
  split
  case isTrue hf => simp [reply, goto, ClientPc.owes, hreports hf]
  split
  · simp [reply, goto, ClientPc.owes, stoppedResult_ne_ok a]
  · by_cases he : edge = .zeroCopy <;>
      simp [notifying, reply, goto, Impl.pushFrame, Impl.push, ClientPc.owes, Call.owes, Item.enters, he, Nat.add_comm]

/-- The calls that write nothing queue no frame. -/
theorem clientSection_admitted {pc : ClientPc} {c : Call} {o : Section} (h : clientSection cfg a pc = some o)
    (hpc : pc.Within cfg c) (hc : c.writes = false) :
    o.shared.admitted.countP (Item.enters edge) = a.admitted.countP (Item.enters edge) := by
  cases clientSection_effect h with
  | pushOwned hpush =>
      obtain ⟨block, rfl⟩ := hpush
      rw [hpc.2] at hc
      cases block <;> cases hc
  | pushBorrowed hpush =>
      rcases hpush with rfl | rfl
      · rw [show c = _ from hpc] at hc
        cases hc
      · rw [hpc.2] at hc
        cases hc
  | pushFlush => simp [Impl.pushFlush, Impl.push, Item.enters]
  | _ => rfl

variable (hardware edge) in
/-- A section of a client owes what it has queued. -/
theorem clientSection_owes {pc : ClientPc} {c : Call} {o : Section} (h : clientSection cfg a pc = some o) (hpc : pc.Within cfg c)
    (hreports : a.Reports) (hknows : pc.Knows cfg) :
    o.loc.owes cfg hardware edge c + a.admitted.countP (Item.enters edge) =
      pc.owes cfg hardware edge c + o.shared.admitted.countP (Item.enters edge) := by
  cases hc : c.writes with
  | false =>
      have hnone : ∀ pc' : ClientPc, pc'.owes cfg hardware edge c = 0 := by
        intro pc'
        cases pc' <;> simp [ClientPc.owes, owes_of_not_writes hc]
      rw [hnone, hnone, clientSection_admitted h hpc hc]
  | true =>
      cases pc with
      | write frame block =>
          cases h
          unfold write
          split
          · simp [reply, goto, ClientPc.owes, prohibited]
          split
          case isTrue hf => simp [reply, goto, ClientPc.owes, hreports hf]
          split
          · simp [reply, goto, ClientPc.owes]
          split
          · simp [reply, goto, ClientPc.owes, stoppedResult_ne_ok a]
          split
          case isTrue hne => simp [reply, goto, ClientPc.owes, hne]
          · split <;> simp [goto, ClientPc.owes]
      | writeBorrowed frame =>
          cases h
          unfold writeBorrowed
          split
          · simp [reply, goto, ClientPc.owes]
          split
          case isTrue hf => simp [reply, goto, ClientPc.owes, hreports hf]
          split
          · simp [reply, goto, ClientPc.owes, stoppedResult_ne_ok a]
          · simp [goto, ClientPc.owes]
      | writeCpuSyncRecord status =>
          cases h
          unfold writeCpuSyncRecord
          split
          case isTrue hok => simp [reply, goto, ClientPc.owes, hok]
          case isFalse hne => simp [reply, goto, ClientPc.owes, hne]
      | enqueueOwned frame block =>
          cases h
          unfold enqueueOwned
          split
          case isTrue hf => simp [reply, goto, ClientPc.owes, hreports hf]
          split
          · simp [reply, goto, ClientPc.owes, stoppedResult_ne_ok a]
          split
          · simp [reply, goto, ClientPc.owes, dimensionMismatch]
          · simp [goto, ClientPc.owes]
      | enqueueOwnedSpace frame block =>
          cases h
          unfold enqueueOwnedSpace
          split
          · simp [reply, goto, ClientPc.owes, wouldBlock]
          split
          · simp [sleepOn, ClientPc.owes]
          split
          case isTrue hf => simp [reply, goto, ClientPc.owes, hreports hf]
          split
          · simp [reply, goto, ClientPc.owes, stoppedResult_ne_ok a]
          split
          · simp [reply, goto, ClientPc.owes, wouldBlock]
          · split <;> simp [reply, goto, ClientPc.owes, wouldBlock]
      | enqueueOwnedCopy frame block owned =>
          cases h
          unfold enqueueOwnedCopy
          split
          split <;> simp [goto, ClientPc.owes]
      | enqueueOwnedReturn owned status =>
          cases h
          have hstatus : status.result ≠ .ok := hknows
          simp [enqueueOwnedReturn, notifying, reply, goto, Impl.returnFrame, ClientPc.owes, hstatus]
      | enqueueOwnedPush frame block owned =>
          cases h
          obtain ⟨hcap, rfl⟩ := hpc
          unfold enqueueOwnedPush
          split
          · simp [sleepOn, ClientPc.owes]
          split
          case isTrue hf => simp [reply, goto, ClientPc.owes, hreports hf, Impl.returnFrame]
          split
          · simp [reply, goto, ClientPc.owes, stoppedResult_ne_ok a, Impl.returnFrame]
          split
          · simp [notifying, reply, goto, ClientPc.owes, wouldBlock, Impl.returnFrame]
          · by_cases he : edge = .cpuNormalization <;> cases block <;>
              simp [notifying, reply, goto, Impl.pushFrame, Impl.push, ClientPc.owes, Call.owning, Call.owes, Item.enters, hcap, he,
                Nat.add_comm]
      | submitBorrowed frame =>
          cases h
          unfold submitBorrowed
          split
          case isTrue hne => simp [reply, goto, ClientPc.owes, hne]
          · simp [goto, ClientPc.owes]
      | enqueueBorrowed frame =>
          cases h
          obtain rfl : c = .submitBorrowed frame := hpc
          unfold enqueueBorrowed
          split
          · simp [reply, goto, ClientPc.owes, dimensionMismatch]
          split
          case isTrue hne => simp [reply, goto, ClientPc.owes, hne]
          split
          · simp [reply, goto, ClientPc.owes]
          split
          · simp [reply, goto, ClientPc.owes, prohibited]
          · rw [enqueueBorrowedSpace_owes hreports]
            simp [ClientPc.owes]
      | enqueueBorrowedSpace frame =>
          cases h
          rw [hpc.2, enqueueBorrowedSpace_owes hreports]
          simp [ClientPc.owes]
      | idle | writeCpuSync | flushSync | closeSync | returning => cases h
      | flush | cancel | close | setCopyPolicy | setCpuLayoutPolicy =>
          rw [show c = _ from hpc] at hc
          cases hc
      | flushSyncRecord | flushSpace | flushWait | closeSyncRecord | closeJoin =>
          rw [hpc.2] at hc
          cases hc

theorem countP_concat {α : Type*} (p : α → Bool) (xs : List α) (x : α) : (xs ++ [x]).countP p = xs.countP p + (p x).toNat := by
  cases h : p x <;> simp [List.countP_append, h]

/-- Edges are recorded where a call returns. -/
theorem client_edges {k : Client} (hpc : ∀ status, k.pc ≠ .returning status) : (r.client hardware cfg k).edges = r.edges := by
  obtain ⟨pc, current, history⟩ := k
  cases pc with
  | returning status => exact absurd rfl (hpc status)
  | writeCpuSyncRecord status => by_cases hok : status.result = .ok <;> simp [CopyRecord.client, hok]
  | _ => rfl

variable (hardware edge) in
/-- A backend call of a client owes what the backend has encoded. -/
theorem clientBackend_owes {m : String} {ended : CallEnd} {pc : ClientPc} {c : Call} {o : Section}
    (h : clientBackend m ended a pc = some o) (hpc : pc.Within cfg c) :
    o.loc.owes cfg hardware edge c + a.calls.countP (BackendCall.takes hardware edge) =
        pc.owes cfg hardware edge c + o.shared.calls.countP (BackendCall.takes hardware edge) ∧
      o.shared.admitted = a.admitted ∧ o.loc.Knows cfg := by
  cases pc with
  | writeCpuSync frame =>
      obtain ⟨hcap, hcall⟩ := hpc
      have howes : c.owes cfg hardware edge =
          (decide (edge = .cpuNormalization) || encodes hardware edge (some frame.pixelFormat)) := by
        rcases hcall with ⟨block, rfl⟩ | rfl
        · cases block <;> simp [Call.owning, Call.owes, hcap]
        · rfl
      cases ended with
      | returned status =>
          cases h
          refine ⟨?_, rfl, trivial⟩
          simp only [goto, Impl.called, countP_concat, BackendCall.takes, ClientPc.owes, howes]
          omega
      | threw what =>
          cases h
          exact ⟨by simp [reply, goto, Impl.called, BackendCall.takes, ClientPc.owes, guard], rfl, trivial⟩
  | flushSync | closeSync =>
      cases ended <;> cases h <;>
        exact ⟨by simp [goto, reply, Impl.called, BackendCall.takes, ClientPc.owes, guard], rfl, trivial⟩
  | _ => cases h

variable (hardware edge) in
/-- What an action of a client does to the account of an edge. -/
theorem clientAct_owes {e : Choice} {k : Client} {o : Outcome Impl Client Cond} (h : clientAct cfg e a k = some o)
    (hplaced : k.Placed cfg) (hreports : a.Reports) (hknows : k.pc.Knows cfg) (r : CopyRecord) :
    (r.client hardware cfg k).edges edge + o.loc.owes cfg hardware edge + a.calls.countP (BackendCall.takes hardware edge) +
        a.admitted.countP (Item.enters edge) + k.lent edge =
      r.edges edge + k.owes cfg hardware edge + o.shared.calls.countP (BackendCall.takes hardware edge) +
        o.shared.admitted.countP (Item.enters edge) + o.loc.lent edge ∧ o.loc.pc.Knows cfg := by
  obtain ⟨pc, current, history⟩ := k
  cases clientAct_action h with
  | @start c hpc =>
      obtain rfl : pc = .idle := hpc
      cases current with
      | none => cases c <;> exact ⟨by simp [Call.entry, Client.owes, ClientPc.owes, CopyRecord.client, Client.lent], trivial⟩
      | some c' => exact hplaced.elim
  | @finish status c hpc hcur =>
      obtain rfl : pc = .returning status := hpc
      obtain rfl : current = some c := hcur
      refine ⟨?_, trivial⟩
      by_cases hok : status.result = .ok
      · simp only [CopyRecord.client, hok, ↓reduceIte, returned_edges c hok, Client.owes, ClientPc.owes, Client.lent, countP_concat,
          decide_true, Bool.and_true]
        omega
      · have hlends : lends edge (c, status) = false := by cases c <;> simp [lends, hok]
        simp [CopyRecord.client, hok, Client.owes, ClientPc.owes, Client.lent, hlends]
  | @act s hs =>
      cases current with
      | none =>
          obtain rfl : pc = .idle := hplaced
          cases hs
      | some c =>
          have howes := clientSection_owes hardware edge hs hplaced hreports hknows
          have hedges : (r.client hardware cfg ⟨pc, some c, history⟩).edges = r.edges :=
            client_edges fun status hpc => by
              rw [show pc = _ from hpc] at hs
              cases hs
          refine ⟨?_, clientSection_knows hs hknows⟩
          rw [hedges, (clientSection_writes hs).1]
          simp only [Client.owes, Client.lent] at howes ⊢
          omega
  | @threw what c frame block owned hpc hcur =>
      obtain rfl : pc = .enqueueOwnedCopy frame block owned := hpc
      obtain rfl : current = some c := hcur
      exact ⟨by simp [CopyRecord.client, Client.owes, ClientPc.owes, guard, Client.lent], trivial⟩
  | @backend ended c s hcur hs =>
      obtain rfl : current = some c := hcur
      obtain ⟨howes, hadmitted, hknows'⟩ := clientBackend_owes hardware edge hs hplaced
      have hedges : (r.client hardware cfg ⟨pc, some c, history⟩).edges = r.edges :=
        client_edges fun status hpc => by
          rw [show pc = _ from hpc] at hs
          cases hs
      refine ⟨?_, hknows'⟩
      rw [hedges, hadmitted]
      simp only [Client.owes, Client.lent] at howes ⊢
      omega

theorem clientAct_completed {e : Choice} {k : Client} {o : Outcome Impl Client Cond} (h : clientAct cfg e a k = some o) :
    o.shared.completedFrames = a.completedFrames + k.pc.unrecorded := by
  cases clientAct_action h with
  | start hpc | finish hpc | threw hpc =>
      rw [hpc]
      rfl
  | act hs => exact (clientSection_writes hs).2
  | backend hcur hs =>
      obtain ⟨-, hcompleted, -, -, hnone⟩ := clientBackend_writes hs
      rw [hnone]
      exact hcompleted

/-! ## GPU frames -/

/-- A GPU frame is recorded where it is completed. -/
theorem writeGpu_record (cfg : Config) (a : Impl) (ended : CallEnd) (r : CopyRecord)
    (hpath : r.path = pathOf r.cpuFrames r.gpuFrames) :
    ∃ written, (writeGpu cfg ended a).1 =
        { a with acceptedFrames := a.acceptedFrames + written, completedFrames := a.completedFrames + written } ∧
      (r.writeGpu cfg a ended).gpuFrames = r.gpuFrames + written ∧ (r.writeGpu cfg a ended).cpuFrames = r.cpuFrames ∧
      (r.writeGpu cfg a ended).path = pathOf r.cpuFrames (r.gpuFrames + written) ∧
      ∀ edge, (r.writeGpu cfg a ended).edges edge = r.edges edge + (if ofGpu edge then written else 0) := by
  unfold writeGpu CopyRecord.writeGpu
  cases gpuRefusal cfg a with
  | some status => exact ⟨0, rfl, rfl, rfl, hpath, fun _ => by simp⟩
  | none =>
      cases ended with
      | returned status =>
          by_cases hok : status.result = .ok
          · refine ⟨1, by simp [hok], by simp [hok], by simp [hok], by simp [hok, hpath, observeCopyPath_zeroCopy], fun edge => ?_⟩
            simp only [hok, ↓reduceIte, addEdge_apply]
            cases edge <;> simp [ofGpu]
          · exact ⟨0, by simp [hok], by simp [hok], by simp [hok], by simp [hok, hpath], by simp [hok]⟩
      | threw what => exact ⟨0, rfl, rfl, rfl, hpath, fun _ => by simp⟩

/-! ## Runs -/

variable [DecidableEq ι] [Fintype ι]

/-- The account, with what is known of the clients and of the end of a session. -/
structure CopySound (cfg : Config) (hardware : Bool) (s : SessionState ι × CopyRecord) : Prop where
  accounted : CopiesAccounted cfg hardware s
  placed : ∀ i, (s.1.client i).Placed cfg
  knows : ∀ i, (s.1.client i).pc.Knows cfg
  stops : Stops s.1.shared s.1.worker

theorem CopySound.step {s t : SessionState ι × CopyRecord} {l : MeteredLabel ι} (h : CopySound cfg hardware s)
    (hst : CopyStep cfg hardware s l t) : CopySound cfg hardware t := by
  obtain ⟨s, r⟩ := s
  obtain ⟨t, r'⟩ := t
  obtain ⟨hst, hmeter⟩ := hst
  obtain ⟨⟨hpath, hcompleted, hencoded, hedges⟩, hplaced, hknows, hstops⟩ := h
  change r' = copyMeter cfg hardware s l r at hmeter
  subst hmeter
  cases l with
  | session l elapsed =>
      have hst : Step cfg s l t := hst
      cases l with
      | worker e =>
          obtain ⟨_, o, ho, rfl⟩ := hst.worker_inv
          have heffect := workerAct_effect ho
          obtain ⟨hcompleted', hgpu, hpath'⟩ := heffect.completes hardware r hpath
          have hwrites := (heffect.account .zero 0).2
          refine ⟨⟨hpath', ?_, ?_, fun edge => ?_⟩, hplaced, hknows, heffect.stops hstops⟩
          · simp only [copyMeter, hgpu] at hcompleted ⊢
            omega
          · simp only [copyMeter] at hcompleted hencoded ⊢
            omega
          · have htakes := heffect.takes hardware r edge
            have hedge := hedges edge
            simp only [copyMeter, hgpu, heffect.admitted] at hedge ⊢
            omega
      | client i e =>
          obtain ⟨_, o, ho, rfl⟩ := hst.client_inv
          obtain ⟨hgpu, hcpu, hpath'⟩ := client_record cfg hardware r (s.client i) hpath
          have hreports : s.shared.Reports := fun hf => (hstops.failed hf).2
          have hcompleted' := clientAct_completed ho
          have hwrites := (clientAct_account ho .zero 0).2
          have hknows' := (clientAct_owes hardware .zeroCopy ho (hplaced i) hreports (hknows i) r).2
          refine ⟨⟨hpath', ?_, ?_, fun edge => ?_⟩, fun j => ?_, fun j => ?_, (clientAct_effect ho).stops hstops⟩
          · simp only [copyMeter, hgpu, hcpu] at hcompleted ⊢
            omega
          · have hsum := sum_update (fun k : Client => k.pc.unrecorded) s.client i o.loc
            simp only [copyMeter, hcpu] at hencoded hcompleted ⊢
            omega
          · have howes := (clientAct_owes hardware edge ho (hplaced i) hreports (hknows i) r).1
            have hsum := sum_update (fun k : Client => k.owes cfg hardware edge) s.client i o.loc
            have hsum' := sum_update (fun k : Client => k.lent edge) s.client i o.loc
            have hedge := hedges edge
            simp only [copyMeter, hgpu] at hedge ⊢
            omega
          · by_cases hij : j = i
            · subst hij
              simpa using clientAct_placed ho (hplaced j)
            · simpa [Function.update_of_ne hij] using hplaced j
          · by_cases hij : j = i
            · subst hij
              simpa using hknows'
            · simpa [Function.update_of_ne hij] using hknows j
      | wakeWorker =>
          rw [hst.wakeWorker_inv]
          exact ⟨⟨hpath, hcompleted, hencoded, hedges⟩, hplaced, hknows, hstops⟩
      | wake i =>
          rw [hst.wake_inv]
          exact ⟨⟨hpath, hcompleted, hencoded, hedges⟩, hplaced, hknows, hstops⟩
  | writeGpu i ended elapsed =>
      simp only [meteredStep] at hst
      split at hst <;> cases hst
      obtain ⟨written, hstate, hgpu, hcpu, hpath', hedges'⟩ := writeGpu_record cfg s.shared ended r hpath
      refine ⟨⟨?_, ?_, ?_, fun edge => ?_⟩, hplaced, hknows, ?_⟩
      · simp only [copyMeter, hgpu, hcpu, hpath']
      · simp only [copyMeter, hstate, hgpu, hcpu] at hcompleted ⊢
        omega
      · simp only [copyMeter, hstate, hcpu] at hencoded ⊢
        omega
      · have hedge := hedges edge
        simp only [copyMeter, hstate, hgpu, hedges' edge] at hedge ⊢
        by_cases hof : ofGpu edge = true
        · simp only [hof, ↓reduceIte] at hedge ⊢
          omega
        · simp only [hof, Bool.false_eq_true, ↓reduceIte] at hedge ⊢
          omega
      · simp only [hstate]
        exact ⟨hstops.failed, hstops.canceled, hstops.closeRequested, hstops.closing, hstops.failedClosing⟩

theorem copySound_init : CopySound cfg hardware ((SessionState.init cfg : SessionState ι), CopyRecord.zero) where
  accounted := {
    path := rfl
    completed := rfl
    encoded := by
      have hworker : (if cfg.capacity = 0 then WorkerPc.notStarted else .loop).unrecorded = 0 := by split <;> rfl
      simp [SessionState.init, Impl.init, Client.init, ClientPc.unrecorded, CopyRecord.zero, hworker]
    edges := fun edge => by
      have hworker : (if cfg.capacity = 0 then WorkerPc.notStarted else .loop).takes hardware edge = 0 := by split <;> rfl
      simp [SessionState.init, Impl.init, Client.init, Client.owes, Client.lent, CopyRecord.zero, hworker] }
  placed _ := rfl
  knows _ := trivial
  stops := session_stops .nil

/-! ## Single edges -/

/-- The worker has nothing to record, and no client is in a call. -/
structure AtRest (s : SessionState ι) : Prop where
  worker : ∀ item status, s.worker ≠ .record item status
  clients : ∀ i, (s.client i).pc = .idle

omit [DecidableEq ι] in
/-- An edge that no frame of the CPU goes over. -/
theorem CopiesAccounted.offCpu {s : SessionState ι × CopyRecord} (h : CopiesAccounted cfg hardware s)
    (hnorm : edge ≠ .cpuNormalization) (hzero : edge ≠ .zeroCopy) (hencodes : ∀ format, encodes hardware edge format = false) :
    s.2.edges edge = if ofGpu edge then s.2.gpuFrames else 0 := by
  have htakes : ∀ item : Item, item.takes hardware edge = false := by
    intro item
    simp [Item.takes, hnorm, hencodes]
  have hcalls : s.1.shared.calls.countP (BackendCall.takes hardware edge) = 0 := by
    refine List.countP_eq_zero.mpr fun call _ => ?_
    cases call with
    | item item ended => cases ended <;> simp [BackendCall.takes, htakes]
    | write frame ended => cases ended <;> simp [BackendCall.takes, hnorm, hencodes]
    | _ => simp [BackendCall.takes]
  have hadmitted : s.1.shared.admitted.countP (Item.enters edge) = 0 :=
    List.countP_eq_zero.mpr fun item _ => by cases item <;> simp [Item.enters, hnorm, hzero]
  have hworker : s.1.worker.takes hardware edge = 0 := by
    unfold WorkerPc.takes
    split
    · simp [htakes]
    · rfl
  have hlent : ∀ i, (s.1.client i).lent edge = 0 := by
    intro i
    refine List.countP_eq_zero.mpr ?_
    rintro ⟨c, status⟩ _
    cases c <;> simp [lends, hzero]
  have howes : ∀ i, (s.1.client i).owes cfg hardware edge = 0 := by
    intro i
    have hcall : ∀ c : Call, c.owes cfg hardware edge = false := by
      intro c
      cases c <;> simp [Call.owes, hnorm, hzero, hencodes]
    unfold Client.owes ClientPc.owes
    split
    · split <;> simp [hcall]
    · rfl
  have haccount := h.edges edge
  simp only [hcalls, hadmitted, hworker, hlent, howes, Finset.sum_const_zero] at haccount
  omega

omit [DecidableEq ι] in
theorem CopiesAccounted.upload {s : SessionState ι × CopyRecord} (h : CopiesAccounted cfg hardware s) (hrest : AtRest s.1) :
    s.2.edges .cpuUpload = if hardware then s.2.cpuFrames else 0 := by
  have hworker : s.1.worker.takes hardware .cpuUpload = 0 ∧ s.1.worker.unrecorded = 0 := by
    cases hw : s.1.worker with
    | record item status => exact absurd hw (hrest.worker item status)
    | _ => exact ⟨rfl, rfl⟩
  have hclients : ∀ i, (s.1.client i).owes cfg hardware .cpuUpload = 0 ∧ (s.1.client i).pc.unrecorded = 0 := by
    intro i
    unfold Client.owes
    rw [hrest.clients i]
    refine ⟨?_, rfl⟩
    split <;> rfl
  have hadmitted : s.1.shared.admitted.countP (Item.enters .cpuUpload) = 0 :=
    List.countP_eq_zero.mpr fun item _ => by cases item <;> simp [Item.enters]
  have hlent : ∀ i, (s.1.client i).lent .cpuUpload = 0 := by
    intro i
    refine List.countP_eq_zero.mpr ?_
    rintro ⟨c, status⟩ _
    cases c <;> simp [lends]
  have hcalls : s.1.shared.calls.countP (BackendCall.takes hardware .cpuUpload) =
      if hardware then s.1.shared.calls.countP BackendCall.writesOk else 0 := by
    cases hardware with
    | true =>
        refine List.countP_congr fun call _ => ?_
        cases call with
        | item item ended | write item ended => cases ended <;> simp [BackendCall.takes, BackendCall.writesOk, Item.takes, encodes]
        | _ => rfl
    | false =>
        refine List.countP_eq_zero.mpr fun call _ => ?_
        cases call with
        | item item ended | write item ended => cases ended <;> simp [BackendCall.takes, Item.takes, encodes]
        | _ => simp [BackendCall.takes]
  have hencoded := h.encoded
  have haccount := h.edges .cpuUpload
  simp only [hworker, hclients, hadmitted, hlent, hcalls, Finset.sum_const_zero] at haccount hencoded
  cases hardware <;> simp [ofGpu] at haccount ⊢ <;> omega

/-- In every reachable state of a session the copy path and the copy edges account for the frames that were encoded and for those
that were taken in. -/
theorem copies_accounted {ls : List (MeteredLabel ι)} {s : SessionState ι × CopyRecord}
    (hrun : Run (CopyStep cfg hardware) (SessionState.init cfg, .zero) ls s) :
    CopiesAccounted cfg hardware s ∧ s.2.edges .sharedSurface = s.2.gpuFrames ∧ s.2.edges .gpuCopy = 0 ∧
      s.2.edges .cpuReadback = 0 ∧ (AtRest s.1 → s.2.edges .cpuUpload = if hardware then s.2.cpuFrames else 0) := by
  have haccounted := (hrun.invariant (I := CopySound cfg hardware) copySound_init fun h hst => h.step hst).accounted
  refine ⟨haccounted, ?_, ?_, ?_, haccounted.upload⟩
  · exact haccounted.offCpu (by decide) (by decide) fun _ => rfl
  · exact haccounted.offCpu (by decide) (by decide) fun _ => rfl
  · exact haccounted.offCpu (by decide) (by decide) fun _ => rfl

/-- One frame of a session that queues one, recorded. -/
theorem firstCopy_run {s : SessionState Unit × CopyRecord}
    (h : exec (fun s l => if true then (meteredStep (.small 1 (by decide)) s.1 l).map fun t =>
      (t, copyMeter (.small 1 (by decide)) true s.1 l s.2) else none) (SessionState.init (.small 1 (by decide)), .zero)
        (firstFrame [.session (.worker .run) 0]) = some s) :
    Run (CopyStep (.small 1 (by decide)) true) (SessionState.init (.small 1 (by decide)), .zero)
      (firstFrame [.session (.worker .run) 0]) s :=
  (Run.watch_of_exec (C := fun _ _ => True) (fun _ _ => true) (fun _ _ _ => trivial) h).of_restrict

/-- A frame in another format than the one of the hardware is normalized, uploaded and converted. -/
theorem copies_accounted_small : ∃ s : SessionState Unit × CopyRecord,
    s.2.path = .cpu ∧ s.2.edges .cpuUpload = 1 ∧ s.2.edges .pixelConversion = 1 ∧ s.2.edges .sharedSurface = 0 ∧
      CopiesAccounted (.small 1 (by decide)) true s := by
  obtain ⟨s, hrun, hpath, hupload, hconversion, hgpu⟩ : ∃ s, Run (CopyStep (.small 1 (by decide)) true)
      (SessionState.init (.small 1 (by decide)), .zero) (firstFrame [.session (.worker .run) 0]) s ∧ s.2.path = .cpu ∧
        s.2.edges .cpuUpload = 1 ∧ s.2.edges .pixelConversion = 1 ∧ s.2.gpuFrames = 0 :=
    ⟨_, firstCopy_run rfl, rfl, rfl, rfl, rfl⟩
  obtain ⟨haccounted, hshared, -⟩ := copies_accounted hrun
  exact ⟨s, hpath, hupload, hconversion, hshared.trans hgpu, haccounted⟩

end MkvCodec.Encoder
