import MkvCodec.Encoder.Slots

/-!
# Pipeline metrics of an encoder session

The counters of frames and the stage metrics, over the sections of `encoder_backend_execution.cpp` and `encoder_worker.cpp` that record
them. GPU frames join here: `write_gpu` of `encoder_session.cpp` keeps the lock while the backend runs.
-/

namespace MkvCodec.Encoder

open Concurrency

/-! ## Stage metrics -/

/-- `backend_time_ns`, and `mkvc_pipeline_stage_metrics`. -/
structure StageMetrics where
  backendTime : UInt64
  frameCalls : UInt64
  frameTime : UInt64
  flushCalls : UInt64
  flushTime : UInt64
  closeCalls : UInt64
  closeTime : UInt64
  syncFrameCalls : UInt64
  syncFrameTime : UInt64
  workerFrameCalls : UInt64
  workerFrameTime : UInt64

def StageMetrics.zero : StageMetrics := ⟨0, 0, 0, 0, 0, 0, 0, 0, 0, 0, 0⟩

namespace StageMetrics

def frame (m : StageMetrics) (elapsed : UInt64) : StageMetrics :=
  { m with
    backendTime := m.backendTime + elapsed, frameCalls := m.frameCalls + 1, frameTime := m.frameTime + elapsed }

def syncFrame (m : StageMetrics) (elapsed : UInt64) : StageMetrics :=
  { m.frame elapsed with syncFrameCalls := m.syncFrameCalls + 1, syncFrameTime := m.syncFrameTime + elapsed }

def workerFrame (m : StageMetrics) (elapsed : UInt64) : StageMetrics :=
  { m.frame elapsed with workerFrameCalls := m.workerFrameCalls + 1, workerFrameTime := m.workerFrameTime + elapsed }

def flush (m : StageMetrics) (elapsed : UInt64) : StageMetrics :=
  { m with
    backendTime := m.backendTime + elapsed, flushCalls := m.flushCalls + 1, flushTime := m.flushTime + elapsed }

def close (m : StageMetrics) (elapsed : UInt64) : StageMetrics :=
  { m with
    backendTime := m.backendTime + elapsed, closeCalls := m.closeCalls + 1, closeTime := m.closeTime + elapsed }

/-- The backend time is that of the stages, in the arithmetic of `uint64_t`. -/
def Sums (m : StageMetrics) : Prop := m.backendTime = m.frameTime + m.flushTime + m.closeTime

variable {m : StageMetrics}

theorem Sums.frame (h : m.Sums) (elapsed : UInt64) : (m.frame elapsed).Sums := by
  simp only [Sums, StageMetrics.frame] at h ⊢
  rw [h]
  ac_rfl

theorem Sums.syncFrame (h : m.Sums) (elapsed : UInt64) : (m.syncFrame elapsed).Sums := h.frame elapsed

theorem Sums.workerFrame (h : m.Sums) (elapsed : UInt64) : (m.workerFrame elapsed).Sums := h.frame elapsed

theorem Sums.flush (h : m.Sums) (elapsed : UInt64) : (m.flush elapsed).Sums := by
  simp only [Sums, StageMetrics.flush] at h ⊢
  rw [h]
  ac_rfl

theorem Sums.close (h : m.Sums) (elapsed : UInt64) : (m.close elapsed).Sums := by
  simp only [Sums, StageMetrics.close] at h ⊢
  rw [h]
  ac_rfl

end StageMetrics

/-! ## Frames -/

def Item.isFrame : Item → Bool
  | .flush _ => false
  | _ => true

def frames (items : List Item) : Nat := items.countP Item.isFrame

/-- The frame in the worker's hands. -/
def WorkerPc.frames (w : WorkerPc) : Nat := Encoder.frames w.item?.toList

/-- A backend write that returned OK. -/
def BackendCall.writesOk : BackendCall → Bool
  | .item served (.returned status) => served.isFrame && decide (status.result = .ok)
  | .write _ (.returned status) => decide (status.result = .ok)
  | _ => false

/-- A backend write that returned OK and has not been recorded. -/
def WorkerPc.unrecorded : WorkerPc → Nat
  | .record item status => (item.isFrame && decide (status.result = .ok)).toNat
  | _ => 0

def ClientPc.unrecorded : ClientPc → Nat
  | .writeCpuSyncRecord status => (decide (status.result = .ok)).toNat
  | _ => 0

/-! ## The meter -/

/-- The stage metrics. `gpuWrites` counts the GPU writes of the backend that returned OK, `discarded` the frames that were discarded by
cancellation or failure, both for specifications only. -/
structure Meter where
  stages : StageMetrics
  gpuWrites : Nat
  discarded : Nat

def Meter.zero : Meter := ⟨.zero, 0, 0⟩

variable {ι : Type*}

/-- Whether `cancel` takes effect. -/
def Impl.cancels (a : Impl) : Bool := !(a.closed || a.canceled) && !a.failed

/-- What a section of the worker records, `elapsed` nanoseconds behind its start. A failure discards the frame in the worker's hands and
the queue, an exception only the former. -/
def Meter.worker (m : Meter) (a : Impl) (w : WorkerPc) (elapsed : UInt64) : Meter :=
  match w with
  | .record item status =>
      { m with
        stages := if item.isFrame then m.stages.workerFrame elapsed else m.stages.flush elapsed
        discarded := if status.result = .ok then m.discarded else m.discarded + frames (item :: a.queue) }
  | .recordClose _ _ => { m with stages := m.stages.close elapsed }
  | .unwind item _ _ => { m with discarded := m.discarded + frames item.toList }
  | _ => m

def Meter.client (m : Meter) (a : Impl) (pc : ClientPc) (elapsed : UInt64) : Meter :=
  match pc with
  | .writeCpuSyncRecord _ => { m with stages := m.stages.syncFrame elapsed }
  | .flushSyncRecord _ => { m with stages := m.stages.flush elapsed }
  | .closeSyncRecord _ => { m with stages := m.stages.close elapsed }
  | .cancel => { m with discarded := if a.cancels then m.discarded + frames a.queue else m.discarded }
  | _ => m

/-! ## `write_gpu` -/

variable (cfg : Config)

/-- The answer of `write_gpu` where it does not get to the backend. -/
def gpuRefusal (a : Impl) : Option Status :=
  if cfg.capacity ≠ 0 then some ⟨.errorNotSupported, "GPU frame submission currently requires queue_size=0"⟩
  else if a.failed then some a.terminal
  else if !a.accepting || a.closed then some (stoppedResult a)
  else if !cfg.supportsGpuFrames then some ⟨.errorNotSupported, "GPU frame is not compatible with this encoder backend"⟩
  else none

def writeGpu (ended : CallEnd) (a : Impl) : Impl × Status :=
  match gpuRefusal cfg a with
  | some status => (a, status)
  | none =>
      match ended with
      | .returned status =>
          if status.result = .ok then
            ({ a with acceptedFrames := a.acceptedFrames + 1, completedFrames := a.completedFrames + 1 }, .ok)
          else (a, status)
      | .threw what => (a, guard "unknown GPU frame write failure" what)

def Meter.writeGpu (m : Meter) (a : Impl) (ended : CallEnd) (elapsed : UInt64) : Meter :=
  match gpuRefusal cfg a, ended with
  | none, .returned status =>
      { m with
        stages := m.stages.syncFrame elapsed
        gpuWrites := if status.result = .ok then m.gpuWrites + 1 else m.gpuWrites }
  | _, _ => m

/-! ## Metered sessions -/

/-- A step of the session, with the time that its section reads off the clock; or an idle client writes a GPU frame. -/
inductive MeteredLabel (ι : Type*)
  | session (label : SessionLabel ι) (elapsed : UInt64)
  | writeGpu (client : ι) (ended : CallEnd) (elapsed : UInt64)

variable [DecidableEq ι]

def meteredStep (s : SessionState ι) : MeteredLabel ι → Option (SessionState ι)
  | .session label _ => (program cfg).step s label
  | .writeGpu i ended _ =>
      match (s.client i).pc with
      | .idle => some { s with shared := (writeGpu cfg ended s.shared).1 }
      | _ => none

def meter (s : SessionState ι) (l : MeteredLabel ι) (m : Meter) : Meter :=
  match l with
  | .session (.worker _) elapsed => m.worker s.shared s.worker elapsed
  | .session (.client i _) elapsed => m.client s.shared (s.client i).pc elapsed
  | .session _ _ => m
  | .writeGpu _ ended elapsed => m.writeGpu cfg s.shared ended elapsed

/-- The steps of a session with its meter. -/
abbrev MeteredStep : SessionState ι × Meter → MeteredLabel ι → SessionState ι × Meter → Prop :=
  Watch (fun s l t => meteredStep cfg s l = some t) (meter cfg)

/-! ## The account -/

/-- Every accepted frame is accounted for; the writes that returned OK are those completed and those not yet recorded; and the backend
time is that of the stages. -/
structure Accounted [Fintype ι] (s : SessionState ι × Meter) : Prop where
  frames : s.1.shared.acceptedFrames =
    s.1.shared.completedFrames + frames s.1.shared.queue + s.1.worker.frames + s.2.discarded
  writes : s.1.shared.calls.countP BackendCall.writesOk + s.2.gpuWrites =
    s.1.shared.completedFrames + s.1.worker.unrecorded + ∑ i, (s.1.client i).pc.unrecorded
  time : s.2.stages.Sums

/-! ## Counting -/

variable {cfg : Config} {a : Impl} {pc : ClientPc} {w : WorkerPc} {e : Choice}

@[simp] theorem frames_nil : frames [] = 0 := rfl

@[simp] theorem frames_cons (item : Item) (items : List Item) : frames (item :: items) = frames items + item.isFrame.toNat := by
  cases h : item.isFrame <;> simp [frames, h]

@[simp] theorem frames_append (items items' : List Item) : frames (items ++ items') = frames items + frames items' :=
  List.countP_append

theorem cancels_cancel (cfg : Config) (a : Impl) : (cancel cfg a).shared = a ∧ a.cancels = false ∨
    (cancel cfg a).shared.queue = [] ∧ (cancel cfg a).shared.acceptedFrames = a.acceptedFrames ∧
      (cancel cfg a).shared.completedFrames = a.completedFrames ∧ a.cancels = true := by
  unfold cancel Impl.cancels
  split
  case isTrue h => exact .inl ⟨rfl, by simp [h]⟩
  case isFalse h =>
      split
      case isTrue hf => exact .inl ⟨rfl, by simp [hf]⟩
      case isFalse hf => exact .inr ⟨rfl, rfl, rfl, by simpa [hf] using h⟩

/-- A section of a client keeps the account of frames, with those that it discards. -/
theorem clientSection_frames {o : Section} (h : clientSection cfg a pc = some o) (m : Meter) (elapsed : UInt64) :
    o.shared.acceptedFrames + a.completedFrames + frames a.queue + m.discarded =
      a.acceptedFrames + o.shared.completedFrames + frames o.shared.queue + (m.client a pc elapsed).discarded := by
  by_cases hpc : pc = .cancel
  · subst hpc
    cases h
    rcases cancels_cancel cfg a with ⟨hsame, hno⟩ | ⟨hqueue, haccepted, hcompleted, hyes⟩
    · simp [Meter.client, hsame, hno]
    · simp [Meter.client, hqueue, haccepted, hcompleted, hyes]
      omega
  · have hdiscarded : (m.client a pc elapsed).discarded = m.discarded := by
      cases pc <;> first | rfl | exact absurd rfl hpc
    rw [hdiscarded]
    cases clientSection_effect h with
    | pushOwned => simp [Impl.pushFrame, Impl.push, Item.isFrame]; omega
    | pushBorrowed => simp [Impl.pushFrame, Impl.push, Item.isFrame]; omega
    | pushFlush => simp [Impl.pushFlush, Impl.push, Item.isFrame]
    | recordSync => simp; omega
    | cancel hcancel => exact absurd hcancel hpc
    | _ => rfl

theorem clientSection_loc {o : Section} (h : clientSection cfg a pc = some o) : o.loc.unrecorded = 0 := by
  cases pc with
  | idle | writeCpuSync | flushSync | closeSync | returning => cases h
  | write frame block =>
      cases h
      unfold write
      repeat' split
      all_goals rfl
  | writeBorrowed frame =>
      cases h
      unfold writeBorrowed
      repeat' split
      all_goals rfl
  | writeCpuSyncRecord status =>
      cases h
      unfold writeCpuSyncRecord
      split <;> rfl
  | enqueueOwned frame block =>
      cases h
      unfold enqueueOwned
      repeat' split
      all_goals rfl
  | enqueueOwnedSpace frame block =>
      cases h
      unfold enqueueOwnedSpace
      repeat' split
      all_goals rfl
  | enqueueOwnedCopy frame block owned =>
      cases h
      unfold enqueueOwnedCopy
      repeat' split
      all_goals rfl
  | enqueueOwnedReturn | flushSyncRecord | closeSyncRecord => cases h; rfl
  | enqueueOwnedPush frame block owned =>
      cases h
      unfold enqueueOwnedPush
      repeat' split
      all_goals rfl
  | submitBorrowed frame =>
      cases h
      unfold submitBorrowed
      split <;> rfl
  | enqueueBorrowed frame =>
      cases h
      unfold enqueueBorrowed enqueueBorrowedSpace
      repeat' split
      all_goals rfl
  | enqueueBorrowedSpace frame =>
      cases h
      unfold enqueueBorrowedSpace
      repeat' split
      all_goals rfl
  | flush =>
      cases h
      unfold flush flushSpace flushWait
      repeat' split
      all_goals rfl
  | flushSpace =>
      cases h
      unfold flushSpace flushWait
      repeat' split
      all_goals rfl
  | flushWait token =>
      cases h
      unfold flushWait
      repeat' split
      all_goals rfl
  | cancel =>
      cases h
      unfold cancel
      repeat' split
      all_goals rfl
  | close =>
      cases h
      unfold close
      repeat' split
      all_goals rfl
  | closeJoin =>
      rw [clientSection] at h
      split at h <;> cases h
      unfold closeJoin
      split <;> rfl
  | setCopyPolicy policy =>
      cases h
      unfold setCopyPolicy
      repeat' split
      all_goals rfl
  | setCpuLayoutPolicy policy =>
      cases h
      unfold setCpuLayoutPolicy
      split <;> rfl

/-- A section of a client records the write that it is about, and only that. -/
theorem clientSection_writes {o : Section} (h : clientSection cfg a pc = some o) :
    o.shared.calls = a.calls ∧ o.shared.completedFrames = a.completedFrames + pc.unrecorded := by
  by_cases hpc : ∃ status, pc = .writeCpuSyncRecord status
  · obtain ⟨status, rfl⟩ := hpc
    cases h
    unfold writeCpuSyncRecord
    split
    case isTrue hok => exact ⟨rfl, by simp [ClientPc.unrecorded, hok, reply, goto]⟩
    case isFalse hok => exact ⟨rfl, by simp [ClientPc.unrecorded, hok, reply, goto]⟩
  · have hnone : pc.unrecorded = 0 := by
      cases pc <;> first | rfl | exact absurd ⟨_, rfl⟩ hpc
    rw [hnone]
    cases clientSection_effect h with
    | recordSync hrecord => exact absurd ⟨_, hrecord⟩ hpc
    | _ => exact ⟨rfl, rfl⟩

theorem clientBackend_writes {m : String} {ended : CallEnd} {o : Section} (h : clientBackend m ended a pc = some o) :
    o.shared.acceptedFrames = a.acceptedFrames ∧ o.shared.completedFrames = a.completedFrames ∧ o.shared.queue = a.queue ∧
      o.shared.calls.countP BackendCall.writesOk = a.calls.countP BackendCall.writesOk + o.loc.unrecorded ∧ pc.unrecorded = 0 := by
  cases pc with
  | writeCpuSync frame =>
      cases ended with
      | returned status =>
          cases h
          refine ⟨rfl, rfl, rfl, ?_, rfl⟩
          by_cases hok : status.result = .ok <;>
            simp [goto, Impl.called, BackendCall.writesOk, ClientPc.unrecorded, hok]
      | threw what =>
          cases h
          exact ⟨rfl, rfl, rfl, by simp [reply, goto, Impl.called, BackendCall.writesOk, ClientPc.unrecorded], rfl⟩
  | flushSync | closeSync =>
      cases ended <;> cases h <;>
        exact ⟨rfl, rfl, rfl, by simp [reply, goto, Impl.called, BackendCall.writesOk, ClientPc.unrecorded], rfl⟩
  | _ => cases h

/-! ## One step -/

/-- What an action of a client does to the account. -/
theorem clientAct_account {k : Client} {o : Outcome Impl Client Cond} (h : clientAct cfg e a k = some o) (m : Meter) (elapsed : UInt64) :
    o.shared.acceptedFrames + a.completedFrames + frames a.queue + m.discarded =
        a.acceptedFrames + o.shared.completedFrames + frames o.shared.queue + (m.client a k.pc elapsed).discarded ∧
      o.shared.calls.countP BackendCall.writesOk + a.completedFrames + k.pc.unrecorded =
        a.calls.countP BackendCall.writesOk + o.shared.completedFrames + o.loc.pc.unrecorded := by
  cases clientAct_action h with
  | @start c hpc =>
      rw [hpc]
      cases c <;> exact ⟨rfl, rfl⟩
  | finish hpc =>
      rw [hpc]
      exact ⟨rfl, rfl⟩
  | act hs =>
      refine ⟨clientSection_frames hs m elapsed, ?_⟩
      obtain ⟨hcalls, hcompleted⟩ := clientSection_writes hs
      simp only [clientSection_loc hs, hcalls, hcompleted]
      omega
  | threw hpc =>
      rw [hpc]
      exact ⟨rfl, rfl⟩
  | backend hcur hs =>
      obtain ⟨haccepted, hcompleted, hqueue, hcalls, hnone⟩ := clientBackend_writes hs
      have hmeter : m.client a k.pc elapsed = m := by
        revert hs
        cases k.pc <;> first | (intro; rfl) | (intro hs; cases hs)
      simp only [haccepted, hcompleted, hqueue, hcalls, hnone, hmeter, true_and]
      omega

/-- What a section of the worker does to it. -/
theorem WorkerEffect.account {o : WorkerSection} (h : WorkerEffect a w e o) (m : Meter) (elapsed : UInt64) :
    o.shared.acceptedFrames + a.completedFrames + frames a.queue + w.frames + m.discarded =
        a.acceptedFrames + o.shared.completedFrames + frames o.shared.queue + o.loc.frames + (m.worker a w elapsed).discarded ∧
      o.shared.calls.countP BackendCall.writesOk + a.completedFrames + w.unrecorded =
        a.calls.countP BackendCall.writesOk + o.shared.completedFrames + o.loc.unrecorded := by
  cases h with
  | asleep | stop => exact ⟨rfl, rfl⟩
  | pop hq =>
      refine ⟨?_, rfl⟩
      simp [hq, WorkerPc.frames, WorkerPc.item?, Meter.worker]
      omega
  | @served item status =>
      refine ⟨rfl, ?_⟩
      cases hwrite : item.isFrame && decide (status.result = .ok) with
      | false => simp [Impl.called, BackendCall.writesOk, WorkerPc.unrecorded, hwrite]
      | true =>
          simp [Impl.called, BackendCall.writesOk, WorkerPc.unrecorded, hwrite]
          omega
  | @threw item what => exact ⟨rfl, by simp [Impl.called, BackendCall.writesOk, WorkerPc.unrecorded]⟩
  | @failure item status hne =>
      refine ⟨?_, by simp [recordFailure, Impl.recycle, WorkerPc.unrecorded, hne]⟩
      simp [recordFailure, Impl.recycle, WorkerPc.frames, WorkerPc.item?, Meter.worker, hne]
      omega
  | @success item status hok =>
      cases item <;> simp [recordSuccess, Impl.recycle, WorkerPc.frames, WorkerPc.item?, Meter.worker, hok, WorkerPc.unrecorded,
        Item.isFrame] <;> omega
  | closed | closeThrew => exact ⟨rfl, by simp [Impl.called, BackendCall.writesOk, WorkerPc.unrecorded]⟩
  | finish | finishFailed => exact ⟨rfl, rfl⟩
  | @handler item active what =>
      refine ⟨?_, rfl⟩
      simp [recordException, WorkerPc.frames, WorkerPc.item?, Meter.worker]
      omega

/-- A GPU frame is accepted and completed at once. -/
theorem writeGpu_account (cfg : Config) (a : Impl) (ended : CallEnd) (m : Meter) (elapsed : UInt64) :
    ∃ written, (writeGpu cfg ended a).1 =
        { a with acceptedFrames := a.acceptedFrames + written, completedFrames := a.completedFrames + written } ∧
      (m.writeGpu cfg a ended elapsed).gpuWrites = m.gpuWrites + written ∧
      (m.writeGpu cfg a ended elapsed).discarded = m.discarded := by
  unfold writeGpu Meter.writeGpu
  cases gpuRefusal cfg a with
  | some status => exact ⟨0, rfl, rfl, rfl⟩
  | none =>
      cases ended with
      | returned status =>
          by_cases hok : status.result = .ok
          · exact ⟨1, by simp [hok], by simp [hok], rfl⟩
          · exact ⟨0, by simp [hok], by simp [hok], rfl⟩
      | threw what => exact ⟨0, rfl, rfl, rfl⟩

/-! ## Time -/

theorem worker_sums {m : Meter} (h : m.stages.Sums) (elapsed : UInt64) : (m.worker a w elapsed).stages.Sums := by
  unfold Meter.worker
  split
  case h_1 item status =>
      cases item.isFrame with
      | true => exact h.workerFrame elapsed
      | false => exact h.flush elapsed
  case h_2 => exact h.close elapsed
  all_goals exact h

theorem client_sums {m : Meter} (h : m.stages.Sums) (elapsed : UInt64) : (m.client a pc elapsed).stages.Sums := by
  unfold Meter.client
  split
  case h_1 => exact h.syncFrame elapsed
  case h_2 => exact h.flush elapsed
  case h_3 => exact h.close elapsed
  all_goals exact h

theorem writeGpu_sums {m : Meter} (h : m.stages.Sums) (ended : CallEnd) (elapsed : UInt64) :
    (m.writeGpu cfg a ended elapsed).stages.Sums := by
  unfold Meter.writeGpu
  split
  case h_1 => exact h.syncFrame elapsed
  case h_2 => exact h

/-! ## Runs -/

variable [Fintype ι]

theorem Accounted.step {s t : SessionState ι × Meter} {l : MeteredLabel ι} (h : Accounted s) (hst : MeteredStep cfg s l t) :
    Accounted t := by
  obtain ⟨s, m⟩ := s
  obtain ⟨t, m'⟩ := t
  obtain ⟨hst, hmeter⟩ := hst
  obtain ⟨hframes, hwrites, htime⟩ := h
  change m' = meter cfg s l m at hmeter
  subst hmeter
  cases l with
  | session l elapsed =>
      have hst : Step cfg s l t := hst
      cases l with
      | worker e =>
          obtain ⟨_, o, ho, rfl⟩ := hst.worker_inv
          obtain ⟨hframes', hwrites'⟩ := (workerAct_effect ho).account m elapsed
          have hgpu : (m.worker s.shared s.worker elapsed).gpuWrites = m.gpuWrites := by
            unfold Meter.worker
            split <;> rfl
          exact ⟨by simp only [meter] at hframes ⊢; omega, by simp only [meter, hgpu] at hwrites ⊢; omega, worker_sums htime elapsed⟩
      | client i e =>
          obtain ⟨_, o, ho, rfl⟩ := hst.client_inv
          obtain ⟨hframes', hwrites'⟩ := clientAct_account ho m elapsed
          have hgpu : (m.client s.shared (s.client i).pc elapsed).gpuWrites = m.gpuWrites := by
            unfold Meter.client
            split <;> rfl
          have hsum := sum_update (fun k : Client => k.pc.unrecorded) s.client i o.loc
          exact ⟨by simp only [meter] at hframes ⊢; omega, by simp only [meter, hgpu] at hwrites ⊢; omega, client_sums htime elapsed⟩
      | wakeWorker =>
          rw [hst.wakeWorker_inv]
          exact ⟨hframes, hwrites, htime⟩
      | wake i =>
          rw [hst.wake_inv]
          exact ⟨hframes, hwrites, htime⟩
  | writeGpu i ended elapsed =>
      change (match (s.client i).pc with | .idle => _ | _ => none) = some t at hst
      split at hst <;> cases hst
      obtain ⟨written, hshared, hgpu, hdiscarded⟩ := writeGpu_account cfg s.shared ended m elapsed
      exact ⟨by simp only [meter, hshared, hdiscarded] at hframes ⊢; omega,
        by simp only [meter, hshared, hgpu] at hwrites ⊢; omega, writeGpu_sums htime ended elapsed⟩

theorem accounted_init {ι : Type*} [Fintype ι] : Accounted ((SessionState.init cfg : SessionState ι), Meter.zero) where
  frames := by
    have hworker : (if cfg.capacity = 0 then WorkerPc.notStarted else .loop).frames = 0 := by split <;> rfl
    simp [SessionState.init, Impl.init, Meter.zero, hworker]
  writes := by
    have hworker : (if cfg.capacity = 0 then WorkerPc.notStarted else .loop).unrecorded = 0 := by split <;> rfl
    simp [SessionState.init, Impl.init, Client.init, ClientPc.unrecorded, Meter.zero, hworker]
  time := rfl

/-- In every reachable state the metrics account for every frame, every write and the backend time. -/
theorem metrics_accounted {ls : List (MeteredLabel ι)} {s : SessionState ι × Meter}
    (hrun : Run (MeteredStep cfg) (SessionState.init cfg, .zero) ls s) : Accounted s :=
  hrun.invariant accounted_init fun h hst => h.step hst

/-- A frame is written and encoded, up to the return of the backend; the clock stands still but for the last section. -/
def firstFrame (rest : List (MeteredLabel Unit)) : List (MeteredLabel Unit) :=
  ([.client () (.call (.write (smallFrame 0))), .client () .run, .client () .run, .client () .run, .client () .run, .client () .run,
    .worker .run, .worker (.backend (.returned .ok))].map fun l => .session l 0) ++ rest

theorem firstFrame_run (rest : List (MeteredLabel Unit)) {s : SessionState Unit × Meter}
    (h : exec (fun s l => if true then (meteredStep (.small 1 (by decide)) s.1 l).map fun t => (t, meter (.small 1 (by decide)) s.1 l s.2)
      else none) (SessionState.init (.small 1 (by decide)), .zero) (firstFrame rest) = some s) :
    Run (MeteredStep (.small 1 (by decide))) (SessionState.init (.small 1 (by decide)), .zero) (firstFrame rest) s :=
  (Run.watch_of_exec (C := fun _ _ => True) (fun _ _ => true) (fun _ _ _ => trivial) h).of_restrict

theorem metrics_accounted_small : ∃ s : SessionState Unit × Meter,
    s.1.shared.completedFrames = 1 ∧ s.2.stages.backendTime = 5 ∧ Accounted s :=
  ⟨_, rfl, rfl, metrics_accounted (firstFrame_run [.session (.worker .run) 5] rfl)⟩

/-- Between the return of the backend and the section that records it, the write is not counted. -/
theorem write_uncounted : ∃ ls, ∃ s : SessionState Unit × Meter,
    Run (MeteredStep (.small 1 (by decide))) (SessionState.init (.small 1 (by decide)), .zero) ls s ∧
      s.1.shared.completedFrames ≠ s.1.shared.calls.countP BackendCall.writesOk + s.2.gpuWrites :=
  ⟨_, _, firstFrame_run [] rfl, by decide⟩

end MkvCodec.Encoder
