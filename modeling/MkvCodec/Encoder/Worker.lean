import MkvCodec.Encoder.Queue

/-!
# Encoder sessions: the worker, and the whole system

`run_encoder_worker` of `encoder_worker.cpp`. The test hooks that inject failures exist in test builds only
and are left out. An exception takes the worker to `unwind`; that the locals of the loop body die before the
handler takes the lock cannot be seen by another thread, so the item stays with the worker until then.
-/

namespace MkvCodec.Encoder

open Concurrency

variable (cfg : Config)

abbrev WorkerSection := Outcome Impl WorkerPc Cond

/-- The head of the loop. -/
def workerLoop (a : Impl) : WorkerSection :=
  if !(a.closeRequested || !a.queue.isEmpty) then ⟨a, .loop, [], some .hasItems⟩
  else
    match a.queue with
    | [] => ⟨a, .close none, [], none⟩
    | item :: rest => ⟨{ a with queue := rest }, .serve item, [.hasSpace], none⟩

/-- The owned frame of a served item goes back to the free list. -/
def Impl.recycle (a : Impl) (item : Item) : Impl :=
  { a with freeFrames := a.freeFrames ++ ownedFrames [item] }

/-- The section after a backend call that failed. -/
def recordFailure (item : Item) (status : Status) (a : Impl) : WorkerSection :=
  ⟨{ a.recycle item with
      submissions := completeAll (complete a.submissions item.submission? status) a.queue status
      failed := true
      accepting := false
      terminalResult := status.result
      terminalError := status.error
      queue := [] }, .close item.submission?, [.hasSpace, .stateChanged], none⟩

/-- The section after a backend call that succeeded. -/
def recordSuccess (item : Item) (a : Impl) : WorkerSection :=
  match item with
  | .flush token => ⟨{ a with completedFlushToken := token }, .loop, [.stateChanged], none⟩
  | .owned _ _ => ⟨{ a.recycle item with completedFrames := a.completedFrames + 1 }, .loop, [.hasSpace], none⟩
  | .borrowed _ submission =>
      ⟨{ a with
          submissions := complete a.submissions (some submission) .ok
          completedFrames := a.completedFrames + 1 }, .loop, [], none⟩

def recordItem (item : Item) (status : Status) (a : Impl) : WorkerSection :=
  if status.result ≠ .ok then recordFailure item status a else recordSuccess item a

/-- The last section of the worker. -/
def recordClose (status : Status) (a : Impl) : WorkerSection :=
  let a := if !a.failed && decide (status.result ≠ .ok) then
      { a with failed := true, terminalResult := status.result, terminalError := status.error }
    else a
  ⟨{ a with closed := true, accepting := false, workerExited := true }, .exited,
    [.stateChanged, .hasSpace], none⟩

/-- The exception handlers of the worker. They leave the queue as it is. -/
def recordException (active : Option Nat) (what : Option String) (a : Impl) : WorkerSection :=
  let status := guard "unknown asynchronous encoder failure" what
  ⟨{ a with
      submissions := completeAll (complete a.submissions active status) a.queue status
      failed := true
      closed := true
      accepting := false
      terminalResult := status.result
      terminalError := status.error
      workerExited := true }, .exited, [.stateChanged, .hasSpace], none⟩

def workerAct (e : Choice) (a : Impl) (w : WorkerPc) : Option WorkerSection :=
  match w, e with
  | .loop, .run => some (workerLoop a)
  | .serve item, .backend ended =>
      some (match ended with
        | .returned status => ⟨a.called (.item item ended), .record item status, [], none⟩
        | .threw what => ⟨a.called (.item item ended), .unwind (some item) item.submission? what, [], none⟩)
  | .record item status, .run => some (recordItem item status a)
  | .close active, .backend ended =>
      some (match ended with
        | .returned status => ⟨a.called (.close ended), .recordClose active status, [], none⟩
        | .threw what => ⟨a.called (.close ended), .unwind none active what, [], none⟩)
  | .recordClose _ status, .run => some (recordClose status a)
  | .unwind _ active what, .run => some (recordException active what a)
  | _, _ => none

/-- One encoder session with its worker. -/
def program : Program Impl WorkerPc Client Cond Choice := ⟨workerAct, clientAct cfg⟩

/-- The session state after `EncoderSession::create`. -/
def Impl.init : Impl :=
  { queue := [], freeFrames := List.replicate cfg.capacity .empty, accepting := true, closeRequested := false,
    closed := false, failed := false, canceled := false, terminalResult := .ok, terminalError := "",
    nextFlushToken := 0, completedFlushToken := 0, acceptedFrames := 0, completedFrames := 0,
    peakQueueDepth := 0, requireGpuResident := false, allowGpuCopy := true, allowCpuCopy := true,
    cpuLayoutMode := .allowCopy, cpuRequiredAlignment := 1, submissions := fun _ => .new,
    submissionCount := 0, workerExited := false, admitted := [], calls := [] }

def Client.init : Client := ⟨.idle, none, []⟩

variable {ι : Type*}

abbrev SessionState (ι : Type*) := State Impl WorkerPc Client Cond ι

abbrev SessionLabel (ι : Type*) := Label ι Choice

/-- A new session: every client is idle, and the worker runs if the session is asynchronous. -/
def SessionState.init : SessionState ι :=
  { shared := .init cfg, worker := if cfg.capacity = 0 then .notStarted else .loop,
    client := fun _ => .init, workerSleep := none, sleep := fun _ => none }

variable [DecidableEq ι]

/-- A step of a session with clients `ι`. -/
abbrev Step (s : SessionState ι) (l : SessionLabel ι) (t : SessionState ι) : Prop := (program cfg).Step s l t

/-- The runs of a new session. -/
abbrev SessionRun (ls : List (SessionLabel ι)) (s : SessionState ι) : Prop :=
  Run (Step cfg) (SessionState.init cfg) ls s

/-! ## A small session

The session and the frame of the runs on fixed inputs. -/

theorem Config.two_ne_zero : 2 ≠ 0 := by decide
theorem Config.two_even : 2 % 2 = 0 := rfl
theorem Config.two_le_width : 2 ≤ (2 ^ 31 - 1) / 4 := by decide
theorem Config.two_le_height : 2 ≤ 2 ^ 31 - 1 := by decide

/-- A session without a queue. -/
theorem Config.noQueue_lt : 0 < 2 ^ 32 := by decide

def Config.small (capacity : Nat) (h : capacity < 2 ^ 32) : Config :=
  { width := 2, height := 2, capacity := capacity, supportsGpuFrames := false, width_pos := two_ne_zero,
    height_pos := two_ne_zero, width_even := two_even, height_even := two_even, width_le := two_le_width,
    height_le := two_le_height, capacity_lt := h }

/-- A packed frame of two by two pixels, all of one value. -/
def smallFrame (value : UInt8) : FrameView :=
  { pixelFormat := .bgr24, width := 2, height := 2, pts := -1,
    planes := ![some ⟨0, fun _ => value⟩, none, none, none], strides := ![6, 0, 0, 0] }

end MkvCodec.Encoder
