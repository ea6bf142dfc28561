import MkvCodec.Frame.Owned

/-!
# Encoder sessions: data

The state of one `EncoderSession::Impl`, the items of its queue, the completion of a borrowed submission,
and the points at which the worker and a client of the session can stand.

Timing, stage and copy-edge metrics are left out: no function modelled here reads them.
-/

namespace MkvCodec.Encoder

/-- The part of `mkvc_encoder_config` that a session reads, as `valid_encoder_config` admits it. -/
structure Config where
  width : Nat
  height : Nat
  capacity : Nat
  supportsGpuFrames : Bool
  width_pos : width ≠ 0
  height_pos : height ≠ 0
  width_even : width % 2 = 0
  height_even : height % 2 = 0
  width_le : width ≤ (2 ^ 31 - 1) / 4
  height_le : height ≤ 2 ^ 31 - 1
  capacity_lt : capacity < 2 ^ 32

/-- `mkvc_copy_policy`. -/
structure CopyPolicy where
  requireGpuResident : Bool
  allowGpuCopy : Bool
  allowCpuCopy : Bool
  deriving DecidableEq

/-- `mkvc_cpu_layout_policy`. -/
structure CpuLayoutPolicy where
  mode : CpuLayoutMode
  requiredAlignment : Nat
  deriving DecidableEq

/-! ## Borrowed submissions -/

/-- `CpuSubmission`. -/
structure CpuSubmission where
  terminal : Bool
  result : Result
  error : String
  deriving DecidableEq

def CpuSubmission.new : CpuSubmission := ⟨false, .ok, ""⟩

/-- `mkvc_submission_status`. -/
inductive SubmissionStatus
  | pending
  | complete
  | failed
  | cancelled
  deriving DecidableEq, Repr

def CpuSubmission.complete (s : CpuSubmission) (status : Status) : CpuSubmission :=
  if s.terminal then s else ⟨true, status.result, status.error⟩

def CpuSubmission.query (s : CpuSubmission) : SubmissionStatus :=
  if !s.terminal then .pending
  else if s.result = .ok then .complete
  else if s.result = .errorCancelled then .cancelled
  else .failed

/-! ## Queue items and backend calls -/

/-- `Item`: an owned frame with the view it was copied from, a borrowed frame with its submission, or a
flush barrier. The view of the caller is kept for specifications; no function reads it. -/
inductive Item
  | owned (frame : OwnedFrame) (source : FrameView)
  | borrowed (frame : FrameView) (submission : Nat)
  | flush (token : Nat)

def Item.submission? : Item → Option Nat
  | .borrowed _ submission => some submission
  | _ => none

def Item.token? : Item → Option Nat
  | .flush token => some token
  | _ => none

/-- The owned frames in an item. -/
def Item.slots : Item → Nat
  | .owned _ _ => 1
  | _ => 0

/-- A call into the backend and how it ended. The worker calls it for an item of the queue, a client of a
synchronous session for its own frame or flush. -/
inductive BackendCall
  | item (item : Item) (ended : CallEnd)
  | write (frame : FrameView) (ended : CallEnd)
  | flush (ended : CallEnd)
  | close (ended : CallEnd)

/-! ## Calls of a client -/

/-- The calls of the C ABI on one session. -/
inductive Call
  | write (frame : FrameView)
  | tryWrite (frame : FrameView)
  | writeBorrowed (frame : FrameView)
  | submitBorrowed (frame : FrameView)
  | flush
  | cancel
  | close
  | setCopyPolicy (policy : CopyPolicy)
  | setCpuLayoutPolicy (policy : CpuLayoutPolicy)

/-- The text that `guard` reports for an exception that is not a `std::exception`. -/
def Call.unknownMessage : Call → String
  | .write _ => "unknown frame write failure"
  | .tryWrite _ => "unknown nonblocking frame write failure"
  | .writeBorrowed _ => "unknown borrowed frame write failure"
  | .submitBorrowed _ => "unknown borrowed submission failure"
  | .flush => "unknown encoder flush failure"
  | .cancel => "unknown encoder cancel failure"
  | .close => "unknown encoder close failure"
  | .setCopyPolicy _ => "unknown encoder copy policy failure"
  | .setCpuLayoutPolicy _ => "unknown encoder CPU layout policy failure"

/-- Where a client stands: inside which function, before which section or unlocked operation of it. -/
inductive ClientPc
  | idle
  | write (frame : FrameView) (block : Bool)
  | writeBorrowed (frame : FrameView)
  | writeCpuSync (frame : FrameView)
  | writeCpuSyncRecord (status : Status)
  | enqueueOwned (frame : FrameView) (block : Bool)
  | enqueueOwnedSpace (frame : FrameView) (block : Bool)
  | enqueueOwnedCopy (frame : FrameView) (block : Bool) (owned : OwnedFrame)
  | enqueueOwnedReturn (owned : OwnedFrame) (status : Status)
  | enqueueOwnedPush (frame : FrameView) (block : Bool) (owned : OwnedFrame)
  | submitBorrowed (frame : FrameView)
  | enqueueBorrowed (frame : FrameView)
  | enqueueBorrowedSpace (frame : FrameView)
  | flush
  | flushSync
  | flushSyncRecord (status : Status)
  | flushSpace
  | flushWait (token : Nat)
  | cancel
  | close
  | closeSync
  | closeSyncRecord (status : Status)
  | closeJoin
  | setCopyPolicy (policy : CopyPolicy)
  | setCpuLayoutPolicy (policy : CpuLayoutPolicy)
  | returning (status : Status)

/-- The owned frames that a client has taken out of the free list. -/
def ClientPc.slots : ClientPc → Nat
  | .enqueueOwnedCopy _ _ _ | .enqueueOwnedReturn _ _ | .enqueueOwnedPush _ _ _ => 1
  | _ => 0

/-- A client with the call it is in and the calls that have returned to it. -/
structure Client where
  pc : ClientPc
  current : Option Call
  history : List (Call × Status)

/-- Where the worker stands. `active` is its `active_submission`. -/
inductive WorkerPc
  | notStarted
  | loop
  | serve (item : Item)
  | record (item : Item) (status : Status)
  | close (active : Option Nat)
  | recordClose (active : Option Nat) (status : Status)
  | unwind (item : Option Item) (active : Option Nat) (what : Option String)
  | exited

/-- The item in the worker's hands. -/
def WorkerPc.item? : WorkerPc → Option Item
  | .serve item | .record item _ => some item
  | .unwind item _ _ => item
  | _ => none

/-- `EncoderSession::Impl`, with every item ever put into the queue and every backend call, both kept for
specifications only. -/
structure Impl where
  queue : List Item
  freeFrames : List OwnedFrame
  accepting : Bool
  closeRequested : Bool
  closed : Bool
  failed : Bool
  canceled : Bool
  terminalResult : Result
  terminalError : String
  nextFlushToken : Nat
  completedFlushToken : Nat
  acceptedFrames : Nat
  completedFrames : Nat
  peakQueueDepth : Nat
  requireGpuResident : Bool
  allowGpuCopy : Bool
  allowCpuCopy : Bool
  cpuLayoutMode : CpuLayoutMode
  cpuRequiredAlignment : Nat
  submissions : Nat → CpuSubmission
  submissionCount : Nat
  workerExited : Bool
  admitted : List Item
  calls : List BackendCall

/-- The condition variables of a session. -/
inductive Cond
  | hasItems
  | hasSpace
  | stateChanged
  deriving DecidableEq

/-- What the environment decides in a section: nothing, the next call of an idle client, how a backend call
ends, or that a copy runs out of memory. -/
inductive Choice
  | run
  | call (call : Call)
  | backend (ended : CallEnd)
  | copyThrows (what : Option String)

end MkvCodec.Encoder
