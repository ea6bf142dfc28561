import MkvCodec.Concurrency.Monitor
import MkvCodec.Encoder.State

/-!
# Encoder sessions: the client side

The critical sections of `encoder_session.cpp`, `encoder_queue_submission.cpp`, `encoder_queue_control.cpp`
and `encoder_backend_execution.cpp`, in the order of the source. A section that finds its wait condition
false leaves its client where it is, asleep; after a wake-up the client evaluates the condition again.
-/

namespace MkvCodec.Encoder

open Concurrency

/-- The outcome of a section of a client, before the client record is rebuilt around it. -/
abbrev Section := Outcome Impl ClientPc Cond

variable (cfg : Config)

def goto (a : Impl) (pc : ClientPc) : Section := ⟨a, pc, [], none⟩

def reply (a : Impl) (status : Status) : Section := goto a (.returning status)

def sleepOn (a : Impl) (pc : ClientPc) (c : Cond) : Section := ⟨a, pc, [], some c⟩

def notifying (cs : List Cond) (o : Section) : Section := { o with notify := cs }

/-- `terminal_result` with `terminal_error`. -/
def Impl.terminal (a : Impl) : Status := ⟨a.terminalResult, a.terminalError⟩

def stoppedResult (a : Impl) : Status :=
  if a.canceled then ⟨.errorCancelled, "encoder was cancelled"⟩
  else ⟨.errorInvalidState, "encoder is closing or closed"⟩

def Impl.hasRoom (a : Impl) : Bool := decide (a.queue.length < cfg.capacity)

/-- The policy test that `write` and `enqueue_borrowed` make. -/
def Impl.prohibitsCpu (a : Impl) : Bool := a.requireGpuResident || !a.allowCpuCopy

def prohibited : Status := ⟨.errorNotSupported, "CPU frame submission is prohibited by copy policy"⟩

def Impl.layout (a : Impl) (frame : FrameView) : Status :=
  validateCpuFrameLayout frame cfg.width cfg.height a.cpuLayoutMode a.cpuRequiredAlignment

/-! ## Small changes of the shared state -/

def Impl.returnFrame (a : Impl) (owned : OwnedFrame) : Impl :=
  { a with freeFrames := a.freeFrames ++ [owned] }

/-- `queue.push_back`. -/
def Impl.push (a : Impl) (item : Item) : Impl :=
  { a with queue := a.queue ++ [item], admitted := a.admitted ++ [item] }

/-- Push of a frame, with the counters that go with it. -/
def Impl.pushFrame (a : Impl) (item : Item) : Impl :=
  { a.push item with
    acceptedFrames := a.acceptedFrames + 1
    peakQueueDepth := max a.peakQueueDepth (u32 (a.queue.length + 1)) }

/-- Push of a flush barrier with the next token. -/
def Impl.pushFlush (a : Impl) : Impl :=
  { a.push (.flush (a.nextFlushToken + 1)) with nextFlushToken := a.nextFlushToken + 1 }

def Impl.called (a : Impl) (call : BackendCall) : Impl := { a with calls := a.calls ++ [call] }

def complete (subs : Nat → CpuSubmission) (submission : Option Nat) (status : Status) : Nat → CpuSubmission :=
  match submission with
  | none => subs
  | some k => Function.update subs k ((subs k).complete status)

/-- The loop over queued items that completes the submission of each. -/
def completeAll (subs : Nat → CpuSubmission) (items : List Item) (status : Status) : Nat → CpuSubmission :=
  items.foldl (fun subs item => complete subs item.submission? status) subs

/-! ## `EncoderSession::write` and `write_borrowed` -/

def write (frame : FrameView) (block : Bool) (a : Impl) : Section :=
  if a.prohibitsCpu then reply a prohibited
  else if a.failed then reply a a.terminal
  else if a.canceled then reply a ⟨.errorCancelled, "encoder was cancelled"⟩
  else if !a.accepting then reply a (stoppedResult a)
  else if (a.layout cfg frame).result ≠ .ok then reply a (a.layout cfg frame)
  else goto a (if cfg.capacity = 0 then .writeCpuSync frame else .enqueueOwned frame block)

def writeBorrowed (frame : FrameView) (a : Impl) : Section :=
  if cfg.capacity ≠ 0 then reply a ⟨.errorNotSupported, "borrowed CPU writes require queue_size=0"⟩
  else if a.failed then reply a a.terminal
  else if !a.accepting then reply a (stoppedResult a)
  else goto a (.writeCpuSync frame)

/-- `write_cpu_sync` after `backend_write` has returned. -/
def writeCpuSyncRecord (status : Status) (a : Impl) : Section :=
  if status.result = .ok then
    reply { a with acceptedFrames := a.acceptedFrames + 1, completedFrames := a.completedFrames + 1 } .ok
  else reply a status

/-! ## `enqueue_owned` -/

def dimensionMismatch : Status :=
  ⟨.errorInvalidArgument, "frame dimensions do not match encoder configuration"⟩

def wouldBlock : Status := ⟨.wouldBlock, ""⟩

def enqueueOwned (frame : FrameView) (block : Bool) (a : Impl) : Section :=
  if a.failed then reply a a.terminal
  else if !a.accepting then reply a (stoppedResult a)
  else if frame.width ≠ cfg.width ∨ frame.height ≠ cfg.height then reply a dimensionMismatch
  else goto a (.enqueueOwnedSpace frame block)

/-- The second section: wait for room and a free frame, and take the frame. -/
def enqueueOwnedSpace (frame : FrameView) (block : Bool) (a : Impl) : Section :=
  if !block && (!a.hasRoom cfg || a.freeFrames.isEmpty) then reply a wouldBlock
  else if block && !((a.hasRoom cfg && !a.freeFrames.isEmpty) || !a.accepting || a.failed) then
    sleepOn a (.enqueueOwnedSpace frame block) .hasSpace
  else if a.failed then reply a a.terminal
  else if !a.accepting then reply a (stoppedResult a)
  else if !a.hasRoom cfg then reply a wouldBlock
  else
    match a.freeFrames with
    | [] => reply a wouldBlock
    | owned :: rest => goto { a with freeFrames := rest } (.enqueueOwnedCopy frame block owned)

/-- `own_frame`, called without the lock. -/
def enqueueOwnedCopy (frame : FrameView) (block : Bool) (owned : OwnedFrame) (a : Impl) : Section :=
  match ownFrame frame owned with
  | (owned, status) =>
      if status.result ≠ .ok then goto a (.enqueueOwnedReturn owned status)
      else goto a (.enqueueOwnedPush frame block owned)

def enqueueOwnedReturn (owned : OwnedFrame) (status : Status) (a : Impl) : Section :=
  notifying [.hasSpace] (reply (a.returnFrame owned) status)

/-- The third section: wait for room again and push the frame. -/
def enqueueOwnedPush (frame : FrameView) (block : Bool) (owned : OwnedFrame) (a : Impl) : Section :=
  if block && !(a.hasRoom cfg || !a.accepting || a.failed) then
    sleepOn a (.enqueueOwnedPush frame block owned) .hasSpace
  else if a.failed then reply (a.returnFrame owned) a.terminal
  else if !a.accepting then reply (a.returnFrame owned) (stoppedResult a)
  else if !a.hasRoom cfg then notifying [.hasSpace] (reply (a.returnFrame owned) wouldBlock)
  else notifying [.hasItems] (reply (a.pushFrame (.owned owned frame)) .ok)

/-! ## `submit_borrowed` and `enqueue_borrowed` -/

def submitBorrowed (frame : FrameView) (a : Impl) : Section :=
  if (a.layout cfg frame).result ≠ .ok then reply a (a.layout cfg frame)
  else goto a (.enqueueBorrowed frame)

/-- From the wait for room on. -/
def enqueueBorrowedSpace (frame : FrameView) (a : Impl) : Section :=
  if !(a.hasRoom cfg || !a.accepting || a.failed) then sleepOn a (.enqueueBorrowedSpace frame) .hasSpace
  else if a.failed then reply a a.terminal
  else if !a.accepting then reply a (stoppedResult a)
  else
    notifying [.hasItems] (reply
      { a.pushFrame (.borrowed frame a.submissionCount) with
        submissions := Function.update a.submissions a.submissionCount .new
        submissionCount := a.submissionCount + 1 } .ok)

def enqueueBorrowed (frame : FrameView) (a : Impl) : Section :=
  if frame.width ≠ cfg.width ∨ frame.height ≠ cfg.height then reply a dimensionMismatch
  else if (validateBorrowedFrame frame).result ≠ .ok then reply a (validateBorrowedFrame frame)
  else if cfg.capacity = 0 then
    reply a ⟨.errorNotSupported, "async borrowed submission requires queue_size greater than zero"⟩
  else if a.prohibitsCpu then reply a prohibited
  else enqueueBorrowedSpace cfg frame a

/-! ## `flush`, `cancel` and `close` -/

def cancelled : Status := ⟨.errorCancelled, "encoder was cancelled"⟩

/-- The wait of `flush_and_wait` for its token. -/
def flushWait (token : Nat) (a : Impl) : Section :=
  if !(decide (token ≤ a.completedFlushToken) || a.failed || a.canceled) then
    sleepOn a (.flushWait token) .stateChanged
  else if a.failed then reply a a.terminal
  else if a.canceled then reply a cancelled
  else reply a .ok

/-- `flush_and_wait` from the wait for room on. The wait for the token starts under the same lock. -/
def flushSpace (a : Impl) : Section :=
  if !(a.hasRoom cfg || !a.accepting || a.failed) then sleepOn a .flushSpace .hasSpace
  else if a.failed then reply a a.terminal
  else if !a.accepting then reply a (stoppedResult a)
  else notifying [.hasItems] (flushWait (a.nextFlushToken + 1) a.pushFlush)

def flush (a : Impl) : Section :=
  if cfg.capacity = 0 then
    if a.canceled then reply a cancelled
    else if a.failed then reply a a.terminal
    else goto a .flushSync
  else flushSpace cfg a

/-- The owned frames of items, in order. -/
def ownedFrames (items : List Item) : List OwnedFrame :=
  items.filterMap fun
    | .owned frame _ => some frame
    | _ => none

def cancel (a : Impl) : Section :=
  if a.closed || a.canceled then reply a .ok
  else if a.failed then reply a a.terminal
  else
    notifying [.hasItems, .hasSpace, .stateChanged] (reply
      { a with
        submissions :=
          completeAll a.submissions a.queue ⟨.errorCancelled, "encoder submission was cancelled"⟩
        canceled := true
        accepting := false
        closeRequested := a.closeRequested || decide (cfg.capacity ≠ 0)
        freeFrames := a.freeFrames ++ ownedFrames a.queue
        queue := [] } .ok)

def close (a : Impl) : Section :=
  if cfg.capacity = 0 then goto a .closeSync
  else if a.closeRequested then goto a .closeJoin
  else
    notifying [.hasItems, .hasSpace]
      (goto { a with accepting := false, closeRequested := true } .closeJoin)

/-- `close_and_join` after `worker.join()`. -/
def closeJoin (a : Impl) : Section := if a.failed then reply a a.terminal else reply a .ok

/-! ## Policy setters -/

def setCopyPolicy (policy : CopyPolicy) (a : Impl) : Section :=
  if a.acceptedFrames ≠ 0 || a.completedFrames ≠ 0 then
    reply a ⟨.errorInvalidState, "copy policy must be set before the first encoder frame"⟩
  else if (policy.requireGpuResident || !policy.allowCpuCopy) && decide (cfg.capacity ≠ 0) then
    reply a ⟨.errorNotSupported, "GPU-resident encoding currently requires queue_size=0"⟩
  else if policy.requireGpuResident && !cfg.supportsGpuFrames then
    reply a ⟨.errorNotSupported, "GPU-resident encoding is unavailable for this backend"⟩
  else if policy.requireGpuResident && policy.allowCpuCopy then
    reply a ⟨.errorInvalidArgument, "require_gpu_resident conflicts with allow_cpu_copy"⟩
  else
    reply { a with
      requireGpuResident := policy.requireGpuResident
      allowGpuCopy := policy.allowGpuCopy
      allowCpuCopy := policy.allowCpuCopy } .ok

def setCpuLayoutPolicy (policy : CpuLayoutPolicy) (a : Impl) : Section :=
  if a.acceptedFrames ≠ 0 || a.completedFrames ≠ 0 then
    reply a ⟨.errorInvalidState, "CPU layout policy must be set before the first encoder frame"⟩
  else
    reply { a with cpuLayoutMode := policy.mode, cpuRequiredAlignment := policy.requiredAlignment } .ok

/-! ## The client program -/

/-- The first section of a call. -/
def Call.entry : Call → ClientPc
  | .write frame => .write frame true
  | .tryWrite frame => .write frame false
  | .writeBorrowed frame => .writeBorrowed frame
  | .submitBorrowed frame => .submitBorrowed frame
  | .flush => .flush
  | .cancel => .cancel
  | .close => .close
  | .setCopyPolicy policy => .setCopyPolicy policy
  | .setCpuLayoutPolicy policy => .setCpuLayoutPolicy policy

/-- The section that a client runs next; `none` where it is idle, inside a backend call, about to return, or
joining a worker that has not exited. -/
def clientSection (a : Impl) : ClientPc → Option Section
  | .write frame block => some (write cfg frame block a)
  | .writeBorrowed frame => some (writeBorrowed cfg frame a)
  | .writeCpuSyncRecord status => some (writeCpuSyncRecord status a)
  | .enqueueOwned frame block => some (enqueueOwned cfg frame block a)
  | .enqueueOwnedSpace frame block => some (enqueueOwnedSpace cfg frame block a)
  | .enqueueOwnedCopy frame block owned => some (enqueueOwnedCopy frame block owned a)
  | .enqueueOwnedReturn owned status => some (enqueueOwnedReturn owned status a)
  | .enqueueOwnedPush frame block owned => some (enqueueOwnedPush cfg frame block owned a)
  | .submitBorrowed frame => some (submitBorrowed cfg frame a)
  | .enqueueBorrowed frame => some (enqueueBorrowed cfg frame a)
  | .enqueueBorrowedSpace frame => some (enqueueBorrowedSpace cfg frame a)
  | .flush => some (flush cfg a)
  | .flushSyncRecord status => some (reply a status)
  | .flushSpace => some (flushSpace cfg a)
  | .flushWait token => some (flushWait token a)
  | .cancel => some (cancel cfg a)
  | .close => some (close cfg a)
  | .closeSyncRecord status => some (reply a status)
  | .closeJoin => if a.workerExited then some (closeJoin a) else none
  | .setCopyPolicy policy => some (setCopyPolicy cfg policy a)
  | .setCpuLayoutPolicy policy => some (setCpuLayoutPolicy policy a)
  | .idle | .writeCpuSync _ | .flushSync | .closeSync | .returning _ => none

/-- The end of a backend call that a client of a synchronous session makes, outside the lock. -/
def clientBackend (unknownMessage : String) (ended : CallEnd) (a : Impl) : ClientPc → Option Section
  | .writeCpuSync frame =>
      some (match ended with
        | .returned status => goto (a.called (.write frame ended)) (.writeCpuSyncRecord status)
        | .threw what => reply (a.called (.write frame ended)) (guard unknownMessage what))
  | .flushSync =>
      some (match ended with
        | .returned status => goto (a.called (.flush ended)) (.flushSyncRecord status)
        | .threw what => reply (a.called (.flush ended)) (guard unknownMessage what))
  | .closeSync =>
      some (match ended with
        | .returned status => goto (a.called (.close ended)) (.closeSyncRecord status)
        | .threw what => reply (a.called (.close ended)) (guard unknownMessage what))
  | _ => none

/-- One action of a client. -/
def clientAct (e : Choice) (a : Impl) (k : Client) : Option (Outcome Impl Client Cond) :=
  let inside (o : Section) : Outcome Impl Client Cond :=
    ⟨o.shared, { k with pc := o.loc }, o.notify, o.sleep⟩
  match e, k.pc, k.current with
  | .call c, .idle, _ => some ⟨a, { k with pc := c.entry, current := some c }, [], none⟩
  | .run, .returning status, some c =>
      some ⟨a, { pc := .idle, current := none, history := k.history ++ [(c, status)] }, [], none⟩
  | .run, pc, _ => (clientSection cfg a pc).map inside
  | .copyThrows what, .enqueueOwnedCopy _ _ _, some c =>
      some (inside (reply a (guard c.unknownMessage what)))
  | .backend ended, pc, some c => (clientBackend c.unknownMessage ended a pc).map inside
  | _, _, _ => none

end MkvCodec.Encoder
