import MkvCodec.Concurrency.Monitor
import MkvCodec.Gpu.Import

/-!
# Leases of a GPU frame

One GPU frame in the hands of its handles, of components of the library and of threads, with the driver behind
its completions: `make_handle` and `get_core` of `gpu_frame.cpp`, the C ABI of `gpu_frame_c_api.cpp` and
`import_with_completion`. A section ends where a lock is released or an atomic is accessed.
-/

namespace MkvCodec.Gpu

open Concurrency

/-! ## State -/

/-- `mkvc_gpu_frame`. `owned` counts the references in the hands of the application, `users` the calls that it
makes on the handle, other than releases. -/
structure GpuFrameHandle where
  references : Nat
  generation : Nat
  owned : Nat
  users : Nat
  deleted : Bool

def GpuFrameHandle.use (h : GpuFrameHandle) : GpuFrameHandle := { h with users := h.users + 1 }

def GpuFrameHandle.unuse (h : GpuFrameHandle) : GpuFrameHandle := { h with users := h.users - 1 }

def GpuFrameHandle.own (h : GpuFrameHandle) : GpuFrameHandle := { h with owned := h.owned + 1 }

def GpuFrameHandle.disown (h : GpuFrameHandle) : GpuFrameHandle := { h with owned := h.owned - 1 }

/-- `references.fetch_add(1)`, with the reference that the application gets. -/
def GpuFrameHandle.addReference (h : GpuFrameHandle) : GpuFrameHandle :=
  { h with references := u32 (h.references + 1), owned := h.owned + 1 }

/-- `references.fetch_sub(1)`. -/
def GpuFrameHandle.dropReference (h : GpuFrameHandle) : GpuFrameHandle :=
  { h with references := if h.references = 0 then 2 ^ 32 - 1 else h.references - 1 }

def GpuFrameHandle.delete (h : GpuFrameHandle) : GpuFrameHandle := { h with deleted := true }

/-- A frame that is being imported has no core yet; the core dies in its destructor. -/
inductive Life
  | unborn
  | alive
  | dying
  | destroyed
  deriving DecidableEq

/-- A GPU frame with everything that refers to it. `holders` counts the `shared_ptr`s of library components, `bare`
the leases that they hold without a handle, `calls` the calls in progress. `recycles` are the calls of the recycle
callback. Of an imported frame, `imported` is what the import has returned, `accepted` its flag, and `releases` how
often the release callback has been called. -/
structure Frame (C : Type*) where
  core : GpuFrameCore C
  states : C → CompletionState
  handles : List GpuFrameHandle
  bare : Nat
  holders : Nat
  calls : Nat
  life : Life
  recycles : List Nat
  imported : Option Status
  accepted : Bool
  releases : Nat

/-- The calls of the C ABI on a handle; `out` says whether the output argument is valid. `getCore` is the use of
a handle by a library component. -/
inductive HandleOp
  | retain
  | getDesc (out : Bool)
  | queryCompletion (out : Bool)
  | wait (timeoutMs : Nat)
  | getNativeHandle (out : Bool)
  | getCore

/-- What can be called on a frame: an operation on a handle, its release, what a component of the library does
with the core, and the destructor, when nobody holds the core any more. -/
inductive Call (C : Type*)
  | handle (handle : Nat) (op : HandleOp)
  | release (handle : Nat)
  | makeHandle
  | acquireExternal
  | releaseExternal
  | addConsumer (completion : Option (Completion C))
  | pollRecycle
  | dropCore
  | destroy

/-- On whose behalf `acquire_external` is called: a component that keeps a bare lease, `make_handle`, or
`make_handle` of an import. -/
inductive Acquirer
  | component
  | makeHandle
  | importer
  deriving DecidableEq

inductive Output
  | desc (desc : GpuFrameDesc)
  | completion (state : CompletionState)
  | native (native : NativeHandleDesc)

/-- What a call returns. -/
structure Reply where
  status : Status
  output : Option Output

/-- What is left to do of a call that may have recycled the frame. -/
inductive Next
  | finish (handle : Option Nat) (reply : Option Reply)
  | delete (handle : Nat)
  | rethrow (who : Acquirer) (what : Option String)
  | destroyed (reply : Option Reply)

/-- Where a thread stands: inside which function, before which section of it. -/
inductive Pc (C : Type*)
  | idle
  | importFrame (config : Option (ExternalFrameConfig C)) (out : Bool)
  | acquire (who : Acquirer)
  | wrap (who : Acquirer)
  | accept (handle : Nat)
  | check (handle : Nat) (op : HandleOp)
  | addReference (handle : Nat)
  | query (handle : Nat)
  | wait (handle : Nat) (timeoutMs : Nat)
  | native (handle : Nat)
  | addConsumer (completion : Option (Completion C))
  | poll (next : Next)
  | dropReference (handle : Nat)
  | releaseExternal (next : Next)
  | callback (generation : Nat) (next : Next)
  | delete (handle : Nat)
  | dropCore (reply : Option Reply)
  | destroyWait (rest : List (Completion C)) (reply : Option Reply)

/-- A thread with what its calls have returned. -/
structure Client (C : Type*) where
  pc : Pc C
  replies : List Reply

/-- What the environment decides: nothing, that an idle thread makes a call, that the section throws, that a wait
times out, or the state of a completion. -/
inductive Choice (C : Type*)
  | run
  | call (call : Call C)
  | throws (what : Option String)
  | timeout
  | signal (c : C) (state : CompletionState)

/-! ## Sections -/

variable {C : Type*}

/-- The outcome of a section, with what the call returns if it is its last. -/
structure Section (C : Type*) where
  shared : Frame C
  pc : Pc C
  reply : Option Reply

def Frame.modify (a : Frame C) (handle : Nat) (f : GpuFrameHandle → GpuFrameHandle) : Frame C :=
  { a with handles := a.handles.modify handle f }

/-- The call of a thread ends, which used a handle or not. -/
def Frame.leave (a : Frame C) : Option Nat → Frame C
  | none => { a with calls := a.calls - 1 }
  | some handle => { a.modify handle .unuse with calls := a.calls - 1 }

def Frame.enter (a : Frame C) : Frame C := { a with calls := a.calls + 1 }

/-- Nobody holds the core any more. -/
def Frame.unheld (a : Frame C) : Bool :=
  decide (a.holders = 0) && decide (a.bare = 0) && a.handles.all GpuFrameHandle.deleted

def Reply.of (status : Status) : Reply := ⟨status, none⟩

def finish (a : Frame C) (handle : Option Nat) (reply : Option Reply) : Section C :=
  ⟨a.leave handle, .idle, reply⟩

/-- An exception that leaves `make_handle`. An import drops the core on its way. -/
def rethrow (a : Frame C) (who : Acquirer) (what : Option String) : Section C :=
  match who with
  | .importer => ⟨a, .dropCore (some (.of (guard "unknown external GPU frame import failure" what))), none⟩
  | _ => finish a none (some (.of (guard "unknown GPU frame failure" what)))

def proceed (a : Frame C) : Next → Section C
  | .finish handle reply => finish a handle reply
  | .delete handle => ⟨a, .delete handle, none⟩
  | .rethrow who what => rethrow a who what
  | .destroyed none => finish { a with life := .destroyed } none none
  | .destroyed (some reply) => finish { a with life := .destroyed, imported := some reply.status } none (some reply)

/-- The recycle callback is called without the lock. -/
def recycleThen (a : Frame C) (next : Next) (r : GpuFrameCore C × Option Nat) : Section C :=
  match r.2 with
  | none => proceed { a with core := r.1 } next
  | some generation => ⟨{ a with core := r.1 }, .callback generation next, none⟩

/-- The recycle callback. That of an import calls the release callback, which an accepted configuration has, once
the import has been accepted. -/
def callback (a : Frame C) (generation : Nat) (next : Next) : Section C :=
  proceed
    { a with
      recycles := a.recycles ++ [generation]
      releases := if a.accepted then a.releases + 1 else a.releases } next

/-- `valid` of the C ABI, and the check of `get_core`. -/
def valid (core : GpuFrameCore C) (h : GpuFrameHandle) : Bool :=
  decide (h.generation = core.desc.generation) && !core.recycled

def invalidFrame : Status := ⟨.errorInvalidState, "invalid or released GPU frame"⟩

/-- What follows the check of a handle. -/
def afterCheck (a : Frame C) (handle : Nat) : HandleOp → Section C
  | .retain => ⟨a, .addReference handle, none⟩
  | .getDesc out =>
      if out then finish a (some handle) (some ⟨.ok, some (.desc a.core.desc)⟩)
      else finish a (some handle) (some (.of ⟨.errorInvalidArgument, "invalid GPU frame descriptor"⟩))
  | .queryCompletion out =>
      if out then ⟨a, .query handle, none⟩
      else finish a (some handle) (some (.of ⟨.errorInvalidArgument, "completion output is null"⟩))
  | .wait timeoutMs => ⟨a, .wait handle timeoutMs, none⟩
  | .getNativeHandle out =>
      if out then ⟨a, .native handle, none⟩
      else finish a (some handle) (some (.of ⟨.errorInvalidArgument, "invalid native handle output"⟩))
  | .getCore => finish { a with holders := a.holders + 1 } (some handle) (some (.of .ok))

def checkHandle (a : Frame C) (handle : Nat) (op : HandleOp) : Option (Section C) :=
  match a.handles[handle]? with
  | none => none
  | some h => if valid a.core h then some (afterCheck a handle op)
      else some (finish a (some handle) (some (.of invalidFrame)))

def acquire (a : Frame C) (who : Acquirer) : Section C :=
  match a.core.acquireExternal with
  | .error what => rethrow a who (some what)
  | .ok core =>
      match who with
      | .component => finish { a with core := core, bare := a.bare + 1 } none (some (.of .ok))
      | _ => ⟨{ a with core := core }, .wrap who, none⟩

def newHandle (a : Frame C) (owned : Nat) : GpuFrameHandle := ⟨1, a.core.desc.generation, owned, 0, false⟩

/-- The handle around a lease. An import returns it to the application only after it has set its flag. -/
def wrap (a : Frame C) : Acquirer → Option (Section C)
  | .component => none
  | .makeHandle => some (finish { a with handles := a.handles ++ [newHandle a 1] } none (some (.of .ok)))
  | .importer => some ⟨{ a with handles := a.handles ++ [newHandle a 0] }, .accept a.handles.length, none⟩

def accept (a : Frame C) (handle : Nat) : Section C :=
  finish { a.modify handle .own with accepted := true, imported := some .ok } none (some (.of .ok))

/-- What `query_completion` returns. -/
def CompletionState.queryReply (state : CompletionState) : Reply :=
  match state with
  | .failed status _ => ⟨⟨.errorCodec, status.error⟩, some (.completion state)⟩
  | _ => ⟨.ok, some (.completion state)⟩

/-- What the wait of a completion returns when it does. -/
def CompletionState.waitStatus : CompletionState → Option Status
  | .pending => none
  | .complete => some .ok
  | .failed status _ => some status

def native (a : Frame C) (handle : Nat) : Section C :=
  match a.core.getNativeHandle with
  | .error status => finish a (some handle) (some (.of status))
  | .ok native => finish a (some handle) (some ⟨.ok, some (.native native)⟩)

/-- `mkvc_gpu_frame_release`: the last reference takes the lease with it. -/
def dropReference (a : Frame C) (handle : Nat) : Option (Section C) :=
  match a.handles[handle]? with
  | none => none
  | some h =>
      if h.references = 1 then some ⟨a.modify handle .dropReference, .releaseExternal (.delete handle), none⟩
      else some (finish (a.modify handle .dropReference) none none)

/-- The destructor runs in the last call that held the core. -/
def dropCore (a : Frame C) (reply : Option Reply) : Option (Section C) :=
  if decide (a.calls = 1) && a.unheld then
    if a.core.recycled then some (proceed { a with life := .dying } (.destroyed reply))
    else some ⟨{ a with life := .dying }, .destroyWait a.core.completions reply, none⟩
  else none

/-- The destructor waits for its completions without a limit. -/
def destroyWait (a : Frame C) (rest : List (Completion C)) (reply : Option Reply) : Option (Section C) :=
  match rest with
  | [] => some (recycleThen a (.destroyed reply) (a.core.destroy a.states))
  | completion :: rest =>
      if (completion.query a.states).isPending then none else some ⟨a, .destroyWait rest reply, none⟩

/-- The import makes the core, which nobody had before. -/
def importFrame (a : Frame C) (config : Option (ExternalFrameConfig C)) (out : Bool) : Option (Section C) :=
  match importExternal config out with
  | .error status => some (finish { a with imported := some status } none (some (.of status)))
  | .ok core =>
      if a.life = .unborn then some ⟨{ a with core := core, life := .alive }, .acquire .importer, none⟩ else none

/-- Components of the library call only what they hold. -/
def library (a : Frame C) (pc : Pc C) : Option (Section C) :=
  if decide (0 < a.holders) && decide (a.life = .alive) then some ⟨a.enter, pc, none⟩ else none

/-- The start of a call. The application uses a handle only while it has a reference, and does not give the last
one away during a call on the handle. -/
def start (a : Frame C) : Call C → Option (Section C)
  | .handle handle op =>
      match a.handles[handle]? with
      | none => none
      | some h =>
          if !h.deleted && decide (0 < h.owned) then some ⟨(a.modify handle .use).enter, .check handle op, none⟩
          else none
  | .release handle =>
      match a.handles[handle]? with
      | none => none
      | some h =>
          if !h.deleted && decide (0 < h.owned) && (decide (2 ≤ h.owned) || decide (h.users = 0)) then
            some ⟨(a.modify handle .disown).enter, .dropReference handle, none⟩
          else none
  | .makeHandle => library a (.acquire .makeHandle)
  | .acquireExternal => library a (.acquire .component)
  | .releaseExternal =>
      if 0 < a.bare then some ⟨{ a.enter with bare := a.bare - 1 }, .releaseExternal (.finish none none), none⟩
      else none
  | .addConsumer completion => library a (.addConsumer completion)
  | .pollRecycle => library a (.poll (.finish none none))
  | .dropCore => if 0 < a.holders then some ⟨{ a with holders := a.holders - 1 }, .idle, none⟩ else none
  | .destroy =>
      if decide (a.life = .alive) && decide (a.calls = 0) && a.unheld then some ⟨a.enter, .dropCore none, none⟩
      else none

/-- A section that the environment does not decide. -/
def runSection (a : Frame C) : Pc C → Option (Section C)
  | .idle => none
  | .importFrame config out => importFrame a config out
  | .acquire who => some (acquire a who)
  | .wrap who => wrap a who
  | .accept handle => some (accept a handle)
  | .check handle op => checkHandle a handle op
  | .addReference handle => some (finish (a.modify handle .addReference) (some handle) (some (.of .ok)))
  | .query handle =>
      a.core.producer.map fun producer =>
        ⟨a, .poll (.finish (some handle) (some (producer.query a.states).queryReply)), none⟩
  | .wait handle _ =>
      a.core.producer.bind fun producer => (producer.query a.states).waitStatus.map fun status =>
        ⟨a, .poll (.finish (some handle) (some (.of status))), none⟩
  | .native handle => some (native a handle)
  | .addConsumer completion =>
      some (finish { a with core := (a.core.addConsumer completion).2 } none
        (some (.of (a.core.addConsumer completion).1)))
  | .poll next => some (recycleThen a next (a.core.maybeRecycle a.states))
  | .dropReference handle => dropReference a handle
  | .releaseExternal next => some (recycleThen a next (a.core.releaseExternal a.states))
  | .callback generation next => some (callback a generation next)
  | .delete handle => some (finish (a.modify handle .delete) none none)
  | .dropCore reply => dropCore a reply
  | .destroyWait rest reply => destroyWait a rest reply

/-- A section that throws: an allocation of `make_handle` or of an import. -/
def throwSection (a : Frame C) (what : Option String) : Pc C → Option (Section C)
  | .importFrame _ _ =>
      let status := guard "unknown external GPU frame import failure" what
      some (finish { a with imported := some status } none (some (.of status)))
  | .wrap who => some ⟨a, .releaseExternal (.rethrow who what), none⟩
  | _ => none

def timeoutSection (a : Frame C) : Pc C → Option (Section C)
  | .wait handle timeoutMs =>
      if timeoutMs = 2 ^ 32 - 1 then none
      else some ⟨a, .poll (.finish (some handle) (some (.of ⟨.errorTimeout, ""⟩))), none⟩
  | _ => none

def clientSection (e : Choice C) (a : Frame C) (pc : Pc C) : Option (Section C) :=
  match e, pc with
  | .call call, .idle => start a call
  | .run, pc => runSection a pc
  | .throws what, pc => throwSection a what pc
  | .timeout, pc => timeoutSection a pc
  | _, _ => none

/-! ## The whole system -/

def clientAct (e : Choice C) (a : Frame C) (k : Client C) : Option (Outcome (Frame C) (Client C) Empty) :=
  (clientSection e a k.pc).map fun o => ⟨o.shared, ⟨o.pc, k.replies ++ o.reply.toList⟩, [], none⟩

/-- The drivers move the completions as they like. -/
def driverAct [DecidableEq C] (e : Choice C) (a : Frame C) (w : Unit) : Option (Outcome (Frame C) Unit Empty) :=
  match e with
  | .signal c state => some ⟨{ a with states := Function.update a.states c state }, w, [], none⟩
  | _ => none

def program [DecidableEq C] : Program (Frame C) Unit (Client C) Empty (Choice C) := ⟨driverAct, clientAct⟩

abbrev FrameState (C ι : Type*) := State (Frame C) Unit (Client C) Empty ι

abbrev FrameLabel (C ι : Type*) := Label ι (Choice C)

/-- A frame as a component of the library has made it. -/
def FrameState.init (ι : Type*) (desc : GpuFrameDesc) (producer : Option (Completion C))
    (native : Option NativeHandleDesc) (states : C → CompletionState) : FrameState C ι :=
  { shared :=
      { core := .new desc producer native, states := states, handles := [], bare := 0, holders := 1, calls := 0
        life := .alive, recycles := [], imported := none, accepted := false, releases := 0 }
    worker := (), client := fun _ => ⟨.idle, []⟩, workerSleep := none, sleep := fun _ => none }

/-- A thread that imports a frame. There is no core yet, so nobody looks at the one that stands in its place. -/
def FrameState.importing {ι : Type*} [DecidableEq ι] (importer : ι) (config : Option (ExternalFrameConfig C))
    (out : Bool) (desc : GpuFrameDesc) (states : C → CompletionState) : FrameState C ι :=
  { shared :=
      { core := .new desc none none, states := states, handles := [], bare := 0, holders := 0, calls := 1
        life := .unborn, recycles := [], imported := none, accepted := false, releases := 0 }
    worker := (), client := Function.update (fun _ => ⟨.idle, []⟩) importer ⟨.importFrame config out, []⟩
    workerSleep := none, sleep := fun _ => none }

abbrev Step [DecidableEq C] {ι : Type*} [DecidableEq ι] (s : FrameState C ι) (l : FrameLabel C ι)
    (t : FrameState C ι) : Prop := program.Step s l t

end MkvCodec.Gpu
