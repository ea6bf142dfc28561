import MkvCodec.Gpu.Lemmas.Count

/-!
# DLPack exports of a GPU frame

`dlpack_adapter.cpp` over the C ABI of `Gpu.Lease`: threads that export planes of one frame, run the deleters of
the tensors, and use the frame in other ways. The account of an export is kept beyond the call, until the tensor is
deleted and longer.
-/

namespace MkvCodec.Gpu.Dlpack

open Concurrency

/-! ## Tensors -/

/-- `DLDeviceType`, as far as the adapter uses it. -/
inductive DLDeviceType
  | cuda
  | oneApi
  deriving DecidableEq

/-- `DLDataType`. -/
structure DLDataType where
  code : Nat
  bits : Nat
  lanes : Nat
  deriving DecidableEq

/-- `DLTensor`. -/
structure DLTensor where
  data : Nat
  deviceType : DLDeviceType
  deviceId : Nat
  ndim : Nat
  dtype : DLDataType
  shape : List Nat
  strides : List Nat
  byteOffset : Nat
  deriving DecidableEq

/-! ## Exports -/

/-- The arguments of an export; `frame` is the number of the handle, or null. `callback` is there in a call of
`mkvc_gpu_frame_export_dlpack_with_dependency` and says whether it got a callback; `out` says whether there is an
output argument. -/
structure Request where
  frame : Option Nat
  planeIndex : Nat
  consumerStream : Nat
  callback : Option Bool
  out : Bool
  deriving DecidableEq

/-- An event that a stream waits for. -/
structure Dependency where
  event : Nat
  stream : Nat
  deriving DecidableEq

/-- What an export has read of the frame. -/
structure Source where
  desc : GpuFrameDesc
  plane : Fin 4
  native : NativeHandleDesc

/-- Where an export stands: behind which call of the C ABI, or before which of its steps. A result `none` is an
exception. From `dependency` to `unwind` the `ScopedFrameLease` has a lease, which `release` gives back and which
the tensor has after a success. -/
inductive Stage
  | getDesc
  | getNativeHandle (desc : GpuFrameDesc) (plane : Fin 4)
  | retain (source : Source)
  | dependency (source : Source)
  | callback (source : Source)
  | stream (source : Source)
  | wait (source : Source)
  | unwind (result : Option Status)
  | release (result : Option Status)
  | failed (result : Option Status)
  | exported (tensor : DLTensor)
  | deleter
  | deleted

/-- An export with its books: what its call and its deleter have added to the reference count of the frame, whether
the producer was complete before one of their sections, and the dependency that was put on the stream. -/
structure Account where
  request : Request
  stage : Stage
  leases : Int
  complete : Bool
  registered : Option Dependency

/-- A frame with its exports. `others` is what all other calls have made of the reference counts. -/
structure Exports (C : Type*) where
  frame : Frame C
  accounts : List Account
  others : Nat → Int

/-- A thread: where it stands inside the C ABI, what the last call of the C ABI has returned, and the export that it
works for. -/
structure Exporter (C : Type*) where
  pc : Pc C
  reply : Option Reply
  task : Option Nat

/-- The answer of the allocator, of the dependency callback or of the driver. Where the adapter only stores the text
of an error, `throws` says that this fails. -/
inductive Answer
  | ok
  | fails (status : Status) (h : status.result ≠ .ok)
  | throws

/-- What the environment decides: a call outside of exports, an export, a section of the C ABI, a step of the
adapter, a deleter, or the state of a completion. -/
inductive ExportChoice (C : Type*)
  | lease (e : Choice C)
  | begin (request : Request) (answer : Answer)
  | section
  | advance (answer : Answer)
  | deleter (account : Nat)
  | signal (c : C) (state : CompletionState)

variable {C : Type*}

/-! ## Books -/

def producerComplete (a : Frame C) : Bool :=
  match a.core.producer with
  | none => false
  | some producer =>
      match producer.query a.states with
      | .complete => true
      | _ => false

/-- A section of an export or of its deleter has led from one frame to the other. -/
def Account.charge (a b : Frame C) (account : Account) : Account :=
  match account.request.frame with
  | none => account
  | some n =>
      { account with
        leases := account.leases + ((b.references n : Int) - a.references n)
        complete := account.complete || producerComplete a }

def Exports.record (x : Exports C) (task : Option Nat) (b : Frame C) : Exports C :=
  match task with
  | none => { x with frame := b, others := fun n => x.others n + ((b.references n : Int) - x.frame.references n) }
  | some k => { x with frame := b, accounts := x.accounts.modify k (Account.charge x.frame b) }

def Account.turn (stage : Stage) (account : Account) : Account := { account with stage := stage }

def Account.register (dependency : Dependency) (account : Account) : Account :=
  { account with registered := some dependency }

def Exports.turn (x : Exports C) (k : Nat) (stage : Stage) : Exports C :=
  { x with accounts := x.accounts.modify k (Account.turn stage) }

def Exports.register (x : Exports C) (k : Nat) (dependency : Dependency) : Exports C :=
  { x with accounts := x.accounts.modify k (Account.register dependency) }

/-- What exports and tensors have added to the reference count of a handle. -/
def Account.on (n : Nat) (account : Account) : Int := if account.request.frame = some n then account.leases else 0

def Exports.leased (x : Exports C) (n : Nat) : Int := (x.accounts.map (Account.on n)).sum

/-- A release in progress is no longer among the references that anybody owns. -/
def Stage.returning : Stage → Bool
  | .release _ | .deleter => true
  | _ => false

/-- Nobody works for the export any more, or not yet for its deleter. -/
def Stage.settled : Stage → Bool
  | .failed _ | .exported _ | .deleted => true
  | _ => false

/-- The references of a handle that belong to exports and tensors. -/
def Exports.lent (x : Exports C) (n : Nat) : Int :=
  ((x.accounts.filter fun account => !account.stage.returning).map (Account.on n)).sum

def Exporter.after (t : Exporter C) (o : Section C) : Exporter C := ⟨o.pc, o.reply.or t.reply, t.task⟩

def Answer.failure (answer : Answer) (status : Status) : Option Status :=
  match answer with
  | .throws => none
  | _ => some status

/-! ## What an export checks -/

def cuda (desc : GpuFrameDesc) (native : NativeHandleDesc) : Bool :=
  decide (desc.backend = .nvidia) && decide (desc.memoryType = .cudaPointer) && decide (native.type = .cudaPointer)

def usm (desc : GpuFrameDesc) (native : NativeHandleDesc) : Bool :=
  decide (desc.backend = .intel) && decide (desc.memoryType = .usm) && decide (native.type = .usmPointer)

/-- The checks before the frame is looked at, and that of a null frame. -/
def refuse (request : Request) : Option Status :=
  if request.callback.isSome && (decide (request.consumerStream = 0) || decide (request.callback = some false)) then
    some ⟨.errorInvalidArgument, "consumer stream and dependency callback are required"⟩
  else if !request.out then some ⟨.errorInvalidArgument, "null DLPack output"⟩
  else if request.frame.isNone then some invalidFrame
  else none

def checkPlane (desc : GpuFrameDesc) (planeIndex : Nat) : Option Status :=
  if planeIndex ≥ desc.planeCount ∨ desc.pixelFormat ≠ .nv12 then
    some ⟨.errorNotSupported, "DLPack export supports NV12 planes only"⟩
  else none

def checkSource (source : Source) : Option Status :=
  let desc := source.desc
  let native := source.native
  if (!cuda desc native && !usm desc native) || decide (native.handles 0 = 0) then
    some ⟨.errorNotSupported, "GPU memory is not a linear CUDA or Intel device-USM pointer"⟩
  else if desc.deviceId > 2 ^ 31 - 1 ∨ desc.pitches source.plane > 2 ^ 63 - 1 ∨
      desc.planeOffsets source.plane > 2 ^ 64 - 1 - native.handles 0 then
    some ⟨.errorInvalidArgument, "DLPack metadata exceeds its ABI range"⟩
  else none

def Source.tensor (source : Source) : DLTensor :=
  let desc := source.desc
  { data := source.native.handles 0 + desc.planeOffsets source.plane
    deviceType := if cuda desc source.native then .cuda else .oneApi
    deviceId := desc.deviceId
    ndim := 2
    dtype := ⟨1, 8, 1⟩
    shape := [if source.plane = 0 then desc.height else desc.height / 2, desc.width]
    strides := [desc.pitches source.plane, 1]
    byteOffset := 0 }

def Source.dependency (source : Source) (request : Request) : Dependency :=
  ⟨source.native.handles 3, request.consumerStream⟩

/-- `cuda_stream_wait_event` in front of the driver. -/
def cudaStreamWaitEvent (context event consumerStream : Nat) (driver : Answer) : Answer :=
  if context = 0 ∨ event = 0 ∨ consumerStream = 0 then
    .fails ⟨.errorInvalidArgument, "CUDA stream dependency requires context, event, and stream"⟩ (by simp)
  else driver

/-! ## Sections -/

abbrev Act (C : Type*) := Exports C × Exporter C

def goTo (x : Exports C) (t : Exporter C) (k : Nat) (stage : Stage) : Act C := (x.turn k stage, t)

def endTask (x : Exports C) (t : Exporter C) (k : Nat) (stage : Stage) : Act C :=
  (x.turn k stage, { t with task := none })

/-- The adapter calls a function of the C ABI. -/
def callAbi (x : Exports C) (t : Exporter C) (k : Nat) (stage : Stage) (call : Call C) : Option (Act C) :=
  (start x.frame call).map fun o => ((x.record (some k) o.shared).turn k stage, t.after o)

def afterDesc (x : Exports C) (t : Exporter C) (k n : Nat) (planeIndex : Nat) (answer : Answer) (reply : Reply) :
    Option (Act C) :=
  match reply.output with
  | some (.desc desc) =>
      match checkPlane desc planeIndex with
      | some status => some (endTask x t k (.failed (answer.failure status)))
      | none =>
          -- the arrays of the descriptor have four entries
          if h : planeIndex < 4 then
            callAbi x t k (.getNativeHandle desc ⟨planeIndex, h⟩) (.handle n (.getNativeHandle true))
          else none
  | _ => some (endTask x t k (.failed (answer.failure reply.status)))

def afterNative (x : Exports C) (t : Exporter C) (k n : Nat) (desc : GpuFrameDesc) (plane : Fin 4) (answer : Answer)
    (reply : Reply) : Option (Act C) :=
  match reply.output with
  | some (.native native) =>
      match checkSource ⟨desc, plane, native⟩ with
      | some status => some (endTask x t k (.failed (answer.failure status)))
      | none =>
          match answer with
          | .ok => callAbi x t k (.retain ⟨desc, plane, native⟩) (.handle n .retain)
          | .fails .. => some (endTask x t k (.failed (some ⟨.errorInternal, "DLPack allocation failed"⟩)))
          | .throws => some (endTask x t k (.failed none))
  | _ => some (endTask x t k (.failed (answer.failure reply.status)))

def afterRetain (x : Exports C) (t : Exporter C) (k : Nat) (source : Source) (answer : Answer) (reply : Reply) :
    Act C :=
  if reply.status.result = .ok then goTo x t k (.dependency source)
  else endTask x t k (.failed (answer.failure reply.status))

/-- Which way the export takes to the dependency on the producer. -/
def dependency (nvidia : Bool) (x : Exports C) (t : Exporter C) (k n : Nat) (request : Request) (source : Source)
    (answer : Answer) : Option (Act C) :=
  let event := decide (request.consumerStream ≠ 0) && decide (source.native.handles 3 ≠ 0)
  if usm source.desc source.native && event && decide (request.callback = some true) then
    some (goTo x t k (.callback source))
  else if cuda source.desc source.native && event then
    if nvidia then some (goTo x t k (.stream source))
    else
      some (goTo x t k
        (.unwind (answer.failure ⟨.errorNotSupported, "CUDA stream dependencies are disabled in this build"⟩)))
  else callAbi x t k (.wait source) (.handle n (.wait (2 ^ 32 - 1)))

def afterCallback (x : Exports C) (t : Exporter C) (k : Nat) (request : Request) (source : Source) (answer : Answer) :
    Act C :=
  match answer with
  | .ok => endTask (x.register k (source.dependency request)) t k (.exported source.tensor)
  | .fails status _ =>
      goTo x t k (.unwind (some ⟨status.result, "GPU dependency callback rejected the dependency"⟩))
  | .throws =>
      goTo x t k (.unwind (some ⟨.errorInternal, "GPU dependency callback threw across the C boundary"⟩))

def afterStream (x : Exports C) (t : Exporter C) (k : Nat) (request : Request) (source : Source) (answer : Answer) :
    Act C :=
  match cudaStreamWaitEvent (source.native.handles 1) (source.native.handles 3) request.consumerStream answer with
  | .ok => endTask (x.register k (source.dependency request)) t k (.exported source.tensor)
  | .fails status _ => goTo x t k (.unwind (some status))
  | .throws => goTo x t k (.unwind none)

def afterWait (x : Exports C) (t : Exporter C) (k : Nat) (source : Source) (answer : Answer) (reply : Reply) : Act C :=
  if reply.status.result = .ok then endTask x t k (.exported source.tensor)
  else goTo x t k (.unwind (answer.failure reply.status))

/-- The next step of the adapter, when no call of the C ABI is in progress. -/
def adapterStep (nvidia : Bool) (answer : Answer) (x : Exports C) (t : Exporter C) (k n : Nat) (account : Account) :
    Option (Act C) :=
  match account.stage with
  | .getDesc => t.reply.bind (afterDesc x t k n account.request.planeIndex answer)
  | .getNativeHandle desc plane => t.reply.bind (afterNative x t k n desc plane answer)
  | .retain source => t.reply.map (afterRetain x t k source answer)
  | .dependency source => dependency nvidia x t k n account.request source answer
  | .callback source => some (afterCallback x t k account.request source answer)
  | .stream source => some (afterStream x t k account.request source answer)
  | .wait source => t.reply.map (afterWait x t k source answer)
  | .unwind result => callAbi x t k (.release result) (.release n)
  | .release result => some (endTask x t k (.failed result))
  | .deleter => some (endTask x t k .deleted)
  | .failed _ | .exported _ | .deleted => none

/-- An exception leaves the wait of the producer, or the adapter goes on. -/
def advance (nvidia : Bool) (answer : Answer) (x : Exports C) (t : Exporter C) (k : Nat) : Option (Act C) :=
  match x.accounts[k]? with
  | none => none
  | some account =>
      match account.request.frame, t.pc with
      | some n, .idle => adapterStep nvidia answer x t k n account
      | some n, .wait _ _ =>
          match answer with
          | .throws =>
              some (goTo (x.record (some k) (x.frame.leave (some n))) { t with pc := .idle } k (.unwind none))
          | _ => none
      | _, _ => none

def begin (x : Exports C) (t : Exporter C) (request : Request) (answer : Answer) : Option (Act C) :=
  match refuse request with
  | some status =>
      some ({ x with accounts := x.accounts ++ [⟨request, .failed (answer.failure status), 0, false, none⟩] }, t)
  | none =>
      match request.frame with
      | none => none
      | some n =>
          callAbi { x with accounts := x.accounts ++ [⟨request, .getDesc, 0, false, none⟩] }
            { t with task := some x.accounts.length } x.accounts.length .getDesc (.handle n (.getDesc true))

/-- `delete_managed`. The consumer of a tensor calls its deleter once. -/
def deleteManaged (x : Exports C) (t : Exporter C) (k : Nat) : Option (Act C) :=
  match x.accounts[k]? with
  | none => none
  | some account =>
      match account.stage, account.request.frame with
      | .exported _, some n => callAbi x { t with task := some k } k .deleter (.release n)
      | _, _ => none

/-- The application gives back only references of its own. -/
def allowed (x : Exports C) : Choice C → Bool
  | .call (.release n) => decide (x.lent n < x.frame.owned n)
  | _ => true

def exporterSection (nvidia : Bool) (e : ExportChoice C) (x : Exports C) (t : Exporter C) : Option (Act C) :=
  match t.task with
  | none =>
      match e, t.pc with
      | .lease e, pc =>
          if allowed x e then (clientSection e x.frame pc).map fun o => (x.record none o.shared, t.after o) else none
      | .begin request answer, .idle => begin x t request answer
      | .deleter k, .idle => deleteManaged x t k
      | _, _ => none
  | some k =>
      match e with
      | .section => (runSection x.frame t.pc).map fun o => (x.record (some k) o.shared, t.after o)
      | .advance answer => advance nvidia answer x t k
      | _ => none

/-! ## The whole system -/

def exporterAct (nvidia : Bool) (e : ExportChoice C) (x : Exports C) (t : Exporter C) :
    Option (Outcome (Exports C) (Exporter C) Empty) :=
  (exporterSection nvidia e x t).map fun o => ⟨o.1, o.2, [], none⟩

/-- The drivers move the completions as they like. -/
def driverAct [DecidableEq C] (e : ExportChoice C) (x : Exports C) (w : Unit) :
    Option (Outcome (Exports C) Unit Empty) :=
  match e with
  | .signal c state =>
      some ⟨{ x with frame := { x.frame with states := Function.update x.frame.states c state } }, w, [], none⟩
  | _ => none

/-- `nvidia` says whether the build has `MKVC_HAS_NVIDIA`. -/
def exporting [DecidableEq C] (nvidia : Bool) : Program (Exports C) Unit (Exporter C) Empty (ExportChoice C) :=
  ⟨driverAct, exporterAct nvidia⟩

abbrev ExportState (C ι : Type*) := State (Exports C) Unit (Exporter C) Empty ι

abbrev ExportLabel (C ι : Type*) := Label ι (ExportChoice C)

abbrev Step [DecidableEq C] {ι : Type*} [DecidableEq ι] (nvidia : Bool) (s : ExportState C ι) (l : ExportLabel C ι)
    (t : ExportState C ι) : Prop := (exporting nvidia).Step s l t

/-- A frame that nobody exports yet, while no call is in progress: all references of its handles are with the
application. -/
structure Quiet {ι : Type*} (s : ExportState C ι) : Prop where
  idle : ∀ i, (s.client i).pc = .idle ∧ (s.client i).task = none
  born : s.shared.frame.life ≠ .unborn
  references : ∀ n, s.shared.frame.references n = s.shared.frame.owned n
  users : ∀ n, s.shared.frame.users n = 0
  accounts : s.shared.accounts = []
  others : ∀ n, s.shared.others n = s.shared.frame.references n

end MkvCodec.Gpu.Dlpack
