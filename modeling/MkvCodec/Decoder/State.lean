import MkvCodec.Api.Result
import MkvCodec.Concurrency.Monitor

/-!
# Decoders: data

The state of one `mkvc_decoder` over a backend, and the points at which the prefetch worker, the reading and
the closing thread of the application can stand. Metrics and the copy policy are left out: no function
modelled here reads them.
-/

namespace MkvCodec.Decoder

/-- How a read of the backend ends: OK with a frame, another result, or an exception. -/
inductive ReadEnd (F : Type*)
  | frame (frame : F)
  | ended (status : Status) (h : status.result ≠ .ok)
  | threw (what : Option String)

/-- What a read of the decoder returns: OK with a frame, or another result. -/
inductive ReadReturn (F : Type*)
  | frame (frame : F)
  | failed (status : Status)
  deriving DecidableEq

/-- A decoder backend with state `B`. `X` is what demuxer and codec answer during one read; `none` means that
the answers do not belong to a read in that state. -/
structure Backend (F B X : Type*) where
  read : X → B → Option (ReadEnd F × B)
  close : B → Status × B

/-- `mkvc_decoder`, with every read of the backend, which is kept for specifications only. -/
structure MkvcDecoder (F B : Type*) where
  backend : B
  queue : List F
  stopRequested : Bool
  workerFinished : Bool
  workerResult : Result
  workerError : String
  workerExited : Bool
  reads : List (ReadEnd F)

/-- Where the prefetch worker stands. -/
inductive WorkerPc (F : Type*)
  | notStarted
  | wait
  | read
  | record (ended : ReadEnd F)
  | exited

/-- Where a thread of the application stands: inside which function, before which section of it. -/
inductive ClientPc
  | idle
  | readPrefetched
  | readCpuSync
  | stopRequest
  | stopJoin
  | stopClear
  | closeBackend
  deriving DecidableEq

/-- The two threads of the application: one reads, one closes. -/
inductive Party
  | reader
  | closer
  deriving DecidableEq

/-- A thread of the application with what its calls have returned. -/
structure Client (F : Type*) where
  party : Party
  pc : ClientPc
  returns : List (ReadReturn F)
  closes : List Status

/-- The condition variables of a decoder. -/
inductive Cond
  | notEmpty
  | notFull
  deriving DecidableEq

/-- What the environment decides in a section: nothing, that an idle thread makes its call, or what demuxer
and codec answer during a read of the backend. -/
inductive Choice (X : Type*)
  | run
  | call
  | backend (answers : X)

/-! ## What a read returns -/

section

variable {F : Type*}

def ReadEnd.frame? : ReadEnd F → Option F
  | .frame f => some f
  | _ => none

def ReadReturn.frame? : ReadReturn F → Option F
  | .frame f => some f
  | .failed _ => none

/-- The result code and the frame. The diagnostic of an exception that is not a `std::exception` depends on
the thread that catches it. -/
def ReadReturn.seen : ReadReturn F → Result × Option F
  | .frame f => (.ok, some f)
  | .failed status => (status.result, none)

/-- What a read of the backend gives when `unknownMessage` describes an unknown exception. -/
def ReadEnd.returned (unknownMessage : String) : ReadEnd F → ReadReturn F
  | .frame f => .frame f
  | .ended status _ => .failed status
  | .threw what => .failed (guard unknownMessage what)

@[simp] theorem ReadEnd.returned_seen (e : ReadEnd F) (m m' : String) :
    (e.returned m).seen = (e.returned m').seen := by
  cases e <;> rfl

end

end MkvCodec.Decoder
