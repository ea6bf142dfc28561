import MkvCodec.Api.Result
import MkvCodec.Concurrency.Transition
import MkvCodec.Data.Resources

/-!
# Imported surfaces

`VplImportedSurfaceTracker` with the oneVPL runtime, which counts its references to a surface and locks it on threads of
its own. A read of a counter and a release are steps of their own, and the counters may change between them.
-/

namespace MkvCodec.Gpu

open Concurrency Resources

/-- What the runtime keeps for a surface that it has imported: what `GetRefCounter` tells, and `Data.Locked`. -/
structure SurfaceCounters where
  references : Nat
  locked : Nat

/-- `ImportedInput`; a null pointer is `none`. -/
structure ImportedInput where
  surface : Option Nat
  owner : Option Nat

/-- What is released in the end. Surfaces and handles of frames are numbered by the call that has imported them. -/
inductive ImportResource
  | wrapper (n : Nat)
  | owner (n : Nat)
  | runtime
  deriving DecidableEq

namespace ImportedInput

def wrappers (input : ImportedInput) : List ImportResource := (input.surface.map .wrapper).toList

def owners (input : ImportedInput) : List ImportResource := (input.owner.map .owner).toList

/-- What the destructor releases, in its order. -/
def resources (input : ImportedInput) : List ImportResource := input.wrappers ++ input.owners

end ImportedInput

/-- Where the thread of the encoder is. In `retire` it is at an input, and has read no counter of it, the references, or
both counters; the flag says that `acquire` has called `retire`. -/
inductive TrackerPc
  | idle
  | retiring (i : Nat) (acquiring : Bool)
  | counted (i : Nat) (acquiring : Bool)
  | releasable (i : Nat) (acquiring : Bool)
  | acquiring
  | wrappersReleased
  | runtimeClosed
  | closed
  deriving DecidableEq

/-- `IntelVplEncoder` as far as its imported surfaces are concerned. `next` is the number of the next import. -/
structure TrackerState where
  inputs : List ImportedInput
  runtime : Bool
  pc : TrackerPc
  next : Nat
  counters : Nat → SurfaceCounters
  events : List (Event ImportResource)

def kMaxImportedInputs : Nat := 64

/-- How an import ends: `import_vpl_encode_surface` has refused it, `make_handle` or the growth of the list has thrown, or
it succeeds. -/
inductive ImportAnswer
  | refused (status : Status)
  | handleThrown
  | listThrown
  | imported

/-- What `acquire` learns about its frame. -/
inductive SurfaceAnswer
  | noNativeHandle (error : String)
  | otherDevice
  | producerFailed (status : Status)
  | oneVplSurface
  | external (answer : ImportAnswer)

/-- What `acquire` leaves to its caller. -/
inductive Acquired
  | oneVplSurface
  | imported (n : Nat)
  | failed (status : Status)
  | thrown
  deriving DecidableEq

namespace TrackerState

def init : TrackerState := ⟨[], true, .idle, 0, fun _ => ⟨1, 0⟩, [.create .runtime]⟩

/-- What the encoder has to release. -/
def owned (s : TrackerState) : List ImportResource :=
  s.inputs.flatMap ImportedInput.resources ++ if s.runtime then [.runtime] else []

def surfaceAt (s : TrackerState) (i : Nat) : Option Nat := s.inputs[i]?.bind ImportedInput.surface

/-- The surface whose counters are being read. -/
def checked (s : TrackerState) : Option Nat :=
  match s.pc with
  | .counted i _ | .releasable i _ => s.surfaceAt i
  | _ => none

def logAll (s : TrackerState) (resources : List ImportResource) : TrackerState :=
  { s with events := (resources.map .destroy).reverse ++ s.events }

/-- The end of the attempt to import a frame. What was created is destroyed again when something is thrown. -/
def importSurface (s : TrackerState) : ImportAnswer → TrackerState × Acquired
  | .refused status => (s, .failed status)
  | .handleThrown =>
      ({ s with events := .create (.wrapper s.next) :: s.events, next := s.next + 1 }.logAll [.wrapper s.next], .thrown)
  | .listThrown =>
      ({ s with
          events := .create (.owner s.next) :: .create (.wrapper s.next) :: s.events
          next := s.next + 1 }.logAll [.wrapper s.next, .owner s.next], .thrown)
  | .imported =>
      ({ s with
          inputs := s.inputs ++ [⟨some s.next, some s.next⟩]
          events := .create (.owner s.next) :: .create (.wrapper s.next) :: s.events
          next := s.next + 1 }, .imported s.next)

/-- `acquire`, behind its call of `retire`. -/
def acquire (s : TrackerState) : SurfaceAnswer → TrackerState × Acquired
  | .noNativeHandle error => (s, .failed ⟨.errorInvalidArgument, error⟩)
  | .otherDevice =>
      (s, .failed ⟨.errorInvalidArgument, "external Intel frame belongs to a different device/display; flush first"⟩)
  | .producerFailed status => (s, .failed status)
  | .oneVplSurface => (s, .oneVplSurface)
  | .external answer =>
      if s.inputs.length ≥ kMaxImportedInputs then
        (s, .failed ⟨.wouldBlock, "Intel imported surface retention limit reached; flush before retrying"⟩)
      else s.importSurface answer

/-- The first half of `can_release_imported_surface`. `counts` says that the surface has a `GetRefCounter` that succeeds. -/
def count (s : TrackerState) (i : Nat) (acquiring counts : Bool) : TrackerState :=
  match s.inputs[i]? with
  | none => { s with pc := if acquiring then .acquiring else .idle }
  | some input =>
      match input.surface with
      | none => { s with pc := .retiring (i + 1) acquiring }
      | some n =>
          if counts && decide ((s.counters n).references = 1) then { s with pc := .counted i acquiring }
          else { s with pc := .retiring (i + 1) acquiring }

/-- The second half. -/
def readLocked (s : TrackerState) (i : Nat) (acquiring : Bool) : TrackerState :=
  match s.surfaceAt i with
  | some n =>
      if (s.counters n).locked = 0 then { s with pc := .releasable i acquiring }
      else { s with pc := .retiring (i + 1) acquiring }
  | none => { s with pc := .retiring (i + 1) acquiring }

/-- `erase`; the next input moves to the place of this one. -/
def erase (s : TrackerState) (i : Nat) (acquiring : Bool) : TrackerState :=
  { s.logAll (s.inputs[i]?.toList.flatMap ImportedInput.resources) with
    inputs := s.inputs.eraseIdx i
    pc := .retiring i acquiring }

def releaseWrappersBeforeRuntimeClose (s : TrackerState) : TrackerState :=
  { s.logAll (s.inputs.flatMap ImportedInput.wrappers) with
    inputs := s.inputs.map fun input => { input with surface := none }
    pc := .wrappersReleased }

/-- `runtime.reset()`. -/
def closeRuntime (s : TrackerState) : TrackerState :=
  { s.logAll (if s.runtime then [.runtime] else []) with runtime := false, pc := .runtimeClosed }

def releaseOwnersAfterRuntimeClose (s : TrackerState) : TrackerState :=
  { s.logAll (s.inputs.flatMap ImportedInput.resources) with inputs := [], pc := .closed }

end TrackerState

/-- What happens: a call or a part of one on the thread of the encoder, or the runtime changes the counters of a surface
that it has imported. -/
inductive TrackerLabel
  | retire
  | count (counts : Bool)
  | readLocked
  | erase
  | beginAcquire
  | acquire (answer : SurfaceAnswer)
  | releaseWrappers
  | closeRuntime
  | releaseOwners
  | evolve (n : Nat) (counters : SurfaceCounters)

namespace TrackerState

/-- One step. -/
def step (s : TrackerState) : TrackerLabel → Option TrackerState
  | .retire => if s.pc = .idle then some { s with pc := .retiring 0 false } else none
  | .beginAcquire => if s.pc = .idle then some { s with pc := .retiring 0 true } else none
  | .count counts =>
      match s.pc with
      | .retiring i acquiring => some (s.count i acquiring counts)
      | _ => none
  | .readLocked =>
      match s.pc with
      | .counted i acquiring => some (s.readLocked i acquiring)
      | _ => none
  | .erase =>
      match s.pc with
      | .releasable i acquiring => some (s.erase i acquiring)
      | _ => none
  | .acquire answer => if s.pc = .acquiring then some { (s.acquire answer).1 with pc := .idle } else none
  | .releaseWrappers => if s.pc = .idle then some s.releaseWrappersBeforeRuntimeClose else none
  | .closeRuntime => if s.pc = .wrappersReleased then some s.closeRuntime else none
  | .releaseOwners => if s.pc = .runtimeClosed then some s.releaseOwnersAfterRuntimeClose else none
  | .evolve n c =>
      if n < s.next then some { s with counters := Function.update s.counters n c } else none

def Step (s : TrackerState) (l : TrackerLabel) (t : TrackerState) : Prop := s.step l = some t

end TrackerState

end MkvCodec.Gpu
