import Mathlib.Logic.Function.Basic
import MkvCodec.Backend.Timing

/-!
# Component timers

`ActiveComponentMetrics` and `ScopedComponentTimer` of `pipeline_component_metrics.hpp`, on one thread. Scopes and timers
are objects of automatic storage, so that a thread goes through a sequence of them that is properly nested; a `Trace` is
such a sequence, with what the clock shows where a timer is made and where it goes.
-/

namespace MkvCodec.Metrics

open Backend (u64 asUInt64)

inductive PipelineComponent
  | conversion
  | codec
  | container
  | gpuWait
  deriving DecidableEq

/-- The counters of one component in an accumulator. -/
structure Counter where
  calls : Nat
  timeNs : Nat

/-- One call of `ComponentMetricsAccumulator::add`. Accumulators are known by their address. -/
structure Sample (A : Type*) where
  accumulator : A
  component : PipelineComponent
  elapsedNs : Nat

/-- `ComponentTimerEntry`. Times are nanoseconds of the clock in an `int64_t`. -/
structure ComponentTimerEntry (A : Type*) where
  accumulator : Option A
  component : PipelineComponent
  started : Int
  elapsedNs : Nat
  running : Bool

/-- What the thread keeps in `active_component_metrics` and `component_timer_stack`, and the counters of the accumulators.
`samples` are the calls of `add`, for specifications only. -/
structure ThreadState (A : Type*) where
  active : Option A
  entries : Nat → ComponentTimerEntry A
  depth : Nat
  counters : A → PipelineComponent → Counter
  samples : List (Sample A)

/-- Scopes and timers that follow one another, each with what is nested in it. A timer has the readings of the clock at
its construction and at its destruction. -/
inductive Trace (A : Type*)
  | done
  | scope (accumulator : A) (body rest : Trace A)
  | timer (component : PipelineComponent) (opened : Int) (body : Trace A) (closed : Int) (rest : Trace A)

/-- `kCapacity`. -/
def timerCapacity : Nat := 32

/-- `component_duration`. -/
def componentDuration (began ended : Int) : Nat := asUInt64 (ended - began)

namespace ComponentTimerEntry

variable {A : Type*}

/-- `pause_component_timer`. -/
def pause (entry : ComponentTimerEntry A) (now : Int) : ComponentTimerEntry A :=
  if !entry.running then entry
  else { entry with elapsedNs := u64 (entry.elapsedNs + componentDuration entry.started now), running := false }

/-- `resume_component_timer`. -/
def resume (entry : ComponentTimerEntry A) (now : Int) : ComponentTimerEntry A :=
  { entry with started := now, running := true }

end ComponentTimerEntry

variable {A : Type*} [DecidableEq A]

/-- `ComponentMetricsAccumulator::add` on the counters. -/
def addSample (counters : A → PipelineComponent → Counter) (sample : Sample A) : A → PipelineComponent → Counter :=
  fun accumulator component =>
    if accumulator = sample.accumulator ∧ component = sample.component then
      ⟨u64 ((counters accumulator component).calls + 1),
        u64 ((counters accumulator component).timeNs + sample.elapsedNs)⟩
    else counters accumulator component

namespace ThreadState

def add (s : ThreadState A) (sample : Sample A) : ThreadState A :=
  { s with counters := addSample s.counters sample, samples := s.samples ++ [sample] }

def setEntry (s : ThreadState A) (index : Nat) (entry : ComponentTimerEntry A) : ThreadState A :=
  { s with entries := Function.update s.entries index entry }

/-- The constructor of `ScopedComponentTimer`; with its index, where the timer is recorded. -/
def openTimer (s : ThreadState A) (component : PipelineComponent) (now : Int) : ThreadState A × Option Nat :=
  match s.active with
  | none => (s, none)
  | some accumulator =>
      if s.depth = timerCapacity then (s, none)
      else
        let s := if s.depth ≠ 0 then s.setEntry (s.depth - 1) ((s.entries (s.depth - 1)).pause now) else s
        ({ s.setEntry s.depth ⟨some accumulator, component, now, 0, true⟩ with depth := s.depth + 1 }, some s.depth)

/-- The destructor of `ScopedComponentTimer`. -/
def closeTimer (s : ThreadState A) (index : Option Nat) (now : Int) : ThreadState A :=
  match index with
  | none => s
  | some index =>
      let entry := (s.entries index).pause now
      let s := s.setEntry index entry
      let s :=
        match entry.accumulator with
        | none => s
        | some accumulator => s.add ⟨accumulator, entry.component, entry.elapsedNs⟩
      let s := { s with depth := index }
      if index ≠ 0 then s.setEntry (index - 1) ((s.entries (index - 1)).resume now) else s

end ThreadState

namespace Trace

/-- What a thread makes of a trace. `ActiveComponentMetrics` sets the accumulator, and puts the previous one back. -/
def run : Trace A → ThreadState A → ThreadState A
  | .done, s => s
  | .scope accumulator body rest, s =>
      rest.run { body.run { s with active := some accumulator } with active := s.active }
  | .timer component opened body closed rest, s =>
      let (s, index) := s.openTimer component opened
      rest.run ((body.run s).closeTimer index closed)

omit [DecidableEq A]

/-- What the clock shows behind a trace. -/
def lastReading : Trace A → Int → Int
  | .done, last => last
  | .scope _ body rest, last => rest.lastReading (body.lastReading last)
  | .timer _ _ _ closed rest, _ => rest.lastReading closed

/-- A monotone clock: from `last` on every reading is no less than the one before it, and an `int64_t`. -/
def Clocked : Trace A → Int → Prop
  | .done, _ => True
  | .scope _ body rest, last => body.Clocked last ∧ rest.Clocked (body.lastReading last)
  | .timer _ opened body closed rest, last =>
      last ≤ opened ∧ body.Clocked opened ∧ body.lastReading opened ≤ closed ∧ closed < 2 ^ 63 ∧ rest.Clocked closed

/-- The timers that are recorded, in the order in which they go, for an accumulator that is active and a number of open
timers. -/
def recorded : Trace A → Option A → Nat → List (A × PipelineComponent)
  | .done, _, _ => []
  | .scope accumulator body rest, active, depth =>
      body.recorded (some accumulator) depth ++ rest.recorded active depth
  | .timer component _ body _ rest, active, depth =>
      match active with
      | none => body.recorded none depth ++ rest.recorded none depth
      | some accumulator =>
          if depth = timerCapacity then body.recorded (some accumulator) depth ++ rest.recorded (some accumulator) depth
          else
            body.recorded (some accumulator) (depth + 1) ++ (accumulator, component) :: rest.recorded (some accumulator) depth

end Trace

end MkvCodec.Metrics
