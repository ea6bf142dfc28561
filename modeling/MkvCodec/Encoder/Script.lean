import MkvCodec.Encoder.Lemmas.Order

/-!
# Scripts

One client runs a script: blocking writes and flushes, and at the end one close. The answers of the calls and
what they ask of the backend are stated here without a queue, a worker or a lock. `Follows` is the
environment of such a run: the calls of the script in their order, a backend that never fails, and no copy
that runs out of memory.
-/

namespace MkvCodec.Encoder

open Concurrency

variable (cfg : Config)

/-- One call of a script, before its close. -/
inductive Op
  | write (frame : FrameView)
  | flush

def Op.call : Op → Call
  | .write frame => .write frame
  | .flush => .flush

def script (ops : List Op) : List Call := ops.map Op.call ++ [.close]

/-! ## What a script asks for -/

/-- One request to the backend. -/
inductive Event
  | write (picture : Picture)
  | flush
  | close

def Item.event : Item → Event
  | .owned frame _ => .write frame.view.picture
  | .borrowed frame _ => .write frame.picture
  | .flush _ => .flush

def BackendCall.event : BackendCall → Event
  | .item served _ => served.event
  | .write frame _ => .write frame.picture
  | .flush _ => .flush
  | .close _ => .close

/-- The layout check of a session whose policies have not been set. -/
def layoutAnswer (frame : FrameView) : Status :=
  validateCpuFrameLayout frame cfg.width cfg.height .allowCopy 1

def Call.answer : Call → Status
  | .write frame => layoutAnswer cfg frame
  | _ => .ok

def Call.asks : Call → List Event
  | .write frame => if (layoutAnswer cfg frame).result = .ok then [.write frame.picture] else []
  | .flush => [.flush]
  | .close => [.close]
  | _ => []

/-! ## Runs of a script -/

/-- The session of the same configuration without a queue. -/
def Config.sync : Config := { cfg with capacity := 0, capacity_lt := Config.noQueue_lt }

/-- What the environment decides in a run of a script. -/
def Follows (ops : List Op) (s : SessionState Unit) : SessionLabel Unit → Prop
  | .client _ (.call c) => (script ops)[(s.client ()).history.length]? = some c
  | .client _ (.backend ended) => CallEnd.isOk ended = true
  | .worker (.backend ended) => CallEnd.isOk ended = true
  | .client _ (.copyThrows _) => False
  | _ => True

abbrev ScriptStep (ops : List Op) : SessionState Unit → SessionLabel Unit → SessionState Unit → Prop :=
  Restrict (Step cfg) (Follows ops)

abbrev ScriptRun (ops : List Op) (ls : List (SessionLabel Unit)) (s : SessionState Unit) : Prop :=
  Run (ScriptStep cfg ops) (SessionState.init cfg) ls s

/-- Every call of the script has returned. -/
def Finished (ops : List Op) (s : SessionState Unit) : Prop :=
  (s.client ()).history.length = (script ops).length

/-- What the backend has been asked for. -/
def events (s : SessionState Unit) : List Event := s.shared.calls.map BackendCall.event

/-- The calls that have returned, with what was reported. -/
def replies (s : SessionState Unit) : List (Call × Status) :=
  (s.client ()).history.map fun p => (p.1, p.2.reported)

/-- The step of a thread, not a spurious wake-up. -/
def isSection : SessionLabel Unit → Bool
  | .worker _ | .client _ _ => true
  | .wakeWorker | .wake _ => false

/-- A run of the script ends, and does so with every call returned: as long as one has not, some thread can
go on, and the threads take a bounded number of steps beyond one for each spurious wake-up. -/
structure Terminates (ops : List Op) : Prop where
  progress : ∀ ls s, ScriptRun cfg ops ls s → ¬ Finished ops s →
    ∃ l t, isSection l = true ∧ ScriptStep cfg ops s l t
  bound : ∃ n, ∀ ls s, ScriptRun cfg ops ls s →
    ls.countP isSection ≤ n + ls.countP fun l => !isSection l

/-! ## Positions in a script -/

variable {cfg}

theorem script_get {ops : List Op} {n : Nat} {c : Call} (h : (script ops)[n]? = some c) :
    n < ops.length ∧ (c = .flush ∨ ∃ frame, c = .write frame) ∨ n = ops.length ∧ c = .close := by
  unfold script at h
  rw [List.getElem?_append] at h
  split at h
  · rename_i hlt
    rw [List.getElem?_map, Option.map_eq_some_iff] at h
    obtain ⟨op, hop, rfl⟩ := h
    refine .inl ⟨by simpa using hlt, ?_⟩
    cases op with
    | write frame => exact .inr ⟨frame, rfl⟩
    | flush => exact .inl rfl
  · rename_i hlt
    simp only [List.length_map, Nat.not_lt] at hlt h
    rw [List.getElem?_singleton] at h
    split at h <;> cases h
    exact .inr ⟨by omega, rfl⟩

@[simp] theorem script_length (ops : List Op) : (script ops).length = ops.length + 1 := by simp [script]

theorem script_lt {ops : List Op} {n : Nat} {c : Call} (h : (script ops)[n]? = some c) :
    n < (script ops).length := (List.getElem?_eq_some_iff.mp h).1

end MkvCodec.Encoder
