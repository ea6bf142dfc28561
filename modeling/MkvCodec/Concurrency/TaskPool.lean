import Mathlib.Data.List.Nodup
import Mathlib.Data.List.Perm.Basic
import Mathlib.Logic.Function.Basic

/-!
# A queue of tasks and the workers that take from it

Tasks are queued, taken from the front by a worker that is free, and finished in any order. Behind each task is a place for its result,
which a future reads.
-/

namespace Concurrency

/-- `running` are the tasks in the hands of workers. -/
structure TaskPool (T R : Type*) where
  queue : List T
  running : List T
  result : T → Option R

namespace TaskPool

variable {T R : Type*} {p q : TaskPool T R} {t u : T} {r : R} {workers : Nat}

def empty : TaskPool T R := ⟨[], [], fun _ => none⟩

def submit (p : TaskPool T R) (t : T) : TaskPool T R := { p with queue := p.queue ++ [t] }

def take (workers : Nat) (p : TaskPool T R) : Option (TaskPool T R) :=
  match p.queue with
  | [] => none
  | t :: queue => if p.running.length < workers then some { p with queue := queue, running := p.running ++ [t] } else none

/-- The tasks that are not finished. -/
def live (p : TaskPool T R) : List T := p.queue ++ p.running

/-- Whether a task has been submitted. -/
def Known (p : TaskPool T R) (t : T) : Prop := t ∈ p.live ∨ (p.result t).isSome

/-- No task is there twice, and none that is there has a result. -/
structure Sound (p : TaskPool T R) : Prop where
  nodup : p.live.Nodup
  pending : ∀ t ∈ p.live, p.result t = none

/-! ## The operations -/

theorem not_live_of_result (h : p.Sound) (hr : p.result t = some r) : t ∉ p.live := fun ht => by
  rw [h.pending t ht] at hr
  cases hr

@[simp] theorem live_empty : (empty : TaskPool T R).live = [] := rfl

@[simp] theorem not_known_empty : ¬ (empty : TaskPool T R).Known t := by
  simp [Known, empty, live]

theorem Sound.empty : (empty : TaskPool T R).Sound where
  nodup := List.nodup_nil
  pending := by simp

theorem submit_perm : (p.submit t).live.Perm (t :: p.live) := by
  rw [live, submit, List.append_assoc]
  exact List.perm_middle

@[simp] theorem mem_live_submit : u ∈ (p.submit t).live ↔ u = t ∨ u ∈ p.live := by
  rw [submit_perm.mem_iff, List.mem_cons]

@[simp] theorem result_submit : (p.submit t).result = p.result := rfl

theorem known_submit : (p.submit t).Known u ↔ u = t ∨ p.Known u := by
  rw [Known, mem_live_submit, result_submit, or_assoc, Known]

/-- A task that has not been submitted before can be. -/
theorem Sound.submit (h : p.Sound) (hnew : ¬ p.Known t) : (p.submit t).Sound where
  nodup := by
    rw [submit_perm.nodup_iff, List.nodup_cons]
    exact ⟨fun ht => hnew (.inl ht), h.nodup⟩
  pending u hu := by
    rcases mem_live_submit.mp hu with rfl | hu
    · exact Option.not_isSome_iff_eq_none.mp fun hr => hnew (.inr hr)
    · exact h.pending u hu

theorem take_perm (h : p.take workers = some q) : q.live.Perm p.live ∧ q.result = p.result := by
  unfold take at h
  split at h
  case h_1 => cases h
  case h_2 t queue hqueue =>
      split at h <;> cases h
      refine ⟨?_, rfl⟩
      rw [live, live, hqueue, ← List.append_assoc]
      exact List.perm_append_singleton t (queue ++ p.running)

theorem mem_live_take (h : p.take workers = some q) : u ∈ q.live ↔ u ∈ p.live := (take_perm h).1.mem_iff

theorem known_take (h : p.take workers = some q) : q.Known u ↔ p.Known u := by
  rw [Known, mem_live_take h, (take_perm h).2, Known]

theorem Sound.take (h : p.Sound) (htake : p.take workers = some q) : q.Sound where
  nodup := (take_perm htake).1.nodup_iff.mpr h.nodup
  pending u hu := by
    rw [(take_perm htake).2]
    exact h.pending u ((mem_live_take htake).mp hu)

variable [DecidableEq T]

def finish (p : TaskPool T R) (t : T) (r : R) : Option (TaskPool T R) :=
  if t ∈ p.running then some { p with running := p.running.erase t, result := Function.update p.result t (some r) } else none

theorem finish_perm (h : p.finish t r = some q) :
    p.live.Perm (t :: q.live) ∧ q.result = Function.update p.result t (some r) := by
  unfold finish at h
  split at h
  case isFalse => cases h
  case isTrue ht =>
      cases h
      refine ⟨?_, rfl⟩
      exact ((List.perm_cons_erase ht).append_left p.queue).trans List.perm_middle

theorem live_of_finish (h : p.finish t r = some q) : t ∈ p.live := (finish_perm h).1.mem_iff.mpr List.mem_cons_self

theorem result_of_finish (h : p.finish t r = some q) : q.result t = some r := by
  rw [(finish_perm h).2, Function.update_self]

theorem mem_live_of_finish (h : p.finish t r = some q) (hu : u ∈ q.live) : u ∈ p.live :=
  (finish_perm h).1.mem_iff.mpr (List.mem_cons_of_mem t hu)

theorem Sound.finish (h : p.Sound) (hfinish : p.finish t r = some q) : q.Sound := by
  obtain ⟨hperm, hresult⟩ := finish_perm hfinish
  obtain ⟨hnot, hnodup⟩ := List.nodup_cons.mp (hperm.nodup_iff.mp h.nodup)
  refine ⟨hnodup, fun u hu => ?_⟩
  have hne : u ≠ t := fun heq => hnot (heq ▸ hu)
  rw [hresult, Function.update_of_ne hne]
  exact h.pending u (mem_live_of_finish hfinish hu)

theorem known_finish (h : p.finish t r = some q) : q.Known u ↔ p.Known u := by
  obtain ⟨hperm, hresult⟩ := finish_perm h
  rw [Known, Known, hresult, hperm.mem_iff, List.mem_cons]
  by_cases hu : u = t
  · simp [hu]
  · simp [hu]

/-- A result stays, since it is not that of the task that finishes. -/
theorem result_finish (h : p.Sound) (hfinish : p.finish t r = some q) {v : R} (hv : p.result u = some v) :
    q.result u = some v := by
  have hne : u ≠ t := fun heq => not_live_of_result h hv (heq ▸ live_of_finish hfinish)
  rw [(finish_perm hfinish).2, Function.update_of_ne hne, hv]

end TaskPool

end Concurrency
