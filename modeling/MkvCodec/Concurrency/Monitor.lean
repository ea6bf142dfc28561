import Mathlib.Algebra.BigOperators.Group.Finset.Basic
import Mathlib.Data.Fintype.Basic
import MkvCodec.Concurrency.Transition

/-!
# Monitors: a worker and its clients around one lock

One shared state is read and written only in atomic sections, by one worker thread and by clients of which
there may be any number. A section may put its thread to sleep on a condition variable and may notify
others. A sleeping thread runs again after a notification or, as condition variables allow, for no reason
at all.
-/

namespace Concurrency

/-- What a section leaves behind: the shared state, the state of its own thread, the condition variables it
notifies and the one it goes to sleep on. -/
structure Outcome (S K C : Type*) where
  shared : S
  loc : K
  notify : List C
  sleep : Option C

/-- The sections of the worker and of a client. `E` is what the environment decides in a section; `none`
means that the thread cannot run. -/
structure Program (S W K C E : Type*) where
  worker : E → S → W → Option (Outcome S W C)
  client : E → S → K → Option (Outcome S K C)

structure State (S W K C ι : Type*) where
  shared : S
  worker : W
  client : ι → K
  workerSleep : Option C
  sleep : ι → Option C

inductive Label (ι E : Type*)
  | worker (e : E)
  | client (i : ι) (e : E)
  | wakeWorker
  | wake (i : ι)

variable {S W K C E ι : Type*} [DecidableEq C] [DecidableEq ι]

/-- The condition variable a thread still sleeps on after a notification. -/
def stillAsleep (notify : List C) : Option C → Option C
  | none => none
  | some c => if c ∈ notify then none else some c

@[simp] theorem stillAsleep_nil (o : Option C) : stillAsleep [] o = o := by
  cases o <;> simp [stillAsleep]

theorem stillAsleep_eq_some {notify : List C} {o : Option C} {c : C} :
    stillAsleep notify o = some c ↔ o = some c ∧ c ∉ notify := by
  cases o with
  | none => simp [stillAsleep]
  | some d =>
      by_cases hd : d ∈ notify
      · simp only [stillAsleep, hd, ↓reduceIte, reduceCtorEq, Option.some.injEq, false_iff, not_and]
        rintro rfl; simp [hd]
      · simp only [stillAsleep, hd, ↓reduceIte, Option.some.injEq, iff_self_and]
        rintro rfl; exact hd

namespace Program

variable (p : Program S W K C E)

def step (s : State S W K C ι) : Label ι E → Option (State S W K C ι)
  | .worker e =>
      if s.workerSleep.isSome then none
      else (p.worker e s.shared s.worker).map fun o =>
        { s with
          shared := o.shared
          worker := o.loc
          workerSleep := o.sleep
          sleep := fun j => stillAsleep o.notify (s.sleep j) }
  | .client i e =>
      if (s.sleep i).isSome then none
      else (p.client e s.shared (s.client i)).map fun o =>
        { shared := o.shared
          worker := s.worker
          client := Function.update s.client i o.loc
          workerSleep := stillAsleep o.notify s.workerSleep
          sleep := Function.update (fun j => stillAsleep o.notify (s.sleep j)) i o.sleep }
  | .wakeWorker => if s.workerSleep.isSome then some { s with workerSleep := none } else none
  | .wake i => if (s.sleep i).isSome then some { s with sleep := Function.update s.sleep i none } else none

/-- One step of the system: a section of a thread that is awake, or a spurious wake-up. -/
def Step (s : State S W K C ι) (l : Label ι E) (t : State S W K C ι) : Prop := p.step s l = some t

/-- The state that labels lead to, when every step they name can be taken. -/
def exec (s : State S W K C ι) : List (Label ι E) → Option (State S W K C ι)
  | [] => some s
  | l :: ls => (p.step s l).bind fun t => exec t ls

variable {p}

theorem run_of_exec {s t : State S W K C ι} {ls : List (Label ι E)} (h : p.exec s ls = some t) :
    Run p.Step s ls t := by
  induction ls generalizing s with
  | nil => cases h; exact .nil
  | cons l ls ih =>
      obtain ⟨u, hu, ht⟩ := Option.bind_eq_some_iff.mp h
      exact (Run.single (R := p.Step) hu).append (ih ht)

/-- A condition holds of every step that the labels name, from `s` on. -/
def Along (p : Program S W K C E) (P : State S W K C ι → Label ι E → Prop) :
    State S W K C ι → List (Label ι E) → Prop
  | _, [] => True
  | s, l :: ls => P s l ∧
      match p.step s l with
      | none => False
      | some t => Along p P t ls

theorem restrict_of_along {P : State S W K C ι → Label ι E → Prop} {s t : State S W K C ι}
    {ls : List (Label ι E)} (h : p.exec s ls = some t) (hall : p.Along P s ls) :
    Run (Restrict p.Step P) s ls t := by
  induction ls generalizing s with
  | nil => cases h; exact .nil
  | cons l ls ih =>
      obtain ⟨u, hu, ht⟩ := Option.bind_eq_some_iff.mp h
      simp only [Along, hu] at hall
      exact (Run.single (R := Restrict p.Step P) ⟨hu, hall.1⟩).append (ih ht hall.2)

/-- The same as a test. -/
def allAlong (p : Program S W K C E) (f : State S W K C ι → Label ι E → Bool) :
    State S W K C ι → List (Label ι E) → Bool
  | _, [] => true
  | s, l :: ls => f s l && (p.step s l).all fun t => allAlong p f t ls

theorem along_of_all {P : State S W K C ι → Label ι E → Prop} {f : State S W K C ι → Label ι E → Bool}
    {s t : State S W K C ι} {ls : List (Label ι E)} (h : p.exec s ls = some t)
    (hall : p.allAlong f s ls = true) (hf : ∀ s l, f s l = true → P s l) : p.Along P s ls := by
  induction ls generalizing s with
  | nil => trivial
  | cons l ls ih =>
      obtain ⟨u, hu, ht⟩ := Option.bind_eq_some_iff.mp h
      simp only [allAlong, hu, Option.all_some, Bool.and_eq_true] at hall
      simp only [Along, hu]
      exact ⟨hf s l hall.1, ih ht hall.2⟩

theorem restrict_of_exec {P : State S W K C ι → Label ι E → Prop} {f : State S W K C ι → Label ι E → Bool}
    {s t : State S W K C ι} {ls : List (Label ι E)} (h : p.exec s ls = some t)
    (hall : p.allAlong f s ls = true) (hf : ∀ s l, f s l = true → P s l) :
    Run (Restrict p.Step P) s ls t :=
  restrict_of_along h (along_of_all h hall hf)

theorem Step.worker_inv {s t : State S W K C ι} {e : E} (h : p.Step s (.worker e) t) :
    s.workerSleep = none ∧ ∃ o, p.worker e s.shared s.worker = some o ∧
      t = { s with
            shared := o.shared
            worker := o.loc
            workerSleep := o.sleep
            sleep := fun j => stillAsleep o.notify (s.sleep j) } := by
  simp only [Step, step] at h
  split at h
  · cases h
  · rename_i hs
    obtain ⟨o, ho, rfl⟩ := Option.map_eq_some_iff.mp h
    exact ⟨by simpa using hs, o, ho, rfl⟩

theorem Step.client_inv {s t : State S W K C ι} {i : ι} {e : E} (h : p.Step s (.client i e) t) :
    s.sleep i = none ∧ ∃ o, p.client e s.shared (s.client i) = some o ∧
      t = { shared := o.shared
            worker := s.worker
            client := Function.update s.client i o.loc
            workerSleep := stillAsleep o.notify s.workerSleep
            sleep := Function.update (fun j => stillAsleep o.notify (s.sleep j)) i o.sleep } := by
  simp only [Step, step] at h
  split at h
  · cases h
  · rename_i hs
    obtain ⟨o, ho, rfl⟩ := Option.map_eq_some_iff.mp h
    exact ⟨by simpa using hs, o, ho, rfl⟩

theorem Step.wakeWorker_inv {s t : State S W K C ι} (h : p.Step s .wakeWorker t) :
    t = { s with workerSleep := none } := by
  simp only [Step, step] at h
  split at h <;> cases h
  rfl

theorem Step.wake_inv {s t : State S W K C ι} {i : ι} (h : p.Step s (.wake i) t) :
    t = { s with sleep := Function.update s.sleep i none } := by
  simp only [Step, step] at h
  split at h <;> cases h
  rfl

/-- A thread that is awake and has a section to run can take a step. -/
theorem exists_worker_step {s : State S W K C ι} {e : E} {o : Outcome S W C} (hs : s.workerSleep = none)
    (ho : p.worker e s.shared s.worker = some o) : ∃ t, p.Step s (.worker e) t := by
  simp [Step, step, hs, ho]

theorem exists_client_step {s : State S W K C ι} {i : ι} {e : E} {o : Outcome S K C} (hs : s.sleep i = none)
    (ho : p.client e s.shared (s.client i) = some o) : ∃ t, p.Step s (.client i e) t := by
  simp [Step, step, hs, ho]

/-! ## Invariants -/

/-- The rule of invariants. `I` speaks of the shared state and of the threads, not of who is asleep; `C` is
the condition that the steps of the run meet. -/
theorem invariant {I : S → W → (ι → K) → Prop} {P : State S W K C ι → Label ι E → Prop}
    {s₀ s : State S W K C ι} {ls : List (Label ι E)} (h : Run (Restrict p.Step P) s₀ ls s)
    (h₀ : I s₀.shared s₀.worker s₀.client)
    (hw : ∀ {s : State S W K C ι} {e o}, I s.shared s.worker s.client → P s (.worker e) →
      p.worker e s.shared s.worker = some o → I o.shared o.loc s.client)
    (hc : ∀ {s : State S W K C ι} {i e o}, I s.shared s.worker s.client → P s (.client i e) →
      p.client e s.shared (s.client i) = some o → I o.shared s.worker (Function.update s.client i o.loc)) :
    I s.shared s.worker s.client := by
  refine h.invariant (I := fun s => I s.shared s.worker s.client) h₀ ?_
  rintro s l t hs ⟨hst, hP⟩
  cases l with
  | worker e => obtain ⟨_, o, ho, rfl⟩ := hst.worker_inv; exact hw (s := s) hs hP ho
  | client i e => obtain ⟨_, o, ho, rfl⟩ := hst.client_inv; exact hc (s := s) hs hP ho
  | wakeWorker => rw [hst.wakeWorker_inv]; exact hs
  | wake i => rw [hst.wake_inv]; exact hs

/-! ## No wake-up is lost -/

/-- A thread that sleeps has a reason to: its wait condition is false. -/
def Awaits (workerReady : C → S → W → Prop) (ready : C → S → K → Prop) (s : State S W K C ι) : Prop :=
  (∀ c, s.workerSleep = some c → ¬ workerReady c s.shared s.worker) ∧
  ∀ i c, s.sleep i = some c → ¬ ready c s.shared (s.client i)

/-- When a section goes to sleep only on a false condition, and notifies the condition variable of every
condition that it makes true, a sleeping thread always waits for a false condition. -/
theorem Step.awaits {workerReady : C → S → W → Prop} {ready : C → S → K → Prop}
    {s t : State S W K C ι} {l : Label ι E} (hst : p.Step s l t) (hs : Awaits workerReady ready s)
    (hws : ∀ {e o c}, p.worker e s.shared s.worker = some o → o.sleep = some c →
      ¬ workerReady c o.shared o.loc)
    (hwn : ∀ {e o c k}, p.worker e s.shared s.worker = some o → ready c o.shared k → c ∉ o.notify →
      ready c s.shared k)
    (hcs : ∀ {i e o c}, p.client e s.shared (s.client i) = some o → o.sleep = some c →
      ¬ ready c o.shared o.loc)
    (hcn : ∀ {i e o c k}, p.client e s.shared (s.client i) = some o → ready c o.shared k → c ∉ o.notify →
      ready c s.shared k)
    (hcw : ∀ {i e o c w}, p.client e s.shared (s.client i) = some o → workerReady c o.shared w →
      c ∉ o.notify → workerReady c s.shared w) : Awaits workerReady ready t := by
  obtain ⟨hW, hK⟩ := hs
  cases l with
  | worker e =>
      obtain ⟨_, o, ho, rfl⟩ := hst.worker_inv
      refine ⟨fun c hc => hws ho hc, fun i c hc hr => ?_⟩
      obtain ⟨hi, hn⟩ := stillAsleep_eq_some.mp hc
      exact hK i c hi (hwn ho hr hn)
  | client i e =>
      obtain ⟨_, o, ho, rfl⟩ := hst.client_inv
      refine ⟨fun c hc hr => ?_, fun j c hc hr => ?_⟩
      · obtain ⟨hw, hn⟩ := stillAsleep_eq_some.mp hc
        exact hW c hw (hcw ho hr hn)
      · by_cases hj : j = i
        · subst hj
          simp only [Function.update_self] at hc hr
          exact hcs ho hc hr
        · simp only [Function.update_of_ne hj] at hc hr
          obtain ⟨hk, hn⟩ := stillAsleep_eq_some.mp hc
          exact hK j c hk (hcn ho hr hn)
  | wakeWorker => rw [hst.wakeWorker_inv]; exact ⟨by simp, hK⟩
  | wake i =>
      rw [hst.wake_inv]
      refine ⟨hW, fun j c hc => ?_⟩
      by_cases hj : j = i
      · subst hj; simp at hc
      · exact hK j c (by simpa [Function.update_of_ne hj] using hc)

end Program

/-! ## What the clients do together -/

/-- The entries of `log` are those of the clients, and the entries of one client keep their order. -/
def Interleaved {A : Type*} (log : List A) (own : ι → List A) : Prop :=
  ∃ tagged : List (ι × A), tagged.map Prod.snd = log ∧
    ∀ i, (tagged.filter fun p => decide (p.1 = i)).map Prod.snd = own i

namespace Interleaved

variable {A : Type*} {log : List A} {own : ι → List A}

theorem nil : Interleaved [] fun _ : ι => ([] : List A) := ⟨[], rfl, fun _ => rfl⟩

/-- One client adds entries of its own. -/
theorem append (h : Interleaved log own) (i : ι) (new : List A) :
    Interleaved (log ++ new) (Function.update own i (own i ++ new)) := by
  obtain ⟨tagged, rfl, hown⟩ := h
  refine ⟨tagged ++ new.map (i, ·), by simp, fun j => ?_⟩
  rw [List.filter_append, List.map_append, hown, List.filter_map]
  by_cases hj : j = i
  · subst hj
    simp [Function.comp_def]
  · simp [Function.comp_def, Function.update_of_ne hj, Ne.symm hj]

end Interleaved

/-- Replacing one client moves the total of a quantity by the difference at that client. -/
theorem sum_update [Fintype ι] (f : K → Nat) (ks : ι → K) (i : ι) (k : K) :
    (∑ j, f (Function.update ks i k j)) + f (ks i) = (∑ j, f (ks j)) + f k := by
  have h₁ := Finset.add_sum_erase Finset.univ (fun j => f (Function.update ks i k j)) (Finset.mem_univ i)
  have h₂ := Finset.add_sum_erase Finset.univ (fun j => f (ks j)) (Finset.mem_univ i)
  have h₃ : ∑ j ∈ Finset.univ.erase i, f (Function.update ks i k j) =
      ∑ j ∈ Finset.univ.erase i, f (ks j) :=
    Finset.sum_congr rfl fun j hj => by rw [Function.update_of_ne (Finset.ne_of_mem_erase hj)]
  simp only [Function.update_self] at h₁
  omega

end Concurrency
