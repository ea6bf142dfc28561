import Mathlib.Algebra.BigOperators.Group.List.Basic
import MkvCodec.Metrics.ComponentTimers

/-!
# Exclusive times partition the wall time

An open timer has counted `elapsedNs` and counts on from `started`. The difference of the two is what an inner timer
leaves as it is, up to the time that the inner timer records itself.
-/

namespace MkvCodec.Metrics

open Backend (u64 asUInt64)

variable {A : Type*} [DecidableEq A]

/-! ## Entries -/

namespace ComponentTimerEntry

variable {entry : ComponentTimerEntry A} {now : Int}

/-- The time that the entry would have counted when the clock shows zero. -/
def balance (entry : ComponentTimerEntry A) : Int := entry.elapsedNs - entry.started

/-- The timer runs since `last` or before, and has counted no longer than the clock can have run. -/
structure Live (entry : ComponentTimerEntry A) (last : Int) : Prop where
  accumulator : entry.accumulator.isSome = true
  running : entry.running = true
  started_le : entry.started ≤ last
  min_le : -2 ^ 63 ≤ entry.started
  elapsed_le : (entry.elapsedNs : Int) ≤ entry.started + 2 ^ 63

omit [DecidableEq A]

theorem Live.mono {last last' : Int} (h : entry.Live last) (hle : last ≤ last') : entry.Live last' :=
  { h with started_le := Int.le_trans h.started_le hle }

/-- Neither the duration nor the sum with what has been counted wraps. -/
theorem Live.pause {last : Int} (h : entry.Live last) (hle : last ≤ now) (hnow : now < 2 ^ 63) :
    entry.pause now = { entry with elapsedNs := (entry.balance + now).toNat, running := false } := by
  obtain ⟨-, hrunning, hstarted, hmin, helapsed⟩ := h
  have hduration : componentDuration entry.started now = (now - entry.started).toNat := by
    rw [componentDuration, asUInt64, Int.emod_eq_of_lt (by omega) (by omega)]
  rw [ComponentTimerEntry.pause, hrunning, hduration, balance]
  simp only [Bool.not_true, Bool.false_eq_true, if_false]
  rw [u64, Nat.mod_eq_of_lt (by omega)]
  congr 1
  omega

end ComponentTimerEntry

/-! ## States -/

omit [DecidableEq A]

namespace ThreadState

variable {s s' s'' : ThreadState A} {last : Int}

/-- The entry of the innermost open timer. -/
def top (s : ThreadState A) : ComponentTimerEntry A := s.entries (s.depth - 1)

/-- The stack is no deeper than it has room for, and the innermost open timer counts. -/
structure Sound (s : ThreadState A) (last : Int) : Prop where
  depth_le : s.depth ≤ timerCapacity
  top : s.depth ≠ 0 → s.top.Live last

/-- The open timers are the same. Those under the innermost one have not been touched; that one counts for the same
component as before. -/
structure SameStack (s s' : ThreadState A) : Prop where
  active : s'.active = s.active
  depth : s'.depth = s.depth
  below : ∀ i, i + 1 < s.depth → s'.entries i = s.entries i
  accumulator : s.depth ≠ 0 → s'.top.accumulator = s.top.accumulator
  component : s.depth ≠ 0 → s'.top.component = s.top.component
  running : s.depth ≠ 0 → s'.top.running = s.top.running

theorem SameStack.refl (s : ThreadState A) : SameStack s s :=
  ⟨rfl, rfl, fun _ _ => rfl, fun _ => rfl, fun _ => rfl, fun _ => rfl⟩

theorem SameStack.trans (h : SameStack s s') (h' : SameStack s' s'') : SameStack s s'' where
  active := h'.active.trans h.active
  depth := h'.depth.trans h.depth
  below i hi := (h'.below i (h.depth ▸ hi)).trans (h.below i hi)
  accumulator hd := (h'.accumulator (h.depth ▸ hd)).trans (h.accumulator hd)
  component hd := (h'.component (h.depth ▸ hd)).trans (h.component hd)
  running hd := (h'.running (h.depth ▸ hd)).trans (h.running hd)

theorem Sound.mono {last' : Int} (h : s.Sound last) (hle : last ≤ last') : s.Sound last' :=
  ⟨h.depth_le, fun hd => (h.top hd).mono hle⟩

end ThreadState

/-- The time in some samples. -/
def elapsed (samples : List (Sample A)) : Int := (samples.map fun sample => (sample.elapsedNs : Int)).sum

@[simp] theorem elapsed_nil : elapsed ([] : List (Sample A)) = 0 := rfl

@[simp] theorem elapsed_append (samples samples' : List (Sample A)) :
    elapsed (samples ++ samples') = elapsed samples + elapsed samples' := by simp [elapsed]

def Sample.timer (sample : Sample A) : A × PipelineComponent := (sample.accumulator, sample.component)

/-! ## One timer -/

section timer

variable [DecidableEq A] {s s₁ s₂ : ThreadState A} {last opened closed : Int} {accumulator : A} {component : PipelineComponent}

omit [DecidableEq A] in
variable (opened component) in
/-- What the construction of a recorded timer leaves. -/
theorem ThreadState.openTimer_recorded (hactive : s.active = some accumulator) (hdepth : s.depth ≠ timerCapacity) :
    ∃ s₁, s.openTimer component opened = (s₁, some s.depth) ∧ s₁.active = s.active ∧ s₁.depth = s.depth + 1 ∧
      s₁.samples = s.samples ∧ s₁.top = ⟨some accumulator, component, opened, 0, true⟩ ∧
      (s.depth ≠ 0 → s₁.entries (s.depth - 1) = s.top.pause opened) ∧
      ∀ i, i + 1 < s.depth → s₁.entries i = s.entries i := by
  by_cases hd : s.depth = 0
  · have hroom : ¬ 0 = timerCapacity := by decide
    simp only [openTimer, hactive, hroom, if_false, hd, ne_eq, not_true_eq_false]
    refine ⟨_, rfl, hactive, rfl, rfl, ?_, nofun, nofun⟩
    simp [top, setEntry]
  · simp only [openTimer, hactive, hdepth, if_false, hd, ne_eq, not_false_eq_true, if_true]
    refine ⟨_, rfl, hactive, rfl, rfl, ?_, fun _ => ?_, fun i hi => ?_⟩
    · simp [top, setEntry]
    · simp only [setEntry]
      rw [Function.update_of_ne (by omega), Function.update_self]
      rfl
    · simp only [setEntry]
      rw [Function.update_of_ne (by omega), Function.update_of_ne (by omega)]

variable (closed) in
/-- What the destruction of a timer leaves that is the innermost one. -/
theorem ThreadState.closeTimer_top {index : Nat} (hdepth : s.depth = index + 1)
    (haccumulator : (s.top.pause closed).accumulator = some accumulator) :
    (s.closeTimer (some index) closed).active = s.active ∧ (s.closeTimer (some index) closed).depth = index ∧
      (s.closeTimer (some index) closed).samples =
        s.samples ++ [⟨accumulator, (s.top.pause closed).component, (s.top.pause closed).elapsedNs⟩] ∧
      (index ≠ 0 → (s.closeTimer (some index) closed).entries (index - 1) = (s.entries (index - 1)).resume closed) ∧
      ∀ i, i + 1 < index → (s.closeTimer (some index) closed).entries i = s.entries i := by
  have htop : s.entries index = s.top := by rw [top, hdepth]; rfl
  simp only [closeTimer, htop, haccumulator]
  refine ⟨?_, ?_, ?_, ?_, ?_⟩
  · split <;> rfl
  · split <;> rfl
  · split <;> rfl
  · intro hindex
    rw [if_pos hindex]
    simp only [setEntry, add, Function.update_self]
    rw [Function.update_of_ne (by omega)]
  · intro i hi
    rw [if_pos (by omega)]
    simp only [setEntry, add]
    rw [Function.update_of_ne (by omega), Function.update_of_ne (by omega)]

omit [DecidableEq A] in
/-- A recorded timer starts to count where it is made. -/
theorem ThreadState.Sound.open (hs : s.Sound last) (hmin : -2 ^ 63 ≤ opened) (hdepth : s.depth ≠ timerCapacity)
    (hdepth₁ : s₁.depth = s.depth + 1) (htop : s₁.top = ⟨some accumulator, component, opened, 0, true⟩) :
    s₁.Sound opened := by
  have hle := hs.depth_le
  refine ⟨by omega, fun _ => ?_⟩
  rw [htop]
  exact ⟨rfl, rfl, Int.le_refl opened, hmin, by dsimp only; omega⟩

/-- Behind a part of a trace the stack is as before, the timers `timers` have been recorded, and what they have counted is
what the innermost open timer has not. -/
structure Spends (s s' : ThreadState A) (last : Int) (timers : List (A × PipelineComponent)) : Prop where
  stack : s.SameStack s'
  sound : s'.Sound last
  samples : ∃ new, s'.samples = s.samples ++ new ∧ new.map Sample.timer = timers ∧
    (s.depth ≠ 0 → elapsed new + s'.top.balance = s.top.balance)

omit [DecidableEq A] in
theorem Spends.refl (hs : s.Sound last) : Spends s s last [] :=
  ⟨.refl s, hs, [], (List.append_nil _).symm, rfl, fun _ => by simp⟩

omit [DecidableEq A] in
theorem Spends.trans {last' : Int} {timers timers' : List (A × PipelineComponent)} (h : Spends s s₁ last timers)
    (h' : Spends s₁ s₂ last' timers') : Spends s s₂ last' (timers ++ timers') := by
  obtain ⟨new, hnew, htimers, hbalance⟩ := h.samples
  obtain ⟨new', hnew', htimers', hbalance'⟩ := h'.samples
  refine ⟨h.stack.trans h'.stack, h'.sound, new ++ new', ?_, ?_, fun hd => ?_⟩
  · rw [hnew', hnew, List.append_assoc]
  · rw [List.map_append, htimers, htimers']
  · have := hbalance hd
    have := hbalance' (h.stack.depth ▸ hd)
    rw [elapsed_append]
    omega

/-- A recorded timer around a part of a trace. It records what is left of its wall time. -/
theorem Spends.timer {last₂ : Int} {timers : List (A × PipelineComponent)} (hs : s.Sound last) (hle : last ≤ opened)
    (hactive : s.active = some accumulator) (hdepth : s.depth ≠ timerCapacity)
    (hopen : s.openTimer component opened = (s₁, some s.depth)) (hbody : Spends s₁ s₂ last₂ timers)
    (hopened : opened ≤ last₂) (hclosed : last₂ ≤ closed) (hmax : closed < 2 ^ 63) :
    Spends s (s₂.closeTimer (some s.depth) closed) closed (timers ++ [(accumulator, component)]) ∧
      ∃ new, (s₂.closeTimer (some s.depth) closed).samples = s.samples ++ new ∧
        new.map Sample.timer = timers ++ [(accumulator, component)] ∧ elapsed new = closed - opened := by
  obtain ⟨s₁', hopen', hactive₁, hdepth₁, hsamples₁, htop₁, hpaused, hbelow₁⟩ :=
    s.openTimer_recorded opened component hactive hdepth
  obtain rfl : s₁' = s₁ := congrArg Prod.fst (hopen'.symm.trans hopen)
  have hne : s₁'.depth ≠ 0 := by omega
  -- the timer itself, behind its body
  have hlive := hbody.sound.top (by rw [hbody.stack.depth]; exact hne)
  have hpause := hlive.pause hclosed hmax
  have haccumulator : s₂.top.accumulator = some accumulator := (hbody.stack.accumulator hne).trans (by rw [htop₁])
  have hcomponent : s₂.top.component = component := (hbody.stack.component hne).trans (by rw [htop₁])
  obtain ⟨hactive₃, hdepth₃, hsamples₃, hresumed, hbelow₃⟩ := ThreadState.closeTimer_top (s := s₂) closed
    (hbody.stack.depth.trans hdepth₁) ((congrArg ComponentTimerEntry.accumulator hpause).trans haccumulator)
  obtain ⟨new, hnew, htimers, hbalance⟩ := hbody.samples
  have hspent : elapsed new + s₂.top.balance = -opened := by
    rw [hbalance hne, htop₁, ComponentTimerEntry.balance]
    simp
  have hleft : ((s₂.top.pause closed).elapsedNs : Int) = s₂.top.balance + closed := by
    have := hlive.started_le
    rw [hpause]
    simp only [ComponentTimerEntry.balance]
    omega
  obtain ⟨own, hown⟩ : ∃ own : Sample A, own = ⟨accumulator, component, (s₂.top.pause closed).elapsedNs⟩ := ⟨_, rfl⟩
  have hall : elapsed (new ++ [own]) = closed - opened := by
    have hone : elapsed [own] = s₂.top.balance + closed := by
      rw [← hleft, hown]
      exact Int.add_zero _
    rw [elapsed_append, hone]
    omega
  have hrecorded : (s₂.closeTimer (some s.depth) closed).samples = s.samples ++ (new ++ [own]) := by
    have hsame : (s₂.top.pause closed).component = component := by
      rw [hpause]
      exact hcomponent
    rw [hsamples₃, hnew, hsamples₁, List.append_assoc, hown, hsame]
  have hnames : (new ++ [own]).map Sample.timer = timers ++ [(accumulator, component)] := by
    rw [List.map_append, htimers, hown]
    rfl
  -- the timer that encloses it counts on
  have htop₃ : s.depth ≠ 0 → (s₂.closeTimer (some s.depth) closed).top =
      { s.top with started := closed, elapsedNs := (s.top.balance + opened).toNat } := by
    intro hd
    have houter : s₂.entries (s.depth - 1) = s.top.pause opened :=
      (hbody.stack.below _ (by omega)).trans (hpaused hd)
    have houterLive := hs.top hd
    rw [ThreadState.top, hdepth₃, hresumed hd, houter, houterLive.pause hle (by omega), ComponentTimerEntry.resume,
      ← houterLive.running]
  refine ⟨⟨⟨?_, hdepth₃, ?_, ?_, ?_, ?_⟩, ⟨?_, ?_⟩, _, hrecorded, hnames, ?_⟩, _, hrecorded, hnames, hall⟩
  · rw [hactive₃, hbody.stack.active, hactive₁]
  · intro i hi
    rw [hbelow₃ i hi, hbody.stack.below i (by omega), hbelow₁ i hi]
  · exact fun hd => by rw [htop₃ hd]
  · exact fun hd => by rw [htop₃ hd]
  · exact fun hd => by rw [htop₃ hd]
  · rw [hdepth₃]
    exact hs.depth_le
  · intro hd
    rw [hdepth₃] at hd
    have hlive₃ := hs.top hd
    obtain ⟨hsome, hrunning, hstarted, hlow, hcounted⟩ := hlive₃
    rw [htop₃ hd]
    refine ⟨hsome, hrunning, Int.le_refl closed, by dsimp only; omega, ?_⟩
    simp only [ComponentTimerEntry.balance]
    omega
  · intro hd
    have hlive₃ := hs.top hd
    have := hlive₃.started_le
    rw [hall, htop₃ hd]
    simp only [ComponentTimerEntry.balance]
    omega

end timer

/-! ## Traces -/

namespace Trace

variable {s : ThreadState A} {last : Int}

theorem Clocked.le {trace : Trace A} (h : trace.Clocked last) : last ≤ trace.lastReading last := by
  induction trace generalizing last with
  | done => exact Int.le_refl last
  | scope _ body rest ihBody ihRest => exact Int.le_trans (ihBody h.1) (ihRest h.2)
  | timer _ opened body closed rest ihBody ihRest =>
      obtain ⟨hle, hbody, hclosed, -, hrest⟩ := h
      exact Int.le_trans hle (Int.le_trans (ihBody hbody) (Int.le_trans hclosed (ihRest hrest)))

variable [DecidableEq A]

end Trace

section runs

variable [DecidableEq A] {s : ThreadState A} {last : Int}

/-- The counters behind a trace are those before it with the samples of the trace. -/
structure Ledger (s s' : ThreadState A) : Prop where
  ledger : ∃ new, s'.samples = s.samples ++ new ∧ s'.counters = new.foldl addSample s.counters

theorem Ledger.refl (s : ThreadState A) : Ledger s s := ⟨[], (List.append_nil _).symm, rfl⟩

theorem Ledger.trans {s' s'' : ThreadState A} (h : Ledger s s') (h' : Ledger s' s'') : Ledger s s'' := by
  obtain ⟨new, hnew, hcounters⟩ := h.ledger
  obtain ⟨new', hnew', hcounters'⟩ := h'.ledger
  refine ⟨new ++ new', ?_, ?_⟩
  · rw [hnew', hnew, List.append_assoc]
  · rw [hcounters', hcounters, List.foldl_append]

end runs

end MkvCodec.Metrics
