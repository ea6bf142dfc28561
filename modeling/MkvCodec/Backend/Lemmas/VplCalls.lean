import MkvCodec.Backend.Lemmas.Vpl
import MkvCodec.Backend.VplInputs

/-!
# The calls of the Intel encoder as steps of its queue

`submit_cpu_nv12`, `submit_gpu_surface`, `drain` and `close` submit, collect and close; so what holds in every run of the
queue's steps holds behind every call.
-/

namespace MkvCodec.Backend

open Concurrency

variable {C : Type*}

namespace VplInputs

variable {s : VplInputs C} {q q' : VplEncoderQueue}

/-- Steps of the queue, between two calls, lead to `q`. -/
def Reaches (s : VplInputs C) (q : VplEncoderQueue) : Prop := ∃ ls t, Run Step s ls t ∧ t.queue = q ∧ t.pc = .idle

theorem Reaches.refl (hpc : s.pc = .idle) : s.Reaches s.queue := ⟨[], s, .nil, rfl, hpc⟩

theorem Reaches.trans (h : s.Reaches q) (h' : ∀ t : VplInputs C, t.queue = q → t.pc = .idle → t.Reaches q') :
    s.Reaches q' := by
  obtain ⟨ls, t, hrun, hq, hpc⟩ := h
  obtain ⟨ls', u, hrun', hq', hpc'⟩ := h' t hq hpc
  exact ⟨ls ++ ls', u, hrun.append hrun', hq', hpc'⟩

theorem reaches_submit (hpc : s.pc = .idle) (surface : Option Nat) (answer : SubmitAnswer) (consumes : List Nat) :
    s.Reaches (s.queue.submit surface none none answer).2 := by
  cases hclosed : s.queue.closed with
  | true =>
      simp only [VplEncoderQueue.submit, hclosed, if_true]
      exact .refl hpc
  | false =>
      have hst : s.Step (.submit surface answer consumes)
          { s with queue := (s.queue.submit surface none none answer).2 } := by
        simp [Step, step, hpc, hclosed]
      exact ⟨_, _, .single hst, rfl, hpc⟩

theorem reaches_collect (hpc : s.pc = .idle) (packets : List IntelEncodedPacket) (answer : CollectAnswer) :
    s.Reaches (s.queue.collectOldest packets answer).2.2 := by
  have hst : s.Step (.collect packets answer) { s with queue := (s.queue.collectOldest packets answer).2.2 } := by
    simp [Step, step, hpc]
  exact ⟨_, _, .single hst, rfl, hpc⟩

/-- `consumes` are the inputs that the outputs of a drain consume, by what the queue is before the submission. -/
theorem reaches_drainSubmit (consumes : VplEncoderQueue → List Nat) (last : SubmitEnd)
    (accepted : List (Bool × CollectAnswer)) (packets : List IntelEncodedPacket) (hpc : s.pc = .idle) :
    s.Reaches (s.queue.drainSubmit packets last accepted).2.2 := by
  induction accepted generalizing s packets with
  | nil => exact reaches_submit hpc none (.ended last) (consumes s.queue)
  | cons a rest ih =>
      obtain ⟨sync, answer⟩ := a
      have hsubmit : s.Reaches (s.queue.submit none none none (.accepted sync)).2 :=
        reaches_submit hpc none _ (consumes s.queue)
      rw [VplEncoderQueue.drainSubmit]
      generalize s.queue.submit none none none (.accepted sync) = out at hsubmit ⊢
      obtain ⟨status, q⟩ := out
      simp only
      split
      · exact hsubmit
      refine hsubmit.trans fun t htq htpc => ?_
      subst htq
      split
      · have hcollect : t.Reaches (t.queue.collectOldest packets answer).2.2 := reaches_collect htpc packets answer
        generalize t.queue.collectOldest packets answer = out at hcollect ⊢
        obtain ⟨status, packets, q⟩ := out
        simp only
        split
        · exact hcollect
        · refine hcollect.trans fun u huq hupc => ?_
          subst huq
          exact ih packets hupc
      · exact ih packets htpc

theorem reaches_drainCollect (collects : Nat → CollectAnswer) (n : Nat) (packets : List IntelEncodedPacket)
    (hpc : s.pc = .idle) : s.Reaches (VplEncoderQueue.drainCollect collects n s.queue packets).2.2 := by
  induction n generalizing s packets with
  | zero => exact .refl hpc
  | succ n ih =>
      have hcollect : s.Reaches (s.queue.collectOldest packets (collects n)).2.2 := reaches_collect hpc packets _
      rw [VplEncoderQueue.drainCollect]
      generalize s.queue.collectOldest packets (collects n) = out at hcollect ⊢
      obtain ⟨status, packets, q⟩ := out
      simp only
      split
      · exact hcollect
      · refine hcollect.trans fun t htq htpc => ?_
        subst htq
        exact ih packets htpc

theorem reaches_drain (consumes : VplEncoderQueue → List Nat) (packets : List IntelEncodedPacket)
    (answer : VplEncoderQueue.DrainAnswer) (hpc : s.pc = .idle) : s.Reaches (s.queue.drain packets answer).2.2 := by
  have hsubmit := reaches_drainSubmit consumes answer.last answer.accepted packets hpc
  rw [VplEncoderQueue.drain]
  generalize s.queue.drainSubmit packets answer.last answer.accepted = out at hsubmit ⊢
  obtain ⟨status, packets, q⟩ := out
  simp only
  split
  · exact hsubmit
  · refine hsubmit.trans fun t htq htpc => ?_
    subst htq
    exact reaches_drainCollect answer.collects _ packets htpc

end VplInputs

/-- A call of an encoder. -/
inductive VplCall
  | writeNv12 (input : Nv12Input) (pts : Int) (answer : CpuSubmitAnswer)
  | submitGpuSurface (frame : Option GpuInput) (pts : Int) (answer : GpuSubmitAnswer)
  | drain (answer : VplEncoderQueue.DrainAnswer)
  | close (statuses : Nat → Int)

namespace IntelVplEncoder

variable {s : VplInputs C} {e : IntelVplEncoder}

def call (e : IntelVplEncoder) : VplCall → IntelVplEncoder
  | .writeNv12 input pts answer => (e.writeNv12 input pts answer).2.2
  | .submitGpuSurface frame pts answer => (e.submitGpuSurface frame pts answer).2.2
  | .drain answer => (e.drain answer).2.2
  | .close statuses => e.close statuses

theorem writeNv12_reaches (hq : s.queue = e.queue) (hpc : s.pc = .idle) (consumes : List Nat) (input : Nv12Input)
    (pts : Int) (answer : CpuSubmitAnswer) : s.Reaches (e.writeNv12 input pts answer).2.2.queue := by
  have hrefl : s.Reaches e.queue := hq ▸ .refl hpc
  rw [writeNv12]
  split
  · exact hrefl
  rw [submitCpuNv12]
  split
  · exact hrefl
  split
  · exact hrefl
  split
  · exact hrefl
  split
  · exact hrefl
  simp only
  generalize vplTimeStamp e.fpsNum e.fpsDen _ = timeStamp
  have hsubmit : s.Reaches (e.queue.submit (some timeStamp) none none answer.submit).2 :=
    hq ▸ VplInputs.reaches_submit hpc _ _ consumes
  generalize e.queue.submit (some timeStamp) none none answer.submit = out at hsubmit ⊢
  obtain ⟨status, q⟩ := out
  simp only
  split
  · refine hsubmit.trans fun t htq htpc => ?_
    subst htq
    have hcollect : t.Reaches (t.queue.collectOldest [] answer.collect).2.2 := VplInputs.reaches_collect htpc _ _
    generalize t.queue.collectOldest [] answer.collect = out at hcollect ⊢
    obtain ⟨status, packets, q⟩ := out
    rw [accept_queue]
    exact hcollect
  · rw [accept_queue]
    exact hsubmit

theorem submitGpuSurface_reaches (hq : s.queue = e.queue) (hpc : s.pc = .idle)
    (hclosed : e.queue.closed = true → e.closed = true) (consumes : List Nat) (frame : Option GpuInput) (pts : Int)
    (answer : GpuSubmitAnswer) : s.Reaches (e.submitGpuSurface frame pts answer).2.2.queue := by
  have hrefl : s.Reaches e.queue := hq ▸ .refl hpc
  rw [submitGpuSurface]
  split
  · exact hrefl
  rename_i hended
  have hopen : s.queue.closed = false := by
    rw [hq, Bool.eq_false_iff]
    exact fun h => hended (by simp [hclosed h])
  simp only
  split
  · exact hrefl
  rename_i input
  split
  · exact hrefl
  split
  · exact hrefl
  generalize vplTimeStamp e.fpsNum e.fpsDen _ = timeStamp
  generalize (if 0 ≤ pts then pts else e.nextPts) = framePts
  have hst : s.Step (.submitGpu input.frame timeStamp answer.submit consumes)
      (s.submitGpu input.frame timeStamp answer.submit) := by
    simp [VplInputs.Step, VplInputs.step, hpc, hopen]
  simp only [VplInputs.submitGpu, hq] at hst
  generalize VplEncoderQueue.submit _ _ _ _ answer.submit = out at hst ⊢
  obtain ⟨status, q⟩ := out
  simp only at hst ⊢
  rw [submitted]
  split
  case isTrue hfail =>
      rw [if_neg hfail.1, if_neg hfail.2] at hst
      exact ⟨_, _, .single hst, rfl, hpc⟩
  case isFalse hdone =>
      split
      case isTrue hok =>
          rw [if_pos hok] at hst
          have hregister : VplInputs.Step
              { s with queue := q, pc := .registering input.frame e.queue.completionCount } .register
              (VplInputs.register { s with queue := q, pc := .registering input.frame e.queue.completionCount }
                input.frame e.queue.completionCount) := rfl
          have hregistered : s.Reaches q := ⟨_, _, (Run.single hst).snoc hregister, rfl, rfl⟩
          split
          · exact hregistered
          split
          · refine hregistered.trans fun t htq htpc => ?_
            subst htq
            have hcollect : t.Reaches (t.queue.collectOldest [] answer.collect).2.2 :=
              VplInputs.reaches_collect htpc _ _
            generalize t.queue.collectOldest [] answer.collect = out at hcollect ⊢
            obtain ⟨status, packets, q⟩ := out
            rw [accept_queue]
            exact hcollect
          · rw [accept_queue]
            exact hregistered
      case isFalse hok =>
          have hend : status.result = .endOfStream := by
            by_contra hne
            exact hdone ⟨hok, hne⟩
          rw [if_neg hok, if_pos hend] at hst
          rw [accept_queue]
          exact ⟨_, _, .single hst, rfl, hpc⟩

/-- Every call of the encoder is a run of the queue's steps. -/
theorem call_reaches (hq : s.queue = e.queue) (hpc : s.pc = .idle) (hclosed : e.queue.closed = true → e.closed = true)
    (consumes : VplEncoderQueue → List Nat) (c : VplCall) : s.Reaches (e.call c).queue := by
  cases c with
  | writeNv12 input pts answer => exact writeNv12_reaches hq hpc (consumes e.queue) input pts answer
  | submitGpuSurface frame pts answer => exact submitGpuSurface_reaches hq hpc hclosed (consumes e.queue) frame pts answer
  | drain answer =>
      have hdrain := VplInputs.reaches_drain consumes [] answer hpc
      rw [call, drain]
      split
      · exact hq ▸ .refl hpc
      rw [hq] at hdrain
      generalize e.queue.drain [] answer = out at hdrain ⊢
      obtain ⟨status, packets, q⟩ := out
      simp only
      split <;> exact hdrain
  | close statuses =>
      rw [call, close]
      split
      · exact hq ▸ .refl hpc
      · have hst : s.Step (.close statuses) { s with queue := s.queue.close statuses } := by
          simp [VplInputs.Step, VplInputs.step, hpc]
        rw [hq] at hst
        exact ⟨_, _, .single hst, rfl, hpc⟩

end IntelVplEncoder

end MkvCodec.Backend
