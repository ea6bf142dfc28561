import Mathlib.Data.List.Nodup
import Mathlib.Data.List.Perm.Basic
import MkvCodec.Backend.VplInputs

/-!
# GPU inputs of the oneVPL queue are held

The completion of an input is signalled once: behind the synchronization point of its submission, when the submission
fails, or when the queue is closed. As long as the hardware buffers no input, that is not too early.
-/

namespace MkvCodec.Backend

open Concurrency
open Gpu (Completion CompletionState GpuFrameCore)

variable {C : Type*}

/-! ## What the queue signals -/

namespace VplEncoderQueue

variable {q q' q'' : VplEncoderQueue} {ns ns' : List Nat}

/-- The completions of the inputs that are pending. -/
def held (q : VplEncoderQueue) : List Nat := q.pending.flatMap fun p => p.inputCompletion.toList

/-- Between the two queues `k` completions are made, and exactly the completions `ns` are signalled. -/
structure Signals (q q' : VplEncoderQueue) (k : Nat) (ns : List Nat) : Prop where
  signals : q'.signals = q.signals ++ ns
  terminal_iff : ∀ n, (q'.completions n).isPending = false ↔ (q.completions n).isPending = false ∨ n ∈ ns
  count : q'.completionCount = q.completionCount + k

theorem Signals.refl (q : VplEncoderQueue) : Signals q q 0 [] := ⟨by simp, by simp, rfl⟩

theorem Signals.trans {k k' : Nat} (h : Signals q q' k ns) (h' : Signals q' q'' k' ns') :
    Signals q q'' (k + k') (ns ++ ns') where
  signals := by rw [h'.signals, h.signals, List.append_assoc]
  terminal_iff n := by rw [h'.terminal_iff, h.terminal_iff, List.mem_append, or_assoc]
  count := by rw [h'.count, h.count, Nat.add_assoc]

theorem signal_signals (q : VplEncoderQueue) (completion : Option Nat) (state : CompletionState)
    (hstate : state.isPending = false) : Signals q (q.signal completion state) 0 completion.toList := by
  cases completion with
  | none => exact .refl q
  | some n =>
      refine ⟨rfl, fun m => ?_, rfl⟩
      by_cases heq : m = n
      · subst heq
        simp [signal, hstate]
      · simp [signal, heq]

@[simp] theorem signal_pending (q : VplEncoderQueue) (completion : Option Nat) (state : CompletionState) :
    (q.signal completion state).pending = q.pending := by
  cases completion <;> rfl

@[simp] theorem signal_closed (q : VplEncoderQueue) (completion : Option Nat) (state : CompletionState) :
    (q.signal completion state).closed = q.closed := by
  cases completion <;> rfl

/-- A collection signals the input of the oldest submission. -/
theorem collectOldest_signals {pending : Pending} {rest : List Pending} (hq : q.pending = pending :: rest)
    (packets : List IntelEncodedPacket) (answer : CollectAnswer) :
    Signals q (q.collectOldest packets answer).2.2 0 pending.inputCompletion.toList ∧
      (q.collectOldest packets answer).2.2.pending = rest ∧ (q.collectOldest packets answer).2.2.closed = q.closed := by
  simp only [collectOldest, hq]
  split
  · obtain ⟨hsignals, hterminal, hcount⟩ :=
      { q with pending := rest }.signal_signals pending.inputCompletion (failure _) rfl
    exact ⟨⟨hsignals, hterminal, hcount⟩, by simp, by simp⟩
  · split
    · obtain ⟨hsignals, hterminal, hcount⟩ :=
        { q with pending := rest, bitstreams := q.bitstreams ++ [answer.bitstream] }.signal_signals
          pending.inputCompletion (failure _) rfl
      exact ⟨⟨hsignals, hterminal, hcount⟩, by simp, by simp⟩
    · obtain ⟨hsignals, hterminal, hcount⟩ :=
        { q with pending := rest, bitstreams := q.bitstreams ++ [answer.bitstream] }.signal_signals
          pending.inputCompletion .complete rfl
      exact ⟨⟨hsignals, hterminal, hcount⟩, by simp, by simp⟩

/-- A submission that the hardware rejects. -/
theorem submit_failed (hopen : q.closed = false) (surface completion frame : Option Nat) {status : Int}
    (hstatus : status < 0 ∧ status ≠ -10) :
    ∃ result error, q.submit surface completion frame (.ended (.failed status hstatus)) = (⟨result, error⟩, q) ∧
      result ≠ .ok ∧ result ≠ .endOfStream := by
  simp only [submit, hopen, Bool.false_eq_true, if_false]
  by_cases hsmall : status = -5
  · rw [if_pos hsmall]
    exact ⟨_, _, rfl, nofun, nofun⟩
  · rw [if_neg hsmall]
    refine ⟨_, _, rfl, ?_, ?_⟩ <;> split <;> exact nofun

theorem collectOldest_nil (hq : q.pending = []) (packets : List IntelEncodedPacket) (answer : CollectAnswer) :
    (q.collectOldest packets answer).2.2 = q := by
  simp only [collectOldest, hq]

/-- A close signals everything that is pending. -/
theorem close_signals (hopen : q.closed = false) (statuses : Nat → Int) : Signals q (q.close statuses) 0 q.held := by
  have hfold : ∀ (ps : List (Pending × Nat)) (q : VplEncoderQueue), Signals q
      (ps.foldl (fun q p => q.signal p.1.inputCompletion
        (if statuses p.2 = 0 then .complete else failure "oneVPL encoder close synchronization failed")) q) 0
      (ps.flatMap fun p => p.1.inputCompletion.toList) := by
    intro ps
    induction ps with
    | nil => exact .refl
    | cons p ps ih =>
        intro q
        have hone := q.signal_signals p.1.inputCompletion
          (if statuses p.2 = 0 then .complete else failure "oneVPL encoder close synchronization failed")
          (by split <;> rfl)
        exact hone.trans (ih _)
  have hheld : (q.pending.zipIdx.flatMap fun p => p.1.inputCompletion.toList) = q.held := by
    calc q.pending.zipIdx.flatMap (fun p => p.1.inputCompletion.toList)
        = (q.pending.zipIdx.map Prod.fst).flatMap fun p => p.inputCompletion.toList :=
          (List.flatMap_map Prod.fst (fun p : Pending => p.inputCompletion.toList) q.pending.zipIdx).symm
      _ = q.held := by rw [List.zipIdx_map_fst, held]
  obtain ⟨hsignals, hterminal, hcount⟩ := hheld ▸ hfold q.pending.zipIdx q
  simp only [close, hopen]
  exact ⟨hsignals, hterminal, hcount⟩

end VplEncoderQueue

/-! ## Frames -/

namespace FrameUse

variable {states : C ⊕ Nat → CompletionState} {a : GpuFrameCore (C ⊕ Nat)}

theorem maybeRecycle_own (states : C ⊕ Nat → CompletionState) (a : GpuFrameCore (C ⊕ Nat)) :
    (a.maybeRecycle states).1.completions = a.completions ∧
      ((a.maybeRecycle states).1.recycled = true → a.recycled = true ∨ a.Terminal states) := by
  rcases a.maybeRecycle_cases states with ⟨heq, -⟩ | ⟨heq, -, -, hterminal⟩
  · rw [heq]
    exact ⟨rfl, .inl⟩
  · rw [heq]
    exact ⟨rfl, fun _ => .inr hterminal⟩

/-- Nobody else removes a completion of the queue from a frame, or recycles the frame while one is pending. -/
theorem run_own (u : FrameUse C) (states : C ⊕ Nat → CompletionState) (a : GpuFrameCore (C ⊕ Nat)) :
    (∀ n : Nat, .driver (.inr n) ∈ (u.run states a).completions ↔ .driver (.inr n) ∈ a.completions) ∧
      ((u.run states a).recycled = true → a.recycled = true ∨
        ∀ n : Nat, .driver (.inr n) ∈ a.completions → (states (.inr n)).isPending = false) := by
  have hown {b : GpuFrameCore (C ⊕ Nat)} (hcompletions : b.completions = a.completions) (hrecycled : b.recycled = a.recycled) :
      (∀ n : Nat, .driver (.inr n) ∈ (b.maybeRecycle states).1.completions ↔ .driver (.inr n) ∈ a.completions) ∧
        ((b.maybeRecycle states).1.recycled = true → a.recycled = true ∨
          ∀ n : Nat, .driver (.inr n) ∈ a.completions → (states (.inr n)).isPending = false) := by
    obtain ⟨hsame, hterminal⟩ := maybeRecycle_own states b
    refine ⟨fun n => by rw [hsame, hcompletions], fun hb => ?_⟩
    rcases hterminal hb with hb | hb
    · exact .inl (hrecycled ▸ hb)
    · exact .inr fun n hn => hb.2 (.driver (.inr n)) (hcompletions ▸ hn)
  cases u with
  | acquireExternal =>
      simp only [run, GpuFrameCore.acquireExternal]
      split <;> rename_i heq <;> split at heq <;> cases heq <;> exact ⟨fun _ => Iff.rfl, .inl⟩
  | releaseExternal => exact hown rfl rfl
  | addConsumer c =>
      simp only [run, GpuFrameCore.addConsumer]
      split
      · exact ⟨fun _ => Iff.rfl, .inl⟩
      · exact ⟨fun n => by simp [GpuFrameCore.completions], .inl⟩
  | poll => exact hown rfl rfl
  | destroy => exact hown rfl rfl

end FrameUse

/-! ## The invariant -/

namespace VplHistory

variable {h : VplHistory} {n : Nat}

theorem Finished.emit (hn : h.Finished n) (hle : h.synchronized ≤ h.outputs.length) (consumes : List Nat) :
    (h.emit consumes).Finished n := by
  obtain ⟨output, hmem, hn⟩ := hn
  refine ⟨output, ?_, hn⟩
  rw [VplHistory.emit, List.take_append_of_le_length hle]
  exact hmem

theorem Finished.mono {m : Nat} (hn : h.Finished n) (hle : h.synchronized ≤ m) :
    Finished { h with synchronized := m } n := by
  obtain ⟨output, hmem, hn⟩ := hn
  exact ⟨output, (List.take_subset_take_left _ hle) hmem, hn⟩

end VplHistory

open VplEncoderQueue (Signals)

structure Holding (s : VplInputs C) (h : VplHistory) : Prop where
  terminal_iff : ∀ n, (s.queue.completions n).isPending = false ↔ n ∈ s.queue.signals
  perm : (s.queue.signals ++ s.queue.held).Perm (List.range s.queue.completionCount)
  outputs : List.Forall₂ (fun p consumes => ∀ n ∈ p.inputCompletion, n ∈ consumes) s.queue.pending
    (h.outputs.drop h.synchronized)
  synchronized : h.synchronized ≤ h.outputs.length
  done : ∀ n ∈ s.queue.signals, n ∈ h.rejected ∨ h.Finished n
  closed : s.queue.closed = true → s.queue.pending = []
  registered : ∀ f, ∀ n : Nat, .driver (.inr n) ∈ (s.frames f).completions → n < s.queue.completionCount
  registering : ∀ f n, s.pc = .registering f n → n < s.queue.completionCount
  recycled : ∀ f, (s.frames f).recycled = true →
    ∀ n : Nat, .driver (.inr n) ∈ (s.frames f).completions → n ∈ s.queue.signals

/-- The output of a pending submission consumes its input. -/
theorem consumed_of_held {ps : List Pending} {outputs : List (List Nat)} {n : Nat}
    (h : List.Forall₂ (fun p consumes => ∀ n ∈ p.inputCompletion, n ∈ consumes) ps outputs)
    (hn : n ∈ ps.flatMap fun p => p.inputCompletion.toList) : ∃ consumes ∈ outputs, n ∈ consumes := by
  induction h with
  | nil => cases hn
  | @cons p consumes ps outputs hconsumes _ ih =>
      rcases List.mem_append.mp hn with hn | hn
      · exact ⟨consumes, List.mem_cons_self, hconsumes n (Option.mem_toList.mp hn)⟩
      · obtain ⟨consumes', hmem, hn⟩ := ih hn
        exact ⟨consumes', List.mem_cons_of_mem _ hmem, hn⟩

namespace Holding

variable {s t : VplInputs C} {h h' : VplHistory} {l : VplInputLabel C}

/-- The thread of the encoder goes on, and the hardware with it. -/
theorem move {q : VplEncoderQueue} {pc : VplPc} {k : Nat} {ns : List Nat} (hs : Holding s h)
    (hsignals : Signals s.queue q k ns) (hperm : (s.queue.held ++ List.range' s.queue.completionCount k).Perm (ns ++ q.held))
    (hclosed : q.closed = true → q.pending = [])
    (houtputs : List.Forall₂ (fun p consumes => ∀ n ∈ p.inputCompletion, n ∈ consumes) q.pending
      (h'.outputs.drop h'.synchronized)) (hle : h'.synchronized ≤ h'.outputs.length)
    (hdone : ∀ n ∈ s.queue.signals ++ ns, n ∈ h'.rejected ∨ h'.Finished n)
    (hpc : ∀ f n, pc = .registering f n → n < s.queue.completionCount + k) :
    Holding { s with queue := q, pc := pc } h' where
  terminal_iff n := by rw [hsignals.terminal_iff, hs.terminal_iff, hsignals.signals, List.mem_append]
  perm := by
    have hrange : List.range q.completionCount =
        List.range s.queue.completionCount ++ List.range' s.queue.completionCount k := by
      rw [hsignals.count, List.range_eq_range', List.range_eq_range', ← List.range'_append_1, Nat.zero_add]
    rw [hsignals.signals, List.append_assoc, hrange]
    refine (hperm.symm.append_left _).trans ?_
    rw [← List.append_assoc]
    exact hs.perm.append_right _
  outputs := houtputs
  synchronized := hle
  done n hn := hdone n (hsignals.signals ▸ hn)
  closed := hclosed
  registered f n hn := hsignals.count ▸ Nat.lt_add_right k (hs.registered f n hn)
  registering f n h := hsignals.count ▸ hpc f n h
  recycled f hf n hn := by
    rw [hsignals.signals]
    exact List.mem_append_left _ (hs.recycled f hf n hn)

theorem modify (hs : Holding s h) {f : Nat} {g : GpuFrameCore (C ⊕ Nat) → GpuFrameCore (C ⊕ Nat)}
    (hregistered : ∀ n : Nat, .driver (.inr n) ∈ (g (s.frames f)).completions → n < s.queue.completionCount)
    (hrecycled : (g (s.frames f)).recycled = true →
      ∀ n : Nat, .driver (.inr n) ∈ (g (s.frames f)).completions → n ∈ s.queue.signals) : Holding (s.modify f g) h where
  terminal_iff := hs.terminal_iff
  perm := hs.perm
  outputs := hs.outputs
  synchronized := hs.synchronized
  done := hs.done
  closed := hs.closed
  registered f' n := by
    by_cases heq : f' = f
    · subst heq
      simpa [VplInputs.modify] using hregistered n
    · simpa [VplInputs.modify, Function.update_of_ne heq] using hs.registered f' n
  registering := hs.registering
  recycled f' := by
    by_cases heq : f' = f
    · subst heq
      simpa [VplInputs.modify] using hrecycled
    · simpa [VplInputs.modify, Function.update_of_ne heq] using hs.recycled f'

theorem use (hs : Holding s h) (f : Nat) (u : FrameUse C) : Holding (s.modify f fun a => u.run s.states a) h := by
  obtain ⟨hown, hrecycled⟩ := u.run_own s.states (s.frames f)
  refine hs.modify (fun n hn => hs.registered f n ((hown n).mp hn)) fun hr n hn => ?_
  rcases hrecycled hr with hr | hr
  · exact hs.recycled f hr n ((hown n).mp hn)
  · exact (hs.terminal_iff n).mp (hr n ((hown n).mp hn))

theorem register (hs : Holding s h) {f n : Nat} (hpc : s.pc = .registering f n) : Holding (s.register f n) h := by
  have hmodify : Holding (s.modify f fun a => (a.addConsumer (some (.driver (.inr n)))).2) h := by
    cases hr : (s.frames f).recycled with
    | true =>
        have heq : (s.frames f).addConsumer (some (.driver (.inr n))) =
            (⟨.errorInvalidState, GpuFrameCore.recycledError⟩, s.frames f) := if_pos hr
        refine hs.modify (fun m hm => ?_) fun _ m hm => ?_ <;> rw [heq] at hm
        · exact hs.registered f m hm
        · exact hs.recycled f hr m hm
    | false =>
        have heq : (s.frames f).addConsumer (some (.driver (.inr n))) =
            (.ok, { s.frames f with consumers := (s.frames f).consumers ++ [.driver (.inr n)] }) :=
          if_neg (Bool.eq_false_iff.mp hr)
        refine hs.modify (fun m hm => ?_) fun hr' => ?_
        · rw [heq] at hm
          rcases (by simpa [GpuFrameCore.completions, or_assoc] using hm :
            _ ∈ (s.frames f).producer ∨ _ ∈ (s.frames f).consumers ∨ m = n) with hm | hm | rfl
          · exact hs.registered f m (List.mem_append_left _ (Option.mem_toList.mpr hm))
          · exact hs.registered f m (List.mem_append_right _ hm)
          · exact hs.registering f m hpc
        · rw [heq] at hr'
          exact absurd hr' (Bool.eq_false_iff.mp hr)
  exact {
    terminal_iff := hmodify.terminal_iff
    perm := hmodify.perm
    outputs := hmodify.outputs
    synchronized := hmodify.synchronized
    done := hmodify.done
    closed := hmodify.closed
    registered := hmodify.registered
    registering := nofun
    recycled := hmodify.recycled }

/-- A submission that is accepted with a synchronization point. -/
theorem emit {q : VplEncoderQueue} {pc : VplPc} {k : Nat} {pending : Pending} {consumes : List Nat} (hs : Holding s h)
    (hsignals : Signals s.queue q k []) (hpending : q.pending = s.queue.pending ++ [pending])
    (hmade : pending.inputCompletion.toList = List.range' s.queue.completionCount k)
    (hconsumes : ∀ n ∈ pending.inputCompletion, n ∈ consumes) (hopen : q.closed = false)
    (hpc : ∀ f n, pc = .registering f n → n < s.queue.completionCount + k) :
    Holding { s with queue := q, pc := pc } (h.emit consumes) := by
  refine hs.move hsignals ?_ (fun hclosed => absurd hclosed (Bool.eq_false_iff.mp hopen)) ?_ ?_ ?_ hpc
  · have hheld : q.held = s.queue.held ++ pending.inputCompletion.toList := by
      rw [VplEncoderQueue.held, hpending, List.flatMap_append, List.flatMap_singleton, VplEncoderQueue.held]
    rw [List.nil_append, hheld, hmade]
  · rw [hpending, VplHistory.emit, List.drop_append_of_le_length hs.synchronized]
    exact List.rel_append hs.outputs (.cons hconsumes .nil)
  · rw [VplHistory.emit, List.length_append]
    exact Nat.le_add_right_of_le hs.synchronized
  · intro n hn
    rw [List.append_nil] at hn
    exact (hs.done n hn).imp_right fun hn => hn.emit hs.synchronized consumes

theorem submitGpu (hs : Holding s h) (hopen : s.queue.closed = false) {f timeStamp : Nat} {answer : SubmitAnswer}
    {consumes : List Nat} (hun : Unbuffered (s, h) (.submitGpu f timeStamp answer consumes)) :
    Holding (s.submitGpu f timeStamp answer) (VplHistory.next s (.submitGpu f timeStamp answer consumes) h) := by
  cases answer with
  | accepted sync =>
      cases sync with
      | false => cases hun
      | true =>
          have hconsumes : s.queue.completionCount ∈ consumes := hun
          simp only [VplInputs.submitGpu, VplEncoderQueue.submit, hopen, Bool.false_eq_true, if_false, Status.ok_result,
            if_true]
          refine hs.emit ⟨(List.append_nil _).symm, fun n => by simp [VplEncoderQueue.take], rfl⟩ rfl rfl
            (fun n hn => Option.some.inj hn ▸ hconsumes) rfl fun f n hpc => ?_
          cases hpc
          exact Nat.lt_succ_self _
  | ended e =>
      cases e with
      | moreData => cases hun
      | failed status hstatus =>
          have hmade : { s.queue with completionCount := s.queue.completionCount + 1 }.closed = false := hopen
          obtain ⟨result, error, hsubmit, hok, hend⟩ := VplEncoderQueue.submit_failed hmade (some timeStamp)
            (some s.queue.completionCount) (some f) hstatus
          obtain ⟨hsignals, hterminal, hcount⟩ :=
            { s.queue with completionCount := s.queue.completionCount + 1 }.signal_signals
              (some s.queue.completionCount) (VplEncoderQueue.failure error) rfl
          simp only [VplInputs.submitGpu, hsubmit, hok, hend, if_false]
          have hsent : Signals s.queue _ 1 [s.queue.completionCount] := ⟨hsignals, hterminal, hcount⟩
          refine hs.move hsent
            (List.perm_append_comm) hs.closed hs.outputs hs.synchronized (fun n hn => ?_)
            fun f n hpc => Nat.lt_succ_of_lt (hs.registering f n hpc)
          rcases List.mem_append.mp hn with hn | hn
          · exact (hs.done n hn).imp_left (List.mem_cons_of_mem _)
          · exact .inl (List.mem_singleton.mp hn ▸ List.mem_cons_self)

/-- The surface of a CPU frame, or none. -/
theorem submit (hs : Holding s h) (hopen : s.queue.closed = false) (surface : Option Nat) (answer : SubmitAnswer)
    (consumes : List Nat) :
    Holding { s with queue := (s.queue.submit surface none none answer).2 }
      (VplHistory.next s (.submit surface answer consumes) h) := by
  have hmove {q : VplEncoderQueue} (hsignals : Signals s.queue q 0 []) (hpending : q.pending = s.queue.pending)
      (hclosed : q.closed = s.queue.closed) : Holding { s with queue := q } h := by
    refine hs.move hsignals ?_ (fun h => ?_) (hpending ▸ hs.outputs) hs.synchronized (fun n hn => ?_) hs.registering
    · rw [VplEncoderQueue.held, VplEncoderQueue.held, hpending]
      exact .of_eq (List.append_nil _)
    · rw [hpending]
      exact hs.closed (hclosed ▸ h)
    · rw [List.append_nil] at hn
      exact hs.done n hn
  have htake : Signals s.queue (s.queue.take surface) 0 [] :=
    ⟨(List.append_nil _).symm, fun n => by simp [VplEncoderQueue.take], rfl⟩
  obtain ⟨hsignals, hterminal, hcount⟩ := htake
  cases answer with
  | accepted sync =>
      simp only [VplEncoderQueue.submit, hopen, Bool.false_eq_true, if_false]
      cases sync with
      | false => exact hmove ⟨hsignals, hterminal, hcount⟩ rfl rfl
      | true => exact hs.emit ⟨hsignals, hterminal, hcount⟩ rfl rfl nofun hopen hs.registering
  | ended e =>
      cases e with
      | moreData =>
          simp only [VplEncoderQueue.submit, hopen, Bool.false_eq_true, if_false]
          exact hmove ⟨hsignals, hterminal, hcount⟩ rfl rfl
      | failed status hstatus =>
          obtain ⟨result, error, hsubmit, -, -⟩ := VplEncoderQueue.submit_failed hopen surface none none hstatus
          rw [hsubmit]
          exact hs

theorem collect (hs : Holding s h) (packets : List IntelEncodedPacket) (answer : CollectAnswer) :
    Holding { s with queue := (s.queue.collectOldest packets answer).2.2 }
      (VplHistory.next s (.collect packets answer) h) := by
  cases hq : s.queue.pending with
  | nil => simpa [VplEncoderQueue.collectOldest_nil hq, VplHistory.next, hq] using hs
  | cons pending rest =>
      obtain ⟨hsignals, hpending, hclosed⟩ := VplEncoderQueue.collectOldest_signals hq packets answer
      have hnext : VplHistory.next s (.collect packets answer) h = { h with synchronized := h.synchronized + 1 } := by
        simp [VplHistory.next, hq]
      have houtputs := hs.outputs
      rw [hq] at houtputs
      obtain ⟨consumes, outputs, hconsumes, hrest, hdrop⟩ := List.forall₂_cons_left_iff.mp houtputs
      have hlt : h.synchronized < h.outputs.length := by
        have := congrArg List.length hdrop
        simp only [List.length_drop, List.length_cons] at this
        omega
      rw [hnext]
      refine hs.move hsignals ?_ (fun h => ?_) ?_ hlt (fun n hn => ?_) hs.registering
      · rw [VplEncoderQueue.held, VplEncoderQueue.held, hq, hpending]
        exact .of_eq (List.append_nil _)
      · rw [hclosed] at h
        rw [hs.closed h] at hq
        cases hq
      · rw [hpending, ← List.drop_drop, hdrop]
        exact hrest
      · rcases List.mem_append.mp hn with hn | hn
        · exact (hs.done n hn).imp_right fun hn => hn.mono (Nat.le_succ _)
        · refine .inr ⟨consumes, ?_, hconsumes n (Option.mem_toList.mp hn)⟩
          rw [List.take_succ_eq_append_getElem hlt]
          refine List.mem_append_right _ (List.mem_singleton.mpr ?_)
          have := congrArg List.head? hdrop
          simpa [List.head?_drop, hlt] using this.symm

theorem close (hs : Holding s h) (statuses : Nat → Int) :
    Holding { s with queue := s.queue.close statuses } (VplHistory.next s (.close statuses) h) := by
  have hclose : Signals s.queue (s.queue.close statuses) 0 s.queue.held ∧ (s.queue.close statuses).pending = [] := by
    cases hclosed : s.queue.closed with
    | true =>
        have hpending := hs.closed hclosed
        rw [VplEncoderQueue.close, if_pos hclosed, VplEncoderQueue.held, hpending]
        exact ⟨.refl _, rfl⟩
    | false =>
        refine ⟨VplEncoderQueue.close_signals hclosed statuses, ?_⟩
        simp [VplEncoderQueue.close, hclosed]
  obtain ⟨hsignals, hpending⟩ := hclose
  have hnext : VplHistory.next s (.close statuses) h = { h with synchronized := h.outputs.length } := rfl
  rw [hnext]
  refine hs.move hsignals ?_ (fun _ => hpending) ?_ le_rfl (fun n hn => ?_) hs.registering
  · rw [VplEncoderQueue.held, VplEncoderQueue.held, hpending]
    exact .rfl
  · rw [hpending, List.drop_length]
    exact .nil
  · rcases List.mem_append.mp hn with hn | hn
    · exact (hs.done n hn).imp_right fun hn => hn.mono hs.synchronized
    · obtain ⟨consumes, hmem, hn⟩ := consumed_of_held hs.outputs hn
      refine .inr ⟨consumes, ?_, hn⟩
      rw [List.take_length]
      exact List.mem_of_mem_drop hmem

theorem step (hs : Holding s h) (hst : s.Step l t) (hun : Unbuffered (s, h) l) : Holding t (VplHistory.next s l h) := by
  cases l with
  | use f u =>
      cases hst
      exact hs.use f u
  | evolve others =>
      cases hst
      exact ⟨hs.terminal_iff, hs.perm, hs.outputs, hs.synchronized, hs.done, hs.closed, hs.registered, hs.registering,
        hs.recycled⟩
  | register =>
      simp only [VplInputs.Step, VplInputs.step] at hst
      split at hst <;> cases hst
      exact hs.register (by assumption)
  | submitGpu f timeStamp answer consumes =>
      simp only [VplInputs.Step, VplInputs.step] at hst
      split at hst
      · obtain ⟨hopen, ⟨⟩⟩ := Option.ite_none_left_eq_some.mp hst
        exact hs.submitGpu (Bool.eq_false_iff.mpr hopen) hun
      · cases hst
  | submit surface answer consumes =>
      simp only [VplInputs.Step, VplInputs.step] at hst
      split at hst
      · obtain ⟨hopen, ⟨⟩⟩ := Option.ite_none_left_eq_some.mp hst
        exact hs.submit (Bool.eq_false_iff.mpr hopen) surface answer consumes
      · cases hst
  | collect packets answer =>
      simp only [VplInputs.Step, VplInputs.step] at hst
      split at hst <;> cases hst
      exact hs.collect packets answer
  | close statuses =>
      simp only [VplInputs.Step, VplInputs.step] at hst
      split at hst <;> cases hst
      exact hs.close statuses

theorem init (codec : Codec) (fpsNum fpsDen asyncDepth : Nat) (desc : Nat → Gpu.GpuFrameDesc) (producer : Nat → Option C)
    (native : Nat → Option Gpu.NativeHandleDesc) (others : C → CompletionState) :
    Holding (.init (.created codec fpsNum fpsDen asyncDepth) desc producer native others) .empty where
  terminal_iff n := by simp [VplInputs.init, VplEncoderQueue.created, CompletionState.isPending]
  perm := .nil
  outputs := .nil
  synchronized := le_rfl
  done n hn := absurd hn List.not_mem_nil
  closed _ := rfl
  registered f n hn := by
    have hnone : .driver (.inr n) ∉ ((producer f).map fun c => (.driver (.inl c) : Completion (C ⊕ Nat))).toList := by
      cases producer f <;> simp
    rcases List.mem_append.mp hn with hn | hn
    · exact absurd hn hnone
    · cases hn
  registering := nofun
  recycled f hf := by cases hf

/-- A frame with a completion that is pending is not recycled, whatever is done with it. -/
theorem not_recycled (hs : Holding s h) {f n : Nat} (hn : .driver (.inr n) ∈ (s.frames f).completions)
    (hpending : (s.queue.completions n).isPending = true) :
    (s.frames f).recycled = false ∧ ∀ u : FrameUse C, (u.run s.states (s.frames f)).recycled = false := by
  have hterminal : (s.queue.completions n).isPending ≠ false := by simp [hpending]
  have hrecycled : (s.frames f).recycled = false :=
    Bool.eq_false_iff.mpr fun hr => hterminal ((hs.terminal_iff n).mpr (hs.recycled f hr n hn))
  refine ⟨hrecycled, fun u => Bool.eq_false_iff.mpr fun hr => ?_⟩
  rcases (u.run_own s.states (s.frames f)).2 hr with hr | hall
  · exact Bool.eq_false_iff.mp hrecycled hr
  · exact hterminal (hall n hn)

/-- Behind a close nothing is pending. -/
theorem terminal_of_closed (hs : Holding s h) (hclosed : s.queue.closed = true) {n : Nat}
    (hn : n < s.queue.completionCount) : n ∈ s.queue.signals := by
  have hperm := hs.perm
  rw [VplEncoderQueue.held, hs.closed hclosed, List.flatMap_nil, List.append_nil] at hperm
  exact hperm.mem_iff.mpr (List.mem_range.mpr hn)

theorem nodup (hs : Holding s h) : s.queue.signals.Nodup :=
  (List.nodup_append.mp (hs.perm.nodup_iff.mpr List.nodup_range)).1

end Holding

/-! ## Runs -/

/-- In every run in which the hardware buffers no GPU frame: a completion is signalled at most once, and not before the
output that consumes its input has been waited for or the submission has failed; a frame is not recycled before that; and
behind a close every completion of a frame was signalled once. -/
theorem inputs_held {codec : Codec} {fpsNum fpsDen asyncDepth : Nat} {desc : Nat → Gpu.GpuFrameDesc}
    {producer : Nat → Option C} {native : Nat → Option Gpu.NativeHandleDesc} {others : C → CompletionState}
    {ls : List (VplInputLabel C)} {s : VplInputs C} {h : VplHistory}
    (hrun : Run (Restrict (Watch VplInputs.Step VplHistory.next) Unbuffered)
      (.init (.created codec fpsNum fpsDen asyncDepth) desc producer native others, .empty) ls (s, h)) :
    (∀ n, s.queue.signals.count n ≤ 1 ∧ ((s.queue.completions n).isPending = false ↔ n ∈ s.queue.signals)) ∧
    (∀ n, (s.queue.completions n).isPending = false → n ∈ h.rejected ∨ h.Finished n) ∧
    (∀ f, ∀ n : Nat, .driver (.inr n) ∈ (s.frames f).completions → (s.queue.completions n).isPending = true →
      (s.frames f).recycled = false ∧ ∀ u : FrameUse C, (u.run s.states (s.frames f)).recycled = false) ∧
    (s.queue.closed = true → ∀ f, ∀ n : Nat, .driver (.inr n) ∈ (s.frames f).completions →
      s.queue.signals.count n = 1 ∧ (s.queue.completions n).isPending = false) := by
  have hs : Holding s h :=
    hrun.invariant (I := fun p => Holding p.1 p.2) (.init codec fpsNum fpsDen asyncDepth desc producer native others)
      fun hs hst => hst.1.2 ▸ hs.step hst.1.1 hst.2
  refine ⟨fun n => ⟨List.nodup_iff_count_le_one.mp hs.nodup n, hs.terminal_iff n⟩,
    fun n hn => hs.done n ((hs.terminal_iff n).mp hn), fun f n => hs.not_recycled, fun hclosed f n hn => ?_⟩
  have hsignal := hs.terminal_of_closed hclosed (hs.registered f n hn)
  exact ⟨List.count_eq_one_of_mem hs.nodup hsignal, (hs.terminal_iff n).mpr hsignal⟩

def inputDesc : Gpu.GpuFrameDesc :=
  ⟨136, 1, .intel, .vaSurface, 0, 1, .nv12, 64, 64, 2, fun _ => 0, fun _ => 64, 0, 0, 0, 0, 0⟩

/-- Frames that their producer has finished, and a queue of depth 4. -/
def VplInputs.small : VplInputs Unit :=
  .init (.created .vp9 30 1 4) (fun _ => inputDesc) (fun _ => some ()) (fun _ => none) fun _ => .complete

/-- One frame whose output is collected, one whose submission fails, and one that a close waits for. -/
theorem inputs_held_small : ∃ (s : VplInputs Unit) (h : VplHistory),
    Run (Restrict (Watch VplInputs.Step VplHistory.next) Unbuffered) (.small, .empty)
      [.use 0 .acquireExternal, .submitGpu 0 0 (.accepted true) [0], .register, .use 0 .releaseExternal,
        .collect [] ⟨0, ⟨[], 0, false⟩⟩, .use 0 .poll, .submitGpu 1 0 (.ended (.failed (-1) (by decide))) [],
        .submitGpu 2 0 (.accepted true) [2], .register, .close fun _ => 0] (s, h) ∧
    s.queue.signals = [0, 1, 2] ∧ (s.frames 0).recycled = true ∧
    ∀ n, (s.queue.completions n).isPending = false → n ∈ h.rejected ∨ h.Finished n := by
  have hrun : ∃ (s : VplInputs Unit) (h : VplHistory),
      Run (Restrict (Watch VplInputs.Step VplHistory.next) Unbuffered) (.small, .empty)
        [.use 0 .acquireExternal, .submitGpu 0 0 (.accepted true) [0], .register, .use 0 .releaseExternal,
          .collect [] ⟨0, ⟨[], 0, false⟩⟩, .use 0 .poll, .submitGpu 1 0 (.ended (.failed (-1) (by decide))) [],
          .submitGpu 2 0 (.accepted true) [2], .register, .close fun _ => 0] (s, h) ∧
      s.queue.signals = [0, 1, 2] ∧ (s.frames 0).recycled = true :=
    ⟨_, _, .watch_cons rfl trivial (.watch_cons rfl (List.mem_singleton_self _) (.watch_cons rfl trivial
      (.watch_cons rfl trivial (.watch_cons rfl trivial (.watch_cons rfl trivial (.watch_cons rfl trivial
        (.watch_cons rfl (List.mem_singleton_self _) (.watch_cons rfl trivial (.watch_cons rfl trivial .nil))))))))),
      rfl, rfl⟩
  obtain ⟨s, h, hrun, hsignals, hrecycled⟩ := hrun
  exact ⟨s, h, hrun, hsignals, hrecycled, (inputs_held hrun).2.1⟩

/-- The hardware keeps the surface of the first frame for a later output; its completion is signalled, and the frame is
recycled before there is any output. -/
theorem input_released_early : ∃ (s : VplInputs Unit) (h : VplHistory),
    Run (Watch VplInputs.Step VplHistory.next) (.small, .empty)
      [.use 0 .acquireExternal, .submitGpu 0 0 (.ended .moreData) [], .use 0 .releaseExternal] (s, h) ∧
    (s.queue.completions 0).isPending = false ∧ (s.frames 0).recycled = true ∧ ¬ (0 ∈ h.rejected ∨ h.Finished 0) := by
  have hrun : ∃ (s : VplInputs Unit) (h : VplHistory),
      Run (Watch VplInputs.Step VplHistory.next) (.small, .empty)
        [.use 0 .acquireExternal, .submitGpu 0 0 (.ended .moreData) [], .use 0 .releaseExternal] (s, h) ∧
      (s.queue.completions 0).isPending = false ∧ (s.frames 0).recycled = true ∧ h = .empty :=
    ⟨_, _, .of_restrict (C := fun _ _ => True) (.watch_cons rfl trivial (.watch_cons rfl trivial (.watch_cons rfl trivial
      .nil))), rfl, rfl, rfl⟩
  obtain ⟨s, h, hrun, hterminal, hrecycled, rfl⟩ := hrun
  exact ⟨s, _, hrun, hterminal, hrecycled, by simp [VplHistory.empty, VplHistory.Finished]⟩

end MkvCodec.Backend
