import MkvCodec.Encoder.Lemmas.Effect

/-!
# No wake-up is lost

A section that makes a wait condition true notifies its condition variable, so a thread of the session that
sleeps waits for a condition that is false.
-/

namespace MkvCodec.Encoder

open Concurrency

variable {cfg : Config}

/-- The wait condition of a client, as a proposition about the client. -/
def ClientReady (cfg : Config) (c : Cond) (a : Impl) (k : Client) : Prop := ready cfg c a k.pc = true

def WorkerReady (c : Cond) (a : Impl) (w : WorkerPc) : Prop := workerReady c a w = true

theorem ready_hasSpace_of_stopped {a : Impl} {pc : ClientPc} (h : a.failed = true ∨ a.accepting = false) :
    ready cfg .hasSpace a pc = true := by
  cases pc with
  | enqueueOwnedSpace | enqueueOwnedPush | enqueueBorrowedSpace | flushSpace =>
      rcases h with h | h <;> simp [ready, h]
  | _ => rfl

theorem ready_mono {c : Cond} {a b : Impl} {pc : ClientPc} (h : ready cfg c b pc = true)
    (hq : a.queue.length ≤ b.queue.length) (hfree : b.freeFrames ≠ [] → a.freeFrames ≠ [])
    (hacc : b.accepting = a.accepting) (hf : b.failed = a.failed) (hca : b.canceled = a.canceled)
    (hct : b.completedFlushToken = a.completedFlushToken) : ready cfg c a pc = true := by
  cases c with
  | hasItems => rfl
  | hasSpace =>
      cases pc with
      | enqueueOwnedSpace =>
          simp only [ready, hacc, hf, Bool.or_eq_true, Bool.and_eq_true, Impl.hasRoom,
            decide_eq_true_eq, Bool.not_eq_true', List.isEmpty_eq_false_iff] at h ⊢
          rcases h with (⟨hlt, hne⟩ | h) | h
          · exact .inl (.inl ⟨by omega, hfree hne⟩)
          · exact .inl (.inr h)
          · exact .inr h
      | enqueueOwnedPush | enqueueBorrowedSpace | flushSpace =>
          simp only [ready, hacc, hf, Bool.or_eq_true, Impl.hasRoom, decide_eq_true_eq] at h ⊢
          rcases h with (hlt | h) | h
          · exact .inl (.inl (by omega))
          · exact .inl (.inr h)
          · exact .inr h
      | _ => rfl
  | stateChanged =>
      cases pc with
      | flushWait token => simpa [ready, hf, hca, hct] using h
      | _ => rfl

theorem Effect.not_ready_of_sleep {a : Impl} {pc : ClientPc} {e : Choice} {o : Section} {c : Cond}
    (h : Effect cfg a pc e o) (hs : o.sleep = some c) : ready cfg c o.shared o.loc = false := by
  cases h with
  | quiet he hslots hwait hsleep => exact hsleep c hs
  | pushFlush hslots hslots' hf hacc hroom hwait hsleep =>
      obtain ⟨rfl, rfl, hlt, hca⟩ := hsleep c hs
      simp only [ready, Impl.pushFlush, Impl.push, hf, hca, Bool.or_false, decide_eq_false_iff_not]
      omega
  | _ => cases hs

theorem Effect.notifies {a : Impl} {pc pc' : ClientPc} {e : Choice} {o : Section} {c : Cond}
    (h : Effect cfg a pc e o) (hr : ready cfg c o.shared pc' = true) (hn : c ∉ o.notify) :
    ready cfg c a pc' = true := by
  cases h with
  | quiet | lose | recordSync | setPolicy | backend =>
      exact ready_mono hr (Nat.le_refl _) id rfl rfl rfl rfl
  | take hfree hroom hslots hslots' =>
      exact ready_mono hr (Nat.le_refl _) (fun _ => by simp [hfree]) rfl rfl rfl rfl
  | giveBack hslots hns =>
      cases c with
      | hasItems => rfl
      | hasSpace =>
          rcases hns with hns | hst
          · exact absurd hns hn
          · exact ready_hasSpace_of_stopped hst
      | stateChanged => cases pc' <;> exact hr
  | pushOwned | pushBorrowed | pushFlush =>
      exact ready_mono hr (by simp [Impl.pushFrame, Impl.pushFlush, Impl.push]) id rfl rfl rfl rfl
  | cancel => cases c <;> simp at hn
  | closeRequest hpc hreq =>
      cases c with
      | stateChanged => cases pc' <;> exact hr
      | _ => simp at hn

theorem Effect.notifies_worker {a : Impl} {pc : ClientPc} {w : WorkerPc} {e : Choice} {o : Section} {c : Cond}
    (h : Effect cfg a pc e o) (hr : workerReady c o.shared w = true) (hn : c ∉ o.notify) :
    workerReady c a w = true := by
  cases h with
  | quiet | lose | take | giveBack | recordSync | setPolicy | backend =>
      cases c with
      | hasItems => cases w <;> exact hr
      | _ => rfl
  | pushOwned | pushBorrowed | pushFlush | cancel | closeRequest =>
      cases c with
      | hasItems => simp at hn
      | _ => rfl

theorem WorkerEffect.notifies {a : Impl} {w : WorkerPc} {pc : ClientPc} {e : Choice} {o : WorkerSection}
    {c : Cond} (h : WorkerEffect a w e o) (hr : ready cfg c o.shared pc = true) (hn : c ∉ o.notify) :
    ready cfg c a pc = true := by
  cases h with
  | asleep | stop | served | threw | closed | closeThrew =>
      exact ready_mono hr (Nat.le_refl _) id rfl rfl rfl rfl
  | pop hq =>
      cases c with
      | hasItems => rfl
      | hasSpace => simp at hn
      | stateChanged => cases pc <;> exact hr
  | @success item status hok =>
      cases item with
      | owned frame source =>
          cases c with
          | hasSpace => simp [recordSuccess] at hn
          | hasItems => rfl
          | stateChanged => cases pc <;> exact hr
      | borrowed frame submission => exact ready_mono hr (Nat.le_refl _) id rfl rfl rfl rfl
      | flush token =>
          cases c with
          | hasItems => rfl
          | hasSpace => cases pc <;> exact hr
          | stateChanged => simp [recordSuccess] at hn
  | failure | finish | finishFailed | handler =>
      cases c with
      | hasItems => rfl
      | _ => simp [recordFailure, recordException] at hn

variable {ι : Type*} [DecidableEq ι]

/-- Whoever sleeps waits for a condition that is false. -/
theorem session_awaits {ls : List (SessionLabel ι)} {s : SessionState ι} (h : SessionRun cfg ls s) :
    Program.Awaits WorkerReady (ClientReady cfg) s := by
  refine h.invariant ⟨by rintro _ ⟨⟩, by rintro _ _ ⟨⟩⟩ ?_
  intro s l t hs hst
  refine Program.Step.awaits hst hs ?_ ?_ ?_ ?_ ?_
  · intro e o c ho hc hr
    have he := workerAct_effect ho
    generalize s.worker = w at he
    cases he with
    | asleep hreq hq => cases hc; simp [WorkerReady, workerReady, hreq, hq] at hr
    | @success item status hok => cases item <;> cases hc
    | _ => cases hc
  · intro e o c k ho hr hn
    exact (workerAct_effect ho).notifies hr hn
  · intro i e o c ho hc hr
    have := (clientAct_effect ho).not_ready_of_sleep hc
    simp only [ClientReady, this, Bool.false_eq_true] at hr
  · intro i e o c k ho hr hn
    exact (clientAct_effect ho).notifies hr hn
  · intro i e o c w ho hr hn
    exact (clientAct_effect ho).notifies_worker hr hn

end MkvCodec.Encoder
