import MkvCodec.Encoder.Lemmas.Order

/-!
# Borrowed submissions settle

A submission is pending while its frame is queued or with the worker. Every path that takes the frame away
completes the submission, and a completed submission is left alone.
-/

namespace MkvCodec.Encoder

open Concurrency

variable {cfg : Config}

/-! ## The invariant -/

structure Submitted (a : Impl) (w : WorkerPc) : Prop where
  ids : itemSubmissions a.admitted = List.range a.submissionCount
  active : ∀ item active what, w = .unwind (some item) active what → active = item.submission?
  pending : a.failed = false → ∀ k < a.submissionCount,
    (a.submissions k).terminal = false ↔ k ∈ itemSubmissions (w.item?.toList ++ a.queue)
  settled : a.failed = true → ∀ k < a.submissionCount, (a.submissions k).terminal = true
  ok : ∀ k < a.submissionCount, (a.submissions k).terminal = true → (a.submissions k).result = .ok →
    ∃ frame status, .item (.borrowed frame k) (.returned status) ∈ a.calls ∧ status.result = .ok
  recorded : ∀ k frame status, .item (.borrowed frame k) (.returned status) ∈ a.calls →
    status.result = .ok → w = .record (.borrowed frame k) status ∨
      (a.submissions k).terminal = true ∧ (a.submissions k).result = .ok

theorem CpuSubmission.complete_of_pending {s : CpuSubmission} {status : Status} (h : s.terminal = false) :
    s.complete status = ⟨true, status.result, status.error⟩ := by simp [CpuSubmission.complete, h]

/-- A completion with an error leaves no new success. -/
theorem CpuSubmission.ok_of_complete {s : CpuSubmission} {status : Status} (hne : status.result ≠ .ok)
    (h : (s.complete status).result = .ok) : s.terminal = true ∧ s.complete status = s := by
  cases ht : s.terminal with
  | true => exact ⟨rfl, complete_of_terminal ht⟩
  | false => rw [complete_of_pending ht] at h; exact absurd h hne

theorem Submitted.lt_of_mem {a : Impl} {w : WorkerPc} (h : Submitted a w) {frame : FrameView} {k : Nat}
    (hm : .borrowed frame k ∈ a.admitted) : k < a.submissionCount := by
  have hk : k ∈ itemSubmissions a.admitted := List.mem_filterMap.mpr ⟨_, hm, rfl⟩
  rw [h.ids] at hk
  exact List.mem_range.mp hk

/-- What the worker holds and what is queued are different submissions. -/
theorem Submitted.nodup {a : Impl} {w : WorkerPc} (h : Submitted a w) (ho : Order a w)
    (hf : a.failed = false) : (itemSubmissions (w.item?.toList ++ a.queue)).Nodup := by
  obtain ⟨before, dropped, hadm⟩ := ho.hand hf
  have hnd : (itemSubmissions a.admitted).Nodup := by rw [h.ids]; exact List.nodup_range
  rw [hadm, itemSubmissions_append, itemSubmissions_append] at hnd
  exact (List.nodup_append.mp (List.nodup_append.mp hnd).1).2.1

/-! ## Sections of a client -/

/-- A push of an item without a submission. -/
theorem Submitted.push {a b : Impl} {w : WorkerPc} {item : Item} (h : Submitted a w)
    (hitem : item.submission? = none) (hq : b.queue = a.queue ++ [item])
    (had : b.admitted = a.admitted ++ [item]) (hn : b.submissionCount = a.submissionCount)
    (hs : b.submissions = a.submissions) (hf : b.failed = a.failed) (hc : b.calls = a.calls) :
    Submitted b w := by
  have hids : itemSubmissions [item] = [] := by rw [itemSubmissions_cons, hitem]; rfl
  refine ⟨?_, h.active, ?_, ?_, ?_, ?_⟩
  · rw [had, itemSubmissions_append, hids, List.append_nil, hn]; exact h.ids
  · rw [hf, hn, hs, hq]
    simpa [hids] using h.pending
  · rw [hf, hn, hs]; exact h.settled
  · rw [hn, hs, hc]; exact h.ok
  · rw [hs, hc]; exact h.recorded

theorem Submitted.pushBorrowed {a : Impl} {w : WorkerPc} {frame : FrameView} (h : Submitted a w)
    (ho : Order a w) (hf : a.failed = false) :
    Submitted { a.pushFrame (.borrowed frame a.submissionCount) with
      submissions := Function.update a.submissions a.submissionCount .new
      submissionCount := a.submissionCount + 1 } w := by
  refine ⟨?_, h.active, fun _ k hk => ?_, fun hf' => ?_, fun k hk ht hr => ?_, fun k f status hc hr => ?_⟩
  · simp only [Impl.pushFrame, Impl.push, itemSubmissions_append, h.ids, List.range_succ]
    rfl
  · simp only [Impl.pushFrame, Impl.push]
    by_cases hkn : k = a.submissionCount
    · subst hkn
      simp [CpuSubmission.new]
    · have := h.pending hf k (by simp only at hk; omega)
      simp [this, hkn]
  · rw [show a.failed = true from hf'] at hf; cases hf
  · by_cases hkn : k = a.submissionCount
    · subst hkn
      simp [CpuSubmission.new] at ht
    · simp only [Function.update_of_ne hkn] at ht hr
      exact h.ok k (by simp only at hk; omega) ht hr
  · have hlt := h.lt_of_mem (ho.mem_admitted hc)
    rcases h.recorded k f status hc hr with hw | hok
    · exact .inl hw
    · refine .inr ?_
      simp only [Function.update_of_ne (Nat.ne_of_lt hlt)]
      exact hok

theorem Submitted.cancel {a b : Impl} {w : WorkerPc} {status : Status} (h : Submitted a w) (ho : Order a w)
    (hf : a.failed = false) (hne : status.result ≠ .ok) (hq : b.queue = []) (had : b.admitted = a.admitted)
    (hn : b.submissionCount = a.submissionCount) (hs : b.submissions = completeAll a.submissions a.queue status)
    (hf' : b.failed = a.failed) (hc : b.calls = a.calls) : Submitted b w := by
  have hnd := h.nodup ho hf
  rw [itemSubmissions_append, List.nodup_append] at hnd
  refine ⟨?_, h.active, fun _ k hk => ?_, ?_, fun k hk ht hr => ?_, fun k f st hcall hr => ?_⟩
  · rw [had, hn]; exact h.ids
  · have hp := h.pending hf k (hn ▸ hk)
    rw [itemSubmissions_append, List.mem_append] at hp
    rw [hs, completeAll_apply, hq, List.append_nil]
    by_cases hmem : k ∈ itemSubmissions a.queue
    · simp only [hmem, ↓reduceIte, CpuSubmission.complete_terminal, Bool.true_eq_false, false_iff]
      intro hhand
      exact hnd.2.2 k hhand k hmem rfl
    · simp only [hmem, ↓reduceIte, or_false] at hp ⊢
      exact hp
  · rw [hf', hf]; rintro ⟨⟩
  · rw [hs, completeAll_apply] at ht hr
    rw [hc]
    split at hr
    · obtain ⟨ht', heq⟩ := CpuSubmission.ok_of_complete hne hr
      rw [heq] at hr
      exact h.ok k (hn ▸ hk) ht' hr
    · rename_i hmem
      simp only [hmem, ↓reduceIte] at ht
      exact h.ok k (hn ▸ hk) ht hr
  · rw [hc] at hcall
    rcases h.recorded k f st hcall hr with hw | ⟨ht, hres⟩
    · exact .inl hw
    · refine .inr ?_
      rw [hs, completeAll_stable ht]
      exact ⟨ht, hres⟩

/-- A backend call for no item. -/
theorem Submitted.called {a : Impl} {w w' : WorkerPc} {call : BackendCall} (h : Submitted a w)
    (hcall : ∀ item e, call ≠ .item item e) (hw : w'.item? = w.item?) (hrec : ∀ item st, w ≠ .record item st)
    (hact : ∀ item active what, w' = .unwind (some item) active what → active = item.submission?) :
    Submitted (a.called call) w' := by
  have hmem : ∀ {item e}, .item item e ∈ (a.called call).calls → .item item e ∈ a.calls := by
    intro item e hm
    rcases List.mem_append.mp hm with hm | hm
    · exact hm
    · exact absurd (List.mem_singleton.mp hm).symm (hcall item e)
  refine ⟨h.ids, hact, ?_, h.settled, fun k hk ht hr => ?_, fun k f st hc hr => ?_⟩
  · rw [hw]; exact h.pending
  · obtain ⟨f, st, hm, hok⟩ := h.ok k hk ht hr
    exact ⟨f, st, List.mem_append_left _ hm, hok⟩
  · rcases h.recorded k f st (hmem hc) hr with hw | hok
    · exact absurd hw (hrec _ _)
    · exact .inr hok

theorem Effect.submitted {a : Impl} {pc : ClientPc} {e : Choice} {o : Section} {w : WorkerPc}
    (h : Effect cfg a pc e o) (hi : Submitted a w) (ho : Order a w)
    (hw : (∃ ended, e = .backend ended) → w = .notStarted) : Submitted o.shared w := by
  cases h with
  | pushOwned => exact hi.push rfl rfl rfl rfl rfl rfl rfl
  | pushFlush => exact hi.push rfl rfl rfl rfl rfl rfl rfl
  | pushBorrowed hpc hf hacc hroom => exact hi.pushBorrowed ho hf
  | cancel hpc hcl hca hf => exact hi.cancel ho hf (by simp) rfl rfl rfl rfl rfl rfl
  | @backend ended call pc' hslots hslots' hpc hwait hcall =>
      obtain rfl := hw ⟨ended, rfl⟩
      exact hi.called hcall rfl (by simp) (by simp)
  | _ => exact ⟨hi.ids, hi.active, hi.pending, hi.settled, hi.ok, hi.recorded⟩

/-! ## Sections of the worker -/

/-- What a failing section completes: the item in the worker's hands and everything queued. -/
theorem failAll_apply (subs : Nat → CpuSubmission) (active : Option Nat) (items : List Item) (status : Status)
    (k : Nat) :
    completeAll (complete subs active status) items status k =
      if active = some k ∨ k ∈ itemSubmissions items then (subs k).complete status else subs k := by
  rw [completeAll_apply, complete_apply]
  by_cases hk : active = some k <;> by_cases hm : k ∈ itemSubmissions items <;> simp [hk, hm]

/-- A failing section settles every submission. -/
theorem Submitted.fail {a b : Impl} {w w' : WorkerPc} {status : Status} (h : Submitted a w)
    (active : Option Nat) (hne : status.result ≠ .ok)
    (hact : ∀ k, k ∈ itemSubmissions w.item?.toList → active = some k)
    (hrec : ∀ k f st, w = .record (.borrowed f k) st → st.result ≠ .ok)
    (hw' : ∀ item active what, w' = .unwind (some item) active what → active = item.submission?)
    (had : b.admitted = a.admitted) (hn : b.submissionCount = a.submissionCount)
    (hs : b.submissions = completeAll (complete a.submissions active status) a.queue status)
    (hf : b.failed = true) (hc : b.calls = a.calls) : Submitted b w' := by
  refine ⟨?_, hw', ?_, fun _ k hk => ?_, fun k hk ht hr => ?_, fun k f st hcall hr => ?_⟩
  · rw [had, hn]; exact h.ids
  · rw [hf]; rintro ⟨⟩
  · rw [hn] at hk
    rw [hs, failAll_apply]
    cases hfa : a.failed with
    | true => split <;> simp [h.settled hfa k hk]
    | false =>
        cases ht : (a.submissions k).terminal with
        | true => split <;> simp [ht]
        | false =>
            have hmem := (h.pending hfa k hk).mp ht
            rw [itemSubmissions_append, List.mem_append] at hmem
            have hkey : active = some k ∨ k ∈ itemSubmissions a.queue := hmem.imp_left (hact k)
            simp [hkey]
  · rw [hs, failAll_apply] at ht hr
    rw [hc]
    split at hr
    · obtain ⟨ht', heq⟩ := CpuSubmission.ok_of_complete hne hr
      rw [heq] at hr
      exact h.ok k (hn ▸ hk) ht' hr
    · rename_i hkey
      simp only [hkey, ↓reduceIte] at ht
      exact h.ok k (hn ▸ hk) ht hr
  · rw [hc] at hcall
    rcases h.recorded k f st hcall hr with hw | ⟨ht, hres⟩
    · exact absurd hr (hrec k f st hw)
    · refine .inr ?_
      rw [hs, completeAll_stable, complete_stable ht]
      · exact ⟨ht, hres⟩
      · rw [complete_stable ht]; exact ht

/-- A success settles the item in the worker's hands and nothing else. -/
theorem Submitted.success {a : Impl} {item : Item} {status : Status} (h : Submitted a (.record item status))
    (ho : Order a (.record item status)) (hst : Stops a (.record item status)) (hok : status.result = .ok) :
    Submitted (recordSuccess item a).shared (recordSuccess item a).loc := by
  have hf : a.failed = false := by
    cases hfa : a.failed with
    | false => rfl
    | true => cases hst.failedClosing hfa
  obtain ⟨done, hdone, -⟩ := ho.recorded hf
  have hcall : .item item (.returned status) ∈ a.calls := by rw [hdone]; simp [WorkerPc.made]
  have hpend := h.pending hf
  have hnd := h.nodup ho hf
  simp only [WorkerPc.item?, Option.toList_some, List.singleton_append, itemSubmissions_cons] at hpend hnd
  cases item with
  | owned frame source =>
      refine ⟨h.ids, by rintro _ _ _ ⟨⟩, fun _ => hpend, h.settled, h.ok, fun k f st hc hr => ?_⟩
      rcases h.recorded k f st hc hr with hw | hres
      · cases hw
      · exact .inr hres
  | flush token =>
      refine ⟨h.ids, by rintro _ _ _ ⟨⟩, fun _ => hpend, h.settled, h.ok, fun k f st hc hr => ?_⟩
      rcases h.recorded k f st hc hr with hw | hres
      · cases hw
      · exact .inr hres
  | borrowed frame j =>
      have hj : j < a.submissionCount := h.lt_of_mem (ho.mem_admitted hcall)
      have hjt : (a.submissions j).terminal = false := (hpend j hj).mpr (by simp [Item.submission?])
      have hjq : j ∉ itemSubmissions a.queue := by
        simp only [Item.submission?, Option.toList_some, List.singleton_append, List.nodup_cons] at hnd
        exact hnd.1
      have hsub : ∀ k, (recordSuccess (.borrowed frame j) a).shared.submissions k =
          if j = k then ⟨true, .ok, ""⟩ else a.submissions k := by
        intro k
        simp only [recordSuccess, complete_apply, Option.some.injEq]
        split
        · rename_i hjk
          subst hjk
          exact CpuSubmission.complete_of_pending hjt
        · rfl
      refine ⟨h.ids, by rintro _ _ _ ⟨⟩, fun _ k hk => ?_, ?_, fun k hk ht hr => ?_, fun k f st hc hr => ?_⟩
      · rw [hsub]
        by_cases hjk : j = k
        · subst hjk
          simp [recordSuccess, WorkerPc.item?, hjq]
        · have := hpend k hk
          simp only [Item.submission?, Option.toList_some, List.singleton_append, List.mem_cons,
            Ne.symm hjk, false_or] at this
          simp [hjk, this, recordSuccess, WorkerPc.item?]
      · intro hfa
        rw [show a.failed = true from hfa] at hf
        cases hf
      · rw [hsub] at ht hr
        by_cases hjk : j = k
        · subst hjk
          exact ⟨frame, status, hcall, hok⟩
        · simp only [hjk, ↓reduceIte] at ht hr
          exact h.ok k hk ht hr
      · rw [hsub]
        by_cases hjk : j = k
        · simp [hjk]
        · simp only [hjk, ↓reduceIte]
          rcases h.recorded k f st hc hr with hw | hres
          · cases hw; exact absurd rfl hjk
          · exact .inr hres

theorem WorkerEffect.submitted {a : Impl} {w : WorkerPc} {e : Choice} {o : WorkerSection}
    (h : WorkerEffect a w e o) (hi : Submitted a w) (ho : Order a w) (hst : Stops a w) :
    Submitted o.shared o.loc := by
  cases h with
  | asleep => exact hi
  | stop hreq hq =>
      refine ⟨hi.ids, by rintro _ _ _ ⟨⟩, hi.pending, hi.settled, hi.ok, fun k f st hc hr => ?_⟩
      exact .inr ((hi.recorded k f st hc hr).resolve_left (by rintro ⟨⟩))
  | @pop item rest hq =>
      refine ⟨hi.ids, by rintro _ _ _ ⟨⟩, ?_, hi.settled, hi.ok, fun k f st hc hr => ?_⟩
      · have := hi.pending
        rw [hq] at this
        exact this
      · exact .inr ((hi.recorded k f st hc hr).resolve_left (by rintro ⟨⟩))
  | @served item status =>
      refine ⟨hi.ids, by rintro _ _ _ ⟨⟩, hi.pending, hi.settled, fun k hk ht hr => ?_,
        fun k f st hc hr => ?_⟩
      · obtain ⟨f, st, hm, hok⟩ := hi.ok k hk ht hr
        exact ⟨f, st, List.mem_append_left _ hm, hok⟩
      · rcases List.mem_append.mp hc with hc | hc
        · exact .inr ((hi.recorded k f st hc hr).resolve_left (by rintro ⟨⟩))
        · cases List.mem_singleton.mp hc
          exact .inl rfl
  | @threw item what =>
      refine ⟨hi.ids, by rintro _ _ _ ⟨⟩; rfl, hi.pending, hi.settled, fun k hk ht hr => ?_,
        fun k f st hc hr => ?_⟩
      · obtain ⟨f, st, hm, hok⟩ := hi.ok k hk ht hr
        exact ⟨f, st, List.mem_append_left _ hm, hok⟩
      · rcases List.mem_append.mp hc with hc | hc
        · exact .inr ((hi.recorded k f st hc hr).resolve_left (by rintro ⟨⟩))
        · cases List.mem_singleton.mp hc
  | @failure item status hne =>
      refine hi.fail item.submission? hne ?_ ?_ (by rintro _ _ _ ⟨⟩) rfl rfl rfl rfl rfl
      · intro k hk
        simpa [WorkerPc.item?, itemSubmissions_cons] using hk
      · rintro k f st ⟨⟩
        exact hne
  | success hok => exact hi.success ho hst hok
  | closed => exact hi.called (by simp) rfl (by simp) (by simp)
  | closeThrew => exact hi.called (by simp) rfl (by simp) (by simp)
  | finish =>
      refine ⟨hi.ids, by rintro _ _ _ ⟨⟩, hi.pending, hi.settled, hi.ok, fun k f st hc hr => ?_⟩
      exact .inr ((hi.recorded k f st hc hr).resolve_left (by rintro ⟨⟩))
  | finishFailed hf hne =>
      have hq : a.queue = [] := by
        rcases (hst.closing rfl).2 with hq | hfa
        · exact hq
        · rw [hf] at hfa; cases hfa
      refine hi.fail none hne (by simp [WorkerPc.item?]) (by simp) (by simp) rfl rfl ?_ rfl rfl
      simp [hq, completeAll, complete]
  | @handler item active what =>
      refine hi.fail active (by simp [guard]) ?_ (by simp) (by rintro _ _ _ ⟨⟩) rfl rfl rfl rfl rfl
      intro k hk
      cases item with
      | none => simp [WorkerPc.item?] at hk
      | some item =>
          rw [hi.active item active what rfl]
          simpa [WorkerPc.item?, itemSubmissions_cons] using hk

/-! ## Whole runs -/

variable {ι : Type*} [DecidableEq ι]

theorem session_submitted {ls : List (SessionLabel ι)} {s : SessionState ι} (h : SessionRun cfg ls s) :
    Submitted s.shared s.worker := by
  refine session_invariant h ⟨rfl, ?_, ?_, by rintro ⟨⟩, ?_, by rintro _ _ _ ⟨⟩⟩ ?_ ?_
  · split <;> rintro _ _ _ ⟨⟩
  · rintro - k ⟨⟩
  · rintro k ⟨⟩
  · intro _ _ _ _ hrun hi he
    exact he.submitted hi (session_order hrun) (session_stops hrun)
  · intro _ _ _ _ _ hrun hi he
    exact he.submitted hi (session_order hrun) (backend_notStarted hrun he)

/-- What a step does to the submissions: they are never taken back, a settled one stays as it is, and a new
one is pending. -/
structure Keeps (a b : Impl) : Prop where
  count : a.submissionCount ≤ b.submissionCount
  stable : ∀ k < a.submissionCount, (a.submissions k).terminal = true → b.submissions k = a.submissions k

theorem Effect.keeps {a : Impl} {pc : ClientPc} {e : Choice} {o : Section} (h : Effect cfg a pc e o) :
    Keeps a o.shared := by
  cases h with
  | pushBorrowed =>
      refine ⟨Nat.le_succ _, fun k hk _ => ?_⟩
      exact Function.update_of_ne (Nat.ne_of_lt hk) _ _
  | cancel => exact ⟨Nat.le_refl _, fun k _ ht => completeAll_stable ht _ _⟩
  | _ => exact ⟨Nat.le_refl _, fun _ _ _ => rfl⟩

theorem WorkerEffect.keeps {a : Impl} {w : WorkerPc} {e : Choice} {o : WorkerSection}
    (h : WorkerEffect a w e o) : Keeps a o.shared := by
  have hfail : ∀ active status k, (a.submissions k).terminal = true →
      completeAll (complete a.submissions active status) a.queue status k = a.submissions k := by
    intro active status k ht
    rw [failAll_apply]
    split
    · exact CpuSubmission.complete_of_terminal ht
    · rfl
  cases h with
  | failure hne => exact ⟨Nat.le_refl _, fun k _ ht => hfail _ _ k ht⟩
  | handler => exact ⟨Nat.le_refl _, fun k _ ht => hfail _ _ k ht⟩
  | @success item status hok =>
      cases item with
      | borrowed frame j => exact ⟨Nat.le_refl _, fun k _ ht => complete_stable ht (some j) .ok⟩
      | _ => exact ⟨Nat.le_refl _, fun _ _ _ => rfl⟩
  | _ => exact ⟨Nat.le_refl _, fun _ _ _ => rfl⟩

theorem Step.keeps {s t : SessionState ι} {l : SessionLabel ι} (h : Step cfg s l t) :
    Keeps s.shared t.shared := by
  cases l with
  | worker e => obtain ⟨_, o, ho, rfl⟩ := h.worker_inv; exact (workerAct_effect ho).keeps
  | client i e => obtain ⟨_, o, ho, rfl⟩ := h.client_inv; exact (clientAct_effect ho).keeps
  | wakeWorker => rw [h.wakeWorker_inv]; exact ⟨Nat.le_refl _, fun _ _ _ => rfl⟩
  | wake i => rw [h.wake_inv]; exact ⟨Nat.le_refl _, fun _ _ _ => rfl⟩

theorem run_keeps {ls : List (SessionLabel ι)} {s t : SessionState ι} (h : Run (Step cfg) s ls t) :
    Keeps s.shared t.shared := by
  refine h.lift (Q := fun s t => Keeps s.shared t.shared) (fun s => ⟨Nat.le_refl _, fun _ _ _ => rfl⟩) ?_
    fun hst => Step.keeps hst
  intro a b c hab hbc
  refine ⟨hab.count.trans hbc.count, fun k hk ht => ?_⟩
  have hb := hab.stable k hk ht
  rw [← hb]
  exact hbc.stable k (Nat.lt_of_lt_of_le hk hab.count) (by rw [hb]; exact ht)

/-! ## How a submission comes to be cancelled -/

/-- The step is a cancellation that finds the frame in the queue. -/
def DroppedByCancel (s : SessionState ι) (l : SessionLabel ι) (k : Nat) : Prop :=
  ∃ i, l = .client i .run ∧ (s.client i).pc = .cancel ∧ k ∈ itemSubmissions s.shared.queue

/-- The step records that the backend itself answered with the cancellation code, for the frame or for an item
in front of it. -/
def CancelledByBackend (s : SessionState ι) (l : SessionLabel ι) (k : Nat) : Prop :=
  ∃ item status, l = .worker .run ∧ s.worker = .record item status ∧ status.result = .errorCancelled ∧
    k ∈ itemSubmissions (item :: s.shared.queue)

theorem CpuSubmission.query_ne_pending {s : CpuSubmission} : s.query ≠ .pending ↔ s.terminal = true := by
  unfold query
  cases s.terminal with
  | false => simp
  | true => by_cases hr : s.result = .ok <;> by_cases hc : s.result = .errorCancelled <;> simp [hr, hc]

theorem CpuSubmission.query_complete {s : CpuSubmission} :
    s.query = .complete ↔ s.terminal = true ∧ s.result = .ok := by
  unfold query
  cases s.terminal with
  | false => simp
  | true => by_cases hr : s.result = .ok <;> by_cases hc : s.result = .errorCancelled <;> simp [hr, hc]

theorem CpuSubmission.query_cancelled {s : CpuSubmission} :
    s.query = .cancelled ↔ s.terminal = true ∧ s.result = .errorCancelled := by
  unfold query
  cases s.terminal with
  | false => simp
  | true => by_cases hr : s.result = .ok <;> by_cases hc : s.result = .errorCancelled <;> simp [hr, hc]

theorem CpuSubmission.complete_cases {s : CpuSubmission} {status : Status} (ht : s.terminal = false)
    {p : Prop} [Decidable p] (h : (if p then s.complete status else s).terminal = true) :
    p ∧ (if p then s.complete status else s).result = status.result := by
  split at h
  · rename_i hp
    simp [hp, complete_of_pending ht]
  · rw [ht] at h; cases h

/-- A client settles only what it cancels. -/
theorem Effect.settles {a : Impl} {pc : ClientPc} {e : Choice} {o : Section} {k : Nat}
    (h : Effect cfg a pc e o) (hk : k < a.submissionCount) (hs : (a.submissions k).terminal = false)
    (ht : (o.shared.submissions k).terminal = true) :
    e = .run ∧ pc = .cancel ∧ k ∈ itemSubmissions a.queue := by
  cases h with
  | cancel hpc hcl hca hf =>
      simp only [completeAll_apply] at ht
      exact ⟨rfl, hpc, (CpuSubmission.complete_cases hs ht).1⟩
  | pushBorrowed =>
      simp only [Function.update_of_ne (Nat.ne_of_lt hk)] at ht
      rw [hs] at ht; cases ht
  | _ =>
      have ht : (a.submissions k).terminal = true := ht
      rw [hs] at ht; cases ht

theorem WorkerEffect.cancels {a : Impl} {w : WorkerPc} {e : Choice} {o : WorkerSection} {k : Nat}
    (h : WorkerEffect a w e o) (hs : (a.submissions k).terminal = false)
    (ht : (o.shared.submissions k).terminal = true) (hr : (o.shared.submissions k).result = .errorCancelled) :
    ∃ item status, e = .run ∧ w = .record item status ∧ status.result = .errorCancelled ∧
      k ∈ itemSubmissions (item :: a.queue) := by
  cases h with
  | @failure item status hne =>
      simp only [recordFailure, failAll_apply] at ht hr
      obtain ⟨hmem, hres⟩ := CpuSubmission.complete_cases hs ht
      rw [hres] at hr
      refine ⟨item, status, rfl, rfl, hr, ?_⟩
      rw [itemSubmissions_cons, List.mem_append, Option.mem_toList]
      exact hmem
  | @success item status hok =>
      cases item with
      | borrowed frame j =>
          simp only [recordSuccess, complete_apply] at ht hr
          obtain ⟨hmem, hres⟩ := CpuSubmission.complete_cases hs ht
          rw [hres] at hr
          cases hr
      | _ =>
          have ht : (a.submissions k).terminal = true := ht
          rw [hs] at ht; cases ht
  | handler =>
      simp only [recordException, failAll_apply] at ht hr
      obtain ⟨hmem, hres⟩ := CpuSubmission.complete_cases hs ht
      rw [hres] at hr
      cases hr
  | _ =>
      have ht : (a.submissions k).terminal = true := ht
      rw [hs] at ht; cases ht

theorem Step.cancels {s t : SessionState ι} {l : SessionLabel ι} {k : Nat} (h : Step cfg s l t)
    (hk : k < s.shared.submissionCount) (hs : (s.shared.submissions k).terminal = false)
    (ht : (t.shared.submissions k).terminal = true)
    (hr : (t.shared.submissions k).result = .errorCancelled) :
    DroppedByCancel s l k ∨ CancelledByBackend s l k := by
  cases l with
  | worker e =>
      obtain ⟨_, o, ho, rfl⟩ := h.worker_inv
      obtain ⟨item, status, rfl, hw, hres, hmem⟩ := (workerAct_effect ho).cancels hs ht hr
      exact .inr ⟨item, status, rfl, hw, hres, hmem⟩
  | client i e =>
      obtain ⟨_, o, ho, rfl⟩ := h.client_inv
      obtain ⟨rfl, hpc, hmem⟩ := (clientAct_effect ho).settles hk hs ht
      exact .inl ⟨i, rfl, hpc, hmem⟩
  | wakeWorker => rw [h.wakeWorker_inv, hs] at ht; cases ht
  | wake i => rw [h.wake_inv, hs] at ht; cases ht

/-! ## How a submission comes to be -/

theorem Effect.accepts {a : Impl} {pc : ClientPc} {e : Choice} {o : Section} (h : Effect cfg a pc e o) :
    o.shared.submissionCount = a.submissionCount ∨
      o.shared.submissionCount = a.submissionCount + 1 ∧
        o.shared.submissions a.submissionCount = .new := by
  cases h with
  | pushBorrowed => exact .inr ⟨rfl, Function.update_self _ _ _⟩
  | _ => exact .inl rfl

theorem WorkerEffect.accepts {a : Impl} {w : WorkerPc} {e : Choice} {o : WorkerSection}
    (h : WorkerEffect a w e o) : o.shared.submissionCount = a.submissionCount := by
  cases h with
  | @success item status hok => cases item <;> rfl
  | _ => rfl

theorem Step.accepts {s t : SessionState ι} {l : SessionLabel ι} (h : Step cfg s l t) :
    t.shared.submissionCount = s.shared.submissionCount ∨
      t.shared.submissionCount = s.shared.submissionCount + 1 ∧
        t.shared.submissions s.shared.submissionCount = .new := by
  cases l with
  | worker e => obtain ⟨_, o, ho, rfl⟩ := h.worker_inv; exact .inl (workerAct_effect ho).accepts
  | client i e => obtain ⟨_, o, ho, rfl⟩ := h.client_inv; exact (clientAct_effect ho).accepts
  | wakeWorker => rw [h.wakeWorker_inv]; exact .inl rfl
  | wake i => rw [h.wake_inv]; exact .inl rfl

/-! ## The life of a submission -/

theorem eq_of_nodup_filterMap {α β : Type*} {f : α → Option β} {items : List α}
    (h : (items.filterMap f).Nodup) {a b : α} {k : β} (ha : a ∈ items) (hb : b ∈ items) (hfa : f a = some k)
    (hfb : f b = some k) : a = b := by
  induction items with
  | nil => cases ha
  | cons item items ih =>
      have hmem : ∀ {c}, c ∈ items → f c = some k → k ∈ items.filterMap f :=
        fun hc hfc => List.mem_filterMap.mpr ⟨_, hc, hfc⟩
      have htail : (items.filterMap f).Nodup := by
        rw [List.filterMap_cons] at h
        split at h
        · exact h
        · exact (List.nodup_cons.mp h).2
      rcases List.mem_cons.mp ha with ha' | ha' <;> rcases List.mem_cons.mp hb with hb' | hb'
      · rw [ha', hb']
      · subst ha'
        rw [List.filterMap_cons_some hfa, List.nodup_cons] at h
        exact absurd (hmem hb' hfb) h.1
      · subst hb'
        rw [List.filterMap_cons_some hfb, List.nodup_cons] at h
        exact absurd (hmem ha' hfa) h.1
      · exact ih htail ha' hb'

/-- A settled submission is complete exactly if the backend has taken its frame. -/
theorem Submitted.complete_iff {a : Impl} {w : WorkerPc} (h : Submitted a w) (ho : Order a w)
    (hst : Stops a w) {frame : FrameView} {k : Nat} (hadm : .borrowed frame k ∈ a.admitted)
    (hset : (a.submissions k).query ≠ .pending) :
    (a.submissions k).query = .complete ↔
      ∃ status, .item (.borrowed frame k) (.returned status) ∈ a.calls ∧ status.result = .ok := by
  have hk := h.lt_of_mem hadm
  have ht := CpuSubmission.query_ne_pending.mp hset
  rw [CpuSubmission.query_complete]
  constructor
  · rintro ⟨-, hr⟩
    obtain ⟨frame', status, hc, hok⟩ := h.ok k hk ht hr
    have hnd : (a.admitted.filterMap Item.submission?).Nodup := by
      rw [show a.admitted.filterMap Item.submission? = _ from h.ids]
      exact List.nodup_range
    cases eq_of_nodup_filterMap hnd hadm (ho.mem_admitted hc) rfl rfl
    exact ⟨status, hc, hok⟩
  · rintro ⟨status, hc, hok⟩
    rcases h.recorded k frame status hc hok with rfl | hres
    · have hf : a.failed = false := by
        cases hfa : a.failed with
        | false => rfl
        | true => cases hst.failedClosing hfa
      have hp := (h.pending hf k hk).mpr (by simp [WorkerPc.item?, itemSubmissions_cons, Item.submission?])
      rw [ht] at hp
      cases hp
    · exact hres

/-- Submissions of an asynchronous session. One that has been accepted starts pending; once it is settled it
never changes; it settles as complete exactly if the backend has returned OK for its frame; it settles as
cancelled only when a cancellation drops it from the queue or the backend itself answers with the cancellation
code; and none is pending when the worker has exited. -/
theorem submissions_settle {ls : List (SessionLabel ι)} {s : SessionState ι} (h : SessionRun cfg ls s) {k : Nat}
    (hk : k < s.shared.submissionCount) :
    (∃ ls₁ a l b ls₂, ls = ls₁ ++ l :: ls₂ ∧ SessionRun cfg ls₁ a ∧ Step cfg a l b ∧ Run (Step cfg) b ls₂ s ∧
      a.shared.submissionCount = k ∧ b.shared.submissionCount = k + 1 ∧
      (b.shared.submissions k).query = .pending) ∧
    (∀ ls' t, Run (Step cfg) s ls' t → (s.shared.submissions k).query ≠ .pending →
      t.shared.submissions k = s.shared.submissions k) ∧
    (∃ frame, .borrowed frame k ∈ s.shared.admitted) ∧
    (∀ frame, .borrowed frame k ∈ s.shared.admitted → (s.shared.submissions k).query ≠ .pending →
      ((s.shared.submissions k).query = .complete ↔
        ∃ status, .item (.borrowed frame k) (.returned status) ∈ s.shared.calls ∧ status.result = .ok)) ∧
    ((s.shared.submissions k).query = .cancelled →
      ∃ ls₁ a l b ls₂, ls = ls₁ ++ l :: ls₂ ∧ SessionRun cfg ls₁ a ∧ Step cfg a l b ∧
        Run (Step cfg) b ls₂ s ∧ (a.shared.submissions k).query = .pending ∧
        (DroppedByCancel a l k ∨ CancelledByBackend a l k)) ∧
    (s.worker = .exited → (s.shared.submissions k).query ≠ .pending) := by
  have hi := session_submitted h
  have ho := session_order h
  have hst := session_stops h
  refine ⟨?_, fun ls' t hrun hset => ?_, ?_, fun frame hadm hset => hi.complete_iff ho hst hadm hset,
    fun hca => ?_, fun hw => ?_⟩
  · obtain ⟨ls₁, a, l, b, ls₂, h₁, hab, h₂, hna, hb, rfl⟩ :=
      h.exists_flip (P := fun u => k < u.shared.submissionCount) (by rintro ⟨⟩) hk
    refine ⟨ls₁, a, l, b, ls₂, rfl, h₁, hab, h₂, ?_⟩
    rcases Step.accepts hab with heq | ⟨heq, hnew⟩
    · rw [heq] at hb; exact absurd hb hna
    · have hka : a.shared.submissionCount = k := by omega
      rw [hka] at hnew heq
      exact ⟨hka, heq, by rw [hnew]; rfl⟩
  · exact (run_keeps hrun).stable k hk (CpuSubmission.query_ne_pending.mp hset)
  · have hmem : k ∈ itemSubmissions s.shared.admitted := by rw [hi.ids]; exact List.mem_range.mpr hk
    obtain ⟨item, hitem, hsub⟩ := List.mem_filterMap.mp hmem
    cases item with
    | borrowed frame j => cases hsub; exact ⟨frame, hitem⟩
    | _ => cases hsub
  · obtain ⟨ht, hr⟩ := CpuSubmission.query_cancelled.mp hca
    obtain ⟨ls₁, a, l, b, ls₂, h₁, hab, h₂, hna, ⟨hkb, htb⟩, rfl⟩ :=
      h.exists_flip
        (P := fun u => k < u.shared.submissionCount ∧ (u.shared.submissions k).terminal = true)
        (by rintro ⟨⟨⟩, -⟩) ⟨hk, ht⟩
    have hka : k < a.shared.submissionCount := by
      by_contra hlt
      rcases Step.accepts hab with heq | ⟨heq, hnew⟩
      · omega
      · obtain rfl : k = a.shared.submissionCount := by omega
        rw [hnew] at htb
        cases htb
    have hta : (a.shared.submissions k).terminal = false := by
      cases hat : (a.shared.submissions k).terminal with
      | false => rfl
      | true => exact absurd ⟨hka, hat⟩ hna
    have hrb : (b.shared.submissions k).result = .errorCancelled := by
      rw [← (run_keeps h₂).stable k hkb htb]; exact hr
    refine ⟨ls₁, a, l, b, ls₂, rfl, h₁, hab, h₂, ?_, Step.cancels hab hka hta htb hrb⟩
    simp [CpuSubmission.query, hta]
  · rw [CpuSubmission.query_ne_pending]
    obtain ⟨-, hq⟩ := hst.closing (by rw [hw]; rfl)
    cases hf : s.shared.failed with
    | true => exact hi.settled hf k hk
    | false =>
        have hq : s.shared.queue = [] := hq.resolve_right (by simp [hf])
        have hp := hi.pending hf k hk
        rw [hq, hw] at hp
        simpa [WorkerPc.item?] using hp

/-- One client submits a frame, and the backend answers for it. -/
def submissionRun (status : Status) : List (SessionLabel Unit) :=
  [.client () (.call (.submitBorrowed (smallFrame 0))), .client () .run, .client () .run, .worker .run,
    .worker (.backend (.returned status)), .worker .run]

theorem submissions_settle_small :
    ∃ s : SessionState Unit, SessionRun (.small 1 (by decide)) (submissionRun .ok) s ∧
      ∀ ls t, Run (Step (.small 1 (by decide))) s ls t → (t.shared.submissions 0).query = .complete := by
  have h : SessionRun (.small 1 (by decide)) (submissionRun .ok) _ := Program.run_of_exec rfl
  obtain ⟨-, hstable, -⟩ := submissions_settle (k := 0) h (by decide)
  refine ⟨_, h, fun ls t hrun => ?_⟩
  rw [hstable ls t hrun (by decide)]
  rfl

/-- A backend that answers with the cancellation code leaves a cancelled submission in a session that nobody
has cancelled. -/
theorem cancelled_without_cancel :
    ∃ s : SessionState Unit,
      SessionRun (.small 1 (by decide)) (submissionRun ⟨.errorCancelled, "device reset"⟩) s ∧
        (s.shared.submissions 0).query = .cancelled ∧ s.shared.canceled = false := by
  refine ⟨_, Program.run_of_exec rfl, ?_, rfl⟩
  decide

end MkvCodec.Encoder
