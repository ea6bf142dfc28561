import MkvCodec.Gpu.Lemmas.Move

/-!
# Recycling a GPU frame

Whatever makes a section recycle the frame, it does so once, without leases and behind completions that are not
pending. That no handle is left then needs the counters of leases and references not to wrap.
-/

namespace MkvCodec.Gpu

open Concurrency

variable {C : Type*}

/-! ## Before the import has made a core -/

/-- Nobody but the importing thread can do anything. -/
structure Unborn {ι : Type*} (a : Frame C) (ks : ι → Client C) : Prop where
  handles : a.handles = []
  bare : a.bare = 0
  holders : a.holders = 0
  recycled : a.core.recycled = false
  leases : a.core.externalLeases = 0
  idle : ∀ i, (ks i).pc = .idle ∨ ∃ config out, (ks i).pc = .importFrame config out

theorem proceed_life (a : Frame C) (next : Next) :
    (proceed a next).shared.life = a.life ∨ (proceed a next).shared.life = .destroyed := by
  cases next with
  | finish handle reply => exact .inl (by simp [proceed])
  | delete handle => exact .inl rfl
  | rethrow who what => cases who <;> exact .inl (by simp [proceed, rethrow])
  | destroyed reply => cases reply <;> exact .inr (by simp [proceed])

theorem Move.unborn {a : Frame C} {pc : Pc C} {e : Choice C} {o : Section C} (h : Move a pc e o)
    (hlife : o.shared.life = .unborn) : a.life = .unborn := by
  cases h with
  | acquireThrows hr =>
      rcases proceed_life a (.rethrow _ (some GpuFrameCore.recycledError)) with hl | hl
      · exact hl.symm.trans hlife
      · exact absurd (hl.symm.trans hlife) (by simp)
  | @settle pc core next hrec =>
      rcases proceed_life { a with core := core } next with hl | hl
      · exact hl.symm.trans hlife
      · exact absurd (hl.symm.trans hlife) (by simp)
  | @callback generation next =>
      simp only [Gpu.callback] at hlife
      rcases proceed_life { a with
        recycles := a.recycles ++ [generation]
        releases := if a.accepted then a.releases + 1 else a.releases } next with hl | hl
      · exact hl.symm.trans hlife
      · exact absurd (hl.symm.trans hlife) (by simp)
  | @dropRecycled reply => cases reply <;> simp [proceed] at hlife
  | imported => cases hlife
  | dropCore => cases hlife
  | _ => simpa [Frame.modify, Frame.enter, Gpu.accept] using hlife

theorem Move.recycled_mono {a : Frame C} {pc : Pc C} {e : Choice C} {o : Section C} (h : Move a pc e o)
    (hr : a.core.recycled = true) (hlife : a.life ≠ .unborn) : o.shared.core.recycled = true := by
  cases h with
  | imported hcore hl => exact absurd hl hlife
  | settle hrec => cases hrec <;> simpa using hr
  | recycle => rfl
  | @addConsumer c =>
      cases c <;> simp [GpuFrameCore.addConsumer, hr]
  | bare hr' => exact absurd (hr.symm.trans hr') (by simp)
  | acquired hr' => exact absurd (hr.symm.trans hr') (by simp)
  | _ => simpa [Frame.modify, Frame.enter, Gpu.accept, Gpu.callback] using hr

/-! ## The recycle callback -/

/-- The calls of the recycle callback that are due. -/
def Pc.due : Pc C → Nat
  | .callback _ _ => 1
  | _ => 0

@[simp] theorem proceed_due (a : Frame C) (next : Next) : (proceed a next).pc.due = 0 := by
  cases next with
  | finish handle reply => rfl
  | delete handle => rfl
  | rethrow who what => cases who <;> rfl
  | destroyed reply => cases reply <;> rfl

@[simp] theorem rethrow_due (a : Frame C) (who : Acquirer) (what : Option String) :
    (rethrow a who what).pc.due = 0 := proceed_due a (.rethrow who what)

theorem Recycles.recycled {a : Frame C} {pc : Pc C} {core : GpuFrameCore C} {next : Next}
    (h : Recycles a pc core next) : core.recycled = a.core.recycled := by
  cases h <;> rfl

theorem Recycles.due {a : Frame C} {pc : Pc C} {core : GpuFrameCore C} {next : Next}
    (h : Recycles a pc core next) : pc.due = 0 := by
  cases h <;> rfl

/-- A call of the recycle callback becomes due with the section that recycles the frame, and is made once. -/
theorem Move.due {a : Frame C} {pc : Pc C} {e : Choice C} {o : Section C} (h : Move a pc e o)
    (hunborn : a.life = .unborn → a.core.recycled = false) :
    o.shared.recycles.length + o.pc.due + a.core.recycled.toNat =
      a.recycles.length + pc.due + o.shared.core.recycled.toNat := by
  cases h with
  | imported hcore hl => simp [(importExternal_ok hcore).1, hunborn hl, Pc.due]
  | library hpc => rcases hpc with rfl | rfl | ⟨c, rfl⟩ | rfl <;> simp [Frame.enter, Pc.due]
  | goOn hn hvalid hpc => rcases hpc with rfl | rfl | ⟨t, rfl⟩ | rfl <;> simp [Pc.due]
  | asked hpc => rcases hpc with rfl | ⟨t, rfl⟩ <;> simp [Pc.due]
  | settle hrec => simp only [proceed_due, proceed_recycles, proceed_core, hrec.recycled, hrec.due]
  | recycle hrec hr =>
      rw [hrec.due, ← hrec.recycled, hr]
      rfl
  | callback =>
      unfold Gpu.callback
      rw [proceed_due, proceed_recycles, proceed_core, List.length_append]
      rfl
  | @addConsumer c =>
      have : (a.core.addConsumer c).2.recycled = a.core.recycled := by
        unfold GpuFrameCore.addConsumer
        split
        · rfl
        · split <;> rfl
      simp [this, Pc.due]
  | dropRecycled => rw [proceed_due, proceed_recycles, proceed_core]; rfl
  | acquireThrows => rw [rethrow_due, rethrow_recycles, rethrow_core]; rfl
  | _ => simp [Frame.modify, Frame.enter, Gpu.accept, Pc.due]

section

variable [DecidableEq C] {ι : Type*} [DecidableEq ι] {s₀ s t : FrameState C ι} {ls : List (FrameLabel C ι)}

/-- A frame that is new, or is being imported. -/
def Fresh (s : FrameState C ι) : Prop :=
  (∃ desc producer native states, s = .init ι desc producer native states) ∨
    ∃ importer config out desc states, s = .importing importer config out desc states

theorem frame_unborn (h : Run Step s₀ ls s) (h₀ : Fresh s₀) (hlife : s.shared.life = .unborn) :
    Unborn s.shared s.client := by
  refine frame_invariant (P := fun _ _ => True) (I := fun a ks => a.life = .unborn → Unborn a ks)
    (h.mono fun _ _ _ hst => ⟨hst, trivial⟩) ?_ ?_ ?_ hlife
  · rcases h₀ with ⟨desc, producer, native, states, rfl⟩ | ⟨importer, config, out, desc, states, rfl⟩
    · intro hl
      cases hl
    · refine fun _ => ⟨rfl, rfl, rfl, rfl, rfl, fun i => ?_⟩
      by_cases hi : i = importer
      · subst hi
        exact .inr ⟨config, out, by simp [FrameState.importing]⟩
      · exact .inl (by simp [FrameState.importing, hi])
  · intro s c state hs _ hl
    obtain ⟨hhandles, hbare, hholders, hr, hleases, hidle⟩ := hs hl
    exact ⟨hhandles, hbare, hholders, hr, hleases, hidle⟩
  · intro s i e o hs _ hmove hl
    obtain ⟨hhandles, hbare, hholders, hr, hleases, hidle⟩ := hs (hmove.unborn hl)
    have hold := hmove.unborn hl
    have hpc := hidle i
    generalize (s.client i).pc = pc at hmove hpc
    cases hmove with
    | use hn => rw [hhandles] at hn; cases hn
    | release hn => rw [hhandles] at hn; cases hn
    | library _ hheld => rw [hholders] at hheld; cases hheld
    | releaseBare hb => rw [hbare] at hb; cases hb
    | drop hheld => rw [hholders] at hheld; cases hheld
    | destroy hl' => rw [hold] at hl'; cases hl'
    | imported => cases hl
    | importFails =>
        refine ⟨hhandles, hbare, hholders, hr, hleases, fun j => ?_⟩
        by_cases hj : j = i
        · subst hj
          exact .inl (by simp [Client.after])
        · rw [Function.update_of_ne hj]
          exact hidle j
    | settle hrec => cases hrec <;> simp at hpc
    | recycle hrec => cases hrec <;> simp at hpc
    | asked hask => rcases hask with rfl | ⟨t, rfl⟩ <;> simp at hpc
    | _ => simp at hpc

/-- The recycle callback has been called, or is about to be, exactly when the frame is recycled. -/
theorem frame_due [Fintype ι] (h : Run Step s₀ ls s) (h₀ : Fresh s₀) :
    s.shared.recycles.length + ∑ i, (s.client i).pc.due = s.shared.core.recycled.toNat := by
  induction h with
  | nil =>
      rcases h₀ with ⟨desc, producer, native, states, rfl⟩ | ⟨importer, config, out, desc, states, rfl⟩
      · simp [FrameState.init, GpuFrameCore.new, Pc.due]
      · have hdue : ∀ i, (Function.update (fun _ : ι => (⟨.idle, []⟩ : Client C)) importer
            ⟨.importFrame config out, []⟩ i).pc.due = 0 := by
          intro i
          by_cases hi : i = importer
          · subst hi; simp [Pc.due]
          · simp [hi, Pc.due]
        simp [FrameState.importing, GpuFrameCore.new, hdue]
  | @snoc ls s l t hrun hst ih =>
      cases l with
      | worker e =>
          obtain ⟨c, state, rfl, hshared, hclient⟩ := Step.driver_inv hst
          rw [hshared, hclient]
          exact ih
      | client i e =>
          obtain ⟨o, hmove, hshared, hclient⟩ := Step.client_move hst
          have hdue := hmove.due fun hl => (frame_unborn hrun h₀ hl).recycled
          have hsum := sum_update (fun k => k.pc.due) s.client i ((s.client i).after o)
          rw [hshared, hclient]
          simp only [Client.after] at hsum hdue ⊢
          omega
      | wakeWorker => rw [hst.wakeWorker_inv]; exact ih
      | wake i => rw [hst.wake_inv]; exact ih

/-! ## Leases and completions of a recycled frame -/

omit [DecidableEq C] in
theorem Recycles.terminal {a : Frame C} {pc : Pc C} {core : GpuFrameCore C} {next : Next}
    (h : Recycles a pc core next) {states : C → CompletionState} :
    core.Terminal states ↔ a.core.Terminal states := by
  cases h <;> exact Iff.rfl

omit [DecidableEq C] in
theorem Recycles.no_leases {a : Frame C} {pc : Pc C} {core : GpuFrameCore C} {next : Next}
    (h : Recycles a pc core next) (hleases : a.core.externalLeases = 0) : core.externalLeases = 0 := by
  cases h with
  | poll => exact hleases
  | release => simp [hleases]
  | destroy => rfl

omit [DecidableEq C] in
/-- A section changes leases and completions of a frame only as long as it is not recycled, or recycles it. -/
theorem Move.recycled {a : Frame C} {pc : Pc C} {e : Choice C} {o : Section C} (h : Move a pc e o)
    (hr : o.shared.core.recycled = true) :
    (a.core.recycled = true ∧ (a.core.externalLeases = 0 → o.shared.core.externalLeases = 0) ∧
      (a.core.Terminal a.states → o.shared.core.Terminal o.shared.states)) ∨
      a.core.recycled = false ∧ o.shared.core.externalLeases = 0 ∧ o.shared.core.Terminal o.shared.states := by
  cases h with
  | imported hcore => exact absurd ((importExternal_ok hcore).1.symm.trans hr) (by simp)
  | bare hr' => exact absurd (hr'.symm.trans (by simpa using hr)) (by simp)
  | acquired hr' => exact absurd (hr'.symm.trans hr) (by simp)
  | settle hrec =>
      rw [proceed_core] at hr ⊢
      rw [proceed_states]
      exact .inl ⟨hrec.recycled.symm.trans hr, hrec.no_leases, hrec.terminal.mpr⟩
  | recycle hrec hr' hleases hterminal => exact .inr ⟨hrec.recycled.symm.trans hr', hleases, hterminal⟩
  | @addConsumer c =>
      cases hold : a.core.recycled with
      | true =>
          have hsame : (a.core.addConsumer c).2 = a.core := by
            cases c <;> simp [GpuFrameCore.addConsumer, hold]
          simp only [finish_shared, leave_core, leave_states, hsame, true_and]
          exact .inl ⟨id, id⟩
      | false => cases c <;> simp [GpuFrameCore.addConsumer, hold] at hr
  | _ =>
      simp only [Frame.modify, Frame.enter, Gpu.accept, Gpu.callback, finish_shared, leave_core, proceed_core,
        rethrow_core, leave_states, proceed_states, rethrow_states] at hr ⊢
      exact .inl ⟨hr, id, id⟩

theorem frame_no_leases (h : Run Step s₀ ls s) (h₀ : Fresh s₀) (hr : s.shared.core.recycled = true) :
    s.shared.core.externalLeases = 0 := by
  refine frame_invariant (P := fun _ _ => True)
    (I := fun a _ => a.core.recycled = true → a.core.externalLeases = 0)
    (h.mono fun _ _ _ hst => ⟨hst, trivial⟩) ?_ (fun hs _ => hs) ?_ hr
  · rcases h₀ with ⟨desc, producer, native, states, rfl⟩ | ⟨importer, config, out, desc, states, rfl⟩ <;>
      exact fun _ => rfl
  · intro s i e o hs _ hmove hr
    rcases hmove.recycled hr with ⟨hold, hleases, -⟩ | ⟨-, hleases, -⟩
    · exact hleases (hs hold)
    · exact hleases

/-- A completion does not become pending again. -/
def Sticky (s : FrameState C ι) : FrameLabel C ι → Prop
  | .worker (.signal c state) => state.isPending = true → (s.shared.states c).isPending = true
  | _ => True

theorem frame_terminal (h : Run (Restrict Step Sticky) s₀ ls s) (h₀ : Fresh s₀)
    (hr : s.shared.core.recycled = true) : s.shared.core.Terminal s.shared.states := by
  refine frame_invariant (P := Sticky)
    (I := fun a _ => a.core.recycled = true → a.core.Terminal a.states) h ?_ ?_ ?_ hr
  · rcases h₀ with ⟨desc, producer, native, states, rfl⟩ | ⟨importer, config, out, desc, states, rfl⟩ <;>
      exact fun hr => by cases hr
  · intro s c state hs hsticky hr
    obtain ⟨hproducer, hdone⟩ := hs hr
    refine ⟨hproducer, fun completion hmem => ?_⟩
    have hold := hdone completion hmem
    cases completion with
    | completed => rfl
    | driver c' =>
        simp only [Completion.query, Function.update_apply] at hold ⊢
        split
        · rename_i heq
          subst heq
          by_contra hpending
          rw [hsticky (by simpa using hpending)] at hold
          cases hold
        · exact hold
  · intro s i e o hs _ hmove hr
    rcases hmove.recycled hr with ⟨hold, -, hterminal⟩ | ⟨-, -, hterminal⟩
    · exact hterminal (hs hold)
    · exact hterminal

/-! ## Calls on a recycled frame -/

def Next.late : Next → Bool
  | .finish _ none | .delete _ | .destroyed none => true
  | _ => false

/-- From here a call can no longer succeed once the frame is recycled. -/
def Pc.late : Pc C → Bool
  | .acquire who => decide (who ≠ .importer)
  | .poll next | .releaseExternal next | .callback _ next => next.late
  | .idle | .check _ _ | .native _ | .addConsumer _ | .dropReference _ | .delete _ => true
  | .dropCore none | .destroyWait _ none => true
  | _ => false

omit [DecidableEq C] in
theorem proceed_late (a : Frame C) {next : Next} (h : next.late = true) :
    (proceed a next).pc.late = true ∧ (proceed a next).reply = none := by
  cases next with
  | finish handle reply =>
      cases reply with
      | none => exact ⟨rfl, rfl⟩
      | some reply => cases h
  | delete handle => exact ⟨rfl, rfl⟩
  | rethrow who what => cases h
  | destroyed reply =>
      cases reply with
      | none => exact ⟨rfl, rfl⟩
      | some reply => cases h

omit [DecidableEq C] in
theorem not_valid_of_recycled {core : GpuFrameCore C} {h : GpuFrameHandle} (hr : core.recycled = true) :
    valid core h = false := by
  simp [valid, hr]

omit [DecidableEq C] in
theorem Recycles.late {a : Frame C} {pc : Pc C} {core : GpuFrameCore C} {next : Next}
    (h : Recycles a pc core next) (hlate : pc.late = true) : next.late = true := by
  cases h with
  | poll => exact hlate
  | release => exact hlate
  | @destroy reply =>
      cases reply with
      | none => rfl
      | some reply => cases hlate

omit [DecidableEq C] in
/-- What is returned behind the recycling is an error. -/
theorem Move.late {a : Frame C} {pc : Pc C} {e : Choice C} {o : Section C} (h : Move a pc e o)
    (hr : a.core.recycled = true) (hlate : pc.late = true) :
    o.pc.late = true ∧ ∀ r ∈ o.reply, r.status.result.isError = true := by
  have hvalid {h : GpuFrameHandle} : valid a.core h ≠ true := by simp [not_valid_of_recycled hr]
  cases h with
  | library hpc =>
      rcases hpc with rfl | rfl | ⟨c, rfl⟩ | rfl <;> exact ⟨rfl, by simp⟩
  | imported => cases hlate
  | importFails => cases hlate
  | @acquireThrows who =>
      cases who with
      | importer => cases hlate
      | component => exact ⟨rfl, by simp [rethrow, finish, Reply.of, guard, Result.isError]⟩
      | makeHandle => exact ⟨rfl, by simp [rethrow, finish, Reply.of, guard, Result.isError]⟩
  | bare hr' => exact absurd (hr.symm.trans hr') (by simp)
  | acquired hr' => exact absurd (hr.symm.trans hr') (by simp)
  | rejected => exact ⟨rfl, by simp [finish, Reply.of, invalidFrame, Result.isError]⟩
  | replied hn hv => exact absurd hv hvalid
  | core hn hv => exact absurd hv hvalid
  | goOn hn hv => exact absurd hv hvalid
  | asked hpc => rcases hpc with rfl | ⟨t, rfl⟩ <;> cases hlate
  | native hreply => exact ⟨rfl, by simpa [finish] using hreply hr⟩
  | @addConsumer c =>
      refine ⟨rfl, ?_⟩
      cases c <;> simp [finish, Reply.of, GpuFrameCore.addConsumer, hr, Result.isError]
  | settle hrec =>
      obtain ⟨hpc, hreply⟩ := proceed_late { a with core := _ } (hrec.late hlate)
      exact ⟨hpc, by simp [hreply]⟩
  | recycle hrec hr' => exact absurd (hr.symm.trans (hrec.recycled.symm.trans hr')) (by simp)
  | callback =>
      obtain ⟨hpc, hreply⟩ := proceed_late _ hlate
      exact ⟨hpc, by simp [Gpu.callback, hreply]⟩
  | @dropCore reply =>
      cases reply with
      | none => exact ⟨rfl, by simp⟩
      | some reply => cases hlate
  | @dropRecycled reply =>
      cases reply with
      | none => exact ⟨rfl, by simp [proceed, finish]⟩
      | some reply => cases hlate
  | @destroyWait completion rest reply =>
      cases reply with
      | none => exact ⟨rfl, by simp⟩
      | some reply => cases hlate
  | wrapped | wrappedImport | wrapThrows | accept | addReference => cases hlate
  | _ => exact ⟨rfl, by simp [finish]⟩

/-- A thread that begins its calls behind the recycling gets nothing but errors. -/
theorem late_calls {ls' : List (FrameLabel C ι)} {i : ι} (hr : s.shared.core.recycled = true)
    (hborn : s.shared.life ≠ .unborn) (hidle : (s.client i).pc = .idle) (h : Run Step s ls' t) :
    t.shared.core.recycled = true ∧ ∃ later, (t.client i).replies = (s.client i).replies ++ later ∧
      ∀ r ∈ later, r.status.result.isError = true := by
  suffices hall : t.shared.core.recycled = true ∧ t.shared.life ≠ .unborn ∧ (t.client i).pc.late = true ∧
      ∃ later, (t.client i).replies = (s.client i).replies ++ later ∧
        ∀ r ∈ later, r.status.result.isError = true from ⟨hall.1, hall.2.2.2⟩
  induction h with
  | nil => exact ⟨hr, hborn, by rw [hidle]; rfl, [], by simp, by simp⟩
  | @snoc ls' u l t hrun hst ih =>
      obtain ⟨hr, hborn, hlate, later, hret, herrors⟩ := ih
      cases l with
      | worker e =>
          obtain ⟨c, state, rfl, hshared, hclient⟩ := Step.driver_inv hst
          rw [hshared, hclient]
          exact ⟨hr, hborn, hlate, later, hret, herrors⟩
      | client j e =>
          obtain ⟨o, hmove, hshared, hclient⟩ := Step.client_move hst
          rw [hshared, hclient]
          refine ⟨hmove.recycled_mono hr hborn, fun hl => hborn (hmove.unborn hl), ?_⟩
          by_cases hj : i = j
          · subst hj
            obtain ⟨hlate', herrors'⟩ := hmove.late hr hlate
            simp only [Function.update_self, Client.after]
            refine ⟨hlate', later ++ o.reply.toList, by rw [hret, List.append_assoc], fun r hmem => ?_⟩
            rcases List.mem_append.mp hmem with hmem | hmem
            · exact herrors r hmem
            · exact herrors' r (by simpa using hmem)
          · rw [Function.update_of_ne hj]
            exact ⟨hlate, later, hret, herrors⟩
      | wakeWorker => rw [hst.wakeWorker_inv]; exact ⟨hr, hborn, hlate, later, hret, herrors⟩
      | wake j => rw [hst.wake_inv]; exact ⟨hr, hborn, hlate, later, hret, herrors⟩

end

end MkvCodec.Gpu
