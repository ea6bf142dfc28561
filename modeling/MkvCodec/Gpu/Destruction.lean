import MkvCodec.Gpu.Recycling

/-!
# The destructor runs last

The core of a GPU frame dies when nobody holds it and no call but the last is in progress; behind that nothing can
be called any more.
-/

namespace MkvCodec.Gpu

open Concurrency

variable {C : Type*}

/-! ## Calls in progress -/

def Pc.busy : Pc C → Nat
  | .idle => 0
  | _ => 1

theorem proceed_busy (a : Frame C) (next : Next) (h : 1 ≤ a.calls) :
    (proceed a next).shared.calls + 1 = a.calls + (proceed a next).pc.busy := by
  cases next with
  | finish handle reply => simp [proceed, Pc.busy, Nat.sub_add_cancel h]
  | delete handle => rfl
  | rethrow who what =>
      rcases rethrow_cases a who what with ⟨heq, -⟩ | heq
      · rw [proceed, heq]; rfl
      · simp [proceed, heq, Pc.busy, Nat.sub_add_cancel h]
  | destroyed reply => cases reply <;> simp [proceed, Pc.busy, Nat.sub_add_cancel h]

theorem Recycles.busy {a : Frame C} {pc : Pc C} {core : GpuFrameCore C} {next : Next}
    (h : Recycles a pc core next) : pc.busy = 1 := by
  cases h <;> rfl

theorem Move.busy {a : Frame C} {pc : Pc C} {e : Choice C} {o : Section C} (h : Move a pc e o) (hbusy : pc.busy ≤ a.calls) :
    o.shared.calls + pc.busy = a.calls + o.pc.busy := by
  cases h with
  | library hpc => rcases hpc with rfl | rfl | ⟨c, rfl⟩ | rfl <;> rfl
  | goOn hn hvalid hpc => rcases hpc with rfl | rfl | ⟨t, rfl⟩ | rfl <;> rfl
  | asked hpc => rcases hpc with rfl | ⟨t, rfl⟩ <;> rfl
  | acquireThrows => exact proceed_busy a (.rethrow _ _) hbusy
  | settle hrec =>
      rw [hrec.busy] at hbusy ⊢
      exact proceed_busy { a with core := _ } _ hbusy
  | recycle hrec => rw [hrec.busy]; rfl
  | callback => exact proceed_busy { a with recycles := _, releases := _ } _ hbusy
  | dropRecycled => exact proceed_busy { a with life := .dying } _ hbusy
  | use | release | releaseBare | drop | destroy | imported | acquired | wrappedImport | wrapThrows => rfl
  | dropLast | dropCore | destroyWait => rfl
  | _ =>
      simp only [Gpu.accept, finish_shared, leave_calls, finish_pc]
      exact Nat.sub_add_cancel hbusy

/-! ## The call that destroys the core -/

def Next.destroys : Next → Prop
  | .destroyed _ => True
  | _ => False

def Pc.destroys : Pc C → Prop
  | .poll next | .releaseExternal next | .callback _ next => next.destroys
  | .destroyWait _ _ => True
  | _ => False

theorem Pc.destroys.busy {pc : Pc C} (h : pc.destroys) : pc.busy = 1 := by
  cases pc <;> first | rfl | exact h.elim

theorem Recycles.destroys {a : Frame C} {pc : Pc C} {core : GpuFrameCore C} {next : Next}
    (h : Recycles a pc core next) : pc.destroys ↔ next.destroys := by
  cases h <;> exact Iff.rfl

@[simp] theorem leave_unheld (a : Frame C) (handle : Option Nat) : (a.leave handle).unheld = a.unheld := by
  cases handle with
  | none => rfl
  | some n =>
      have hall : (a.handles.modify n .unuse).all GpuFrameHandle.deleted = a.handles.all GpuFrameHandle.deleted := by
        induction a.handles generalizing n with
        | nil => cases n <;> rfl
        | cons h handles ih =>
            cases n with
            | zero => rfl
            | succ n => simp only [List.modify_succ_cons, List.all_cons, ih]
      simp only [Frame.leave, Frame.modify, Frame.unheld, hall]
      rfl

/-- How a section changes the life of the core. -/
inductive Fate (a : Frame C) (pc : Pc C) (o : Section C) : Prop
  | same (hlife : o.shared.life = a.life) (hpc : ¬ pc.destroys) (hpc' : ¬ o.pc.destroys)
  | dies (hlife : o.shared.life = a.life) (hpc : pc.destroys) (hpc' : o.pc.destroys)
      (hunheld : o.shared.unheld = a.unheld) (hcalls : o.shared.calls = a.calls)
  | born (hold : a.life = .unborn) (hlife : o.shared.life = .alive) (hpc' : ¬ o.pc.destroys)
  | dropped (hpc : ¬ pc.destroys) (hbusy : pc.busy = 1) (hone : a.calls = 1) (hunheld : o.shared.unheld = true)
      (h : o.shared.life = .dying ∧ o.pc.destroys ∧ o.shared.calls = 1 ∨
        o.shared.life = .destroyed ∧ o.pc = .idle ∧ o.shared.calls = 0)
  | ends (hpc : pc.destroys) (hlife : o.shared.life = .destroyed) (hpc' : o.pc = .idle)
      (hunheld : o.shared.unheld = a.unheld) (hcalls : o.shared.calls = a.calls - 1)

theorem proceed_fate {a b : Frame C} {pc : Pc C} {next : Next} (hpc : pc.destroys ↔ next.destroys)
    (hlife : b.life = a.life) (hunheld : b.unheld = a.unheld) (hcalls : b.calls = a.calls) :
    Fate a pc (proceed b next) := by
  cases next with
  | finish handle reply => exact .same ((leave_life b handle).trans hlife) (mt hpc.mp id) id
  | delete handle => exact .same hlife (mt hpc.mp id) id
  | rethrow who what =>
      cases who with
      | importer => exact .same hlife (mt hpc.mp id) id
      | _ => exact .same hlife (mt hpc.mp id) id
  | destroyed reply =>
      cases reply with
      | none => exact .ends (hpc.mpr trivial) rfl rfl hunheld (congrArg (· - 1) hcalls)
      | some reply => exact .ends (hpc.mpr trivial) rfl rfl hunheld (congrArg (· - 1) hcalls)

theorem Move.fate {a : Frame C} {pc : Pc C} {e : Choice C} {o : Section C} (h : Move a pc e o) : Fate a pc o := by
  cases h with
  | library hpc => rcases hpc with rfl | rfl | ⟨c, rfl⟩ | rfl <;> exact .same rfl id id
  | goOn hn hvalid hpc => rcases hpc with rfl | rfl | ⟨t, rfl⟩ | rfl <;> exact .same rfl id id
  | asked hpc => rcases hpc with rfl | ⟨t, rfl⟩ <;> exact .same rfl id id
  | imported hcore hl => exact .born hl rfl id
  | @acquireThrows who =>
      have hfate : Fate a (.acquire who) (proceed a (.rethrow who (some GpuFrameCore.recycledError))) :=
        proceed_fate Iff.rfl rfl rfl rfl
      exact hfate
  | settle hrec => exact proceed_fate hrec.destroys rfl rfl rfl
  | @recycle pc core next hrec =>
      by_cases hnext : next.destroys
      · exact .dies rfl (hrec.destroys.mpr hnext) hnext rfl rfl
      · exact .same rfl (mt hrec.destroys.mp hnext) hnext
  | callback => exact proceed_fate Iff.rfl rfl rfl rfl
  | dropCore hone hunheld => exact .dropped id rfl hone hunheld (.inl ⟨rfl, trivial, hone⟩)
  | @dropRecycled reply hone hunheld =>
      have hzero : a.calls - 1 = 0 := by rw [hone]
      cases reply with
      | none => exact .dropped id rfl hone hunheld (.inr ⟨rfl, rfl, hzero⟩)
      | some reply => exact .dropped id rfl hone hunheld (.inr ⟨rfl, rfl, hzero⟩)
  | destroyWait => exact .dies rfl trivial trivial rfl rfl
  | rejected | replied | native => exact .same (leave_life ..) id id
  | core => exact .same (leave_life { a with holders := a.holders + 1 } _) id id
  | _ => exact .same rfl id id

/-- Nothing begins on a core that nobody holds. -/
theorem Move.not_idle {a : Frame C} {pc : Pc C} {e : Choice C} {o : Section C} (h : Move a pc e o)
    (hunheld : a.unheld = true) (hlife : a.life ≠ .alive) : pc ≠ .idle := by
  simp only [Frame.unheld, Bool.and_eq_true, decide_eq_true_eq, List.all_eq_true] at hunheld
  obtain ⟨⟨hholders, hbare⟩, hdeleted⟩ := hunheld
  cases h with
  | use hn hlive =>
      have := hdeleted _ (List.mem_of_getElem? hn)
      rw [hlive] at this
      cases this
  | release hn hlive =>
      have := hdeleted _ (List.mem_of_getElem? hn)
      rw [hlive] at this
      cases this
  | library _ hheld => exact absurd hheld (by simp [hholders])
  | releaseBare hb => exact absurd hb (by simp [hbare])
  | drop hheld => exact absurd hheld (by simp [hholders])
  | destroy hl => exact absurd hl hlife
  | settle hrec => cases hrec <;> exact nofun
  | recycle hrec => cases hrec <;> exact nofun
  | asked hpc => rcases hpc with rfl | ⟨t, rfl⟩ <;> exact nofun
  | _ => exact nofun

section

variable {ι : Type*}

/-- A core whose destructor has begun. -/
structure Dead (a : Frame C) (ks : ι → Client C) : Prop where
  unheld : a.unheld = true
  calls : a.calls + (if a.life = .destroyed then 1 else 0) = 1
  idle : ∀ i, (ks i).pc = .idle ∨ (ks i).pc.destroys

/-- The calls in progress are counted, and only the destructor runs on a core that dies. -/
structure Mortal [Fintype ι] (a : Frame C) (ks : ι → Client C) : Prop where
  calls : a.calls = ∑ i, (ks i).pc.busy
  destroying : ∀ i, (ks i).pc.destroys → a.life = .dying
  dead : a.life = .dying ∨ a.life = .destroyed → Dead a ks

theorem Pc.idle_of_busy {pc : Pc C} (h : pc.busy = 0) : pc = .idle := by
  cases pc <;> first | rfl | cases h

/-- Two calls in progress are two calls. -/
theorem idle_of_one_call [Fintype ι] [DecidableEq ι] {ks : ι → Client C} (hone : ∑ i, (ks i).pc.busy = 1) {i j : ι}
    (hbusy : (ks i).pc.busy = 1) (hj : j ≠ i) : (ks j).pc = .idle := by
  have hsum := Finset.add_sum_erase Finset.univ (fun i => (ks i).pc.busy) (Finset.mem_univ i)
  have hle : (ks j).pc.busy ≤ ∑ k ∈ Finset.univ.erase i, (ks k).pc.busy :=
    Finset.single_le_sum (f := fun k => (ks k).pc.busy) (fun _ _ => Nat.zero_le _)
      (Finset.mem_erase.mpr ⟨hj, Finset.mem_univ j⟩)
  exact Pc.idle_of_busy (by omega)

variable [DecidableEq ι] [Fintype ι]

theorem Mortal.move {a : Frame C} {ks : ι → Client C} {i : ι} {e : Choice C} {o : Section C} (hm : Mortal a ks)
    (h : Move a (ks i).pc e o) : Mortal o.shared (Function.update ks i ((ks i).after o)) := by
  have hself : (Function.update ks i ((ks i).after o) i).pc = o.pc := by rw [Function.update_self]; rfl
  have hother {j : ι} (hj : j ≠ i) : (Function.update ks i ((ks i).after o) j).pc = (ks j).pc := by
    rw [Function.update_of_ne hj]
  have hbusy : (ks i).pc.busy ≤ a.calls := hm.calls ▸ le_sum_pc Pc.busy ks i
  have hcalls := frame_balance hm.calls (h.busy hbusy)
  have hidle (hdead : Dead a ks) (hlife : a.life ≠ .alive) : (ks i).pc.destroys :=
    (hdead.idle i).resolve_left (h.not_idle hdead.unheld hlife)
  have halone (hone : a.calls = 1) (hb : (ks i).pc.busy = 1) {j : ι} (hj : j ≠ i) : (ks j).pc = .idle :=
    idle_of_one_call (hm.calls ▸ hone) hb hj
  cases h.fate with
  | same hlife hpc hpc' =>
      refine ⟨hcalls, fun j hj => ?_, fun hl => ?_⟩
      · by_cases hji : j = i
        · subst hji
          exact absurd (hself ▸ hj) hpc'
        · exact hlife.trans (hm.destroying j (hother hji ▸ hj))
      · rw [hlife] at hl
        refine absurd (hidle (hm.dead hl) ?_) hpc
        rcases hl with hl | hl <;> simp [hl]
  | dies hlife hpc hpc' hunheld hcalls' =>
      have hdying := hm.destroying i hpc
      obtain ⟨hu, hc, hi⟩ := hm.dead (.inl hdying)
      refine ⟨hcalls, fun _ _ => hlife.trans hdying, fun _ => ⟨hunheld.trans hu, by rw [hcalls', hlife]; exact hc, ?_⟩⟩
      intro j
      by_cases hji : j = i
      · subst hji
        exact .inr (hself ▸ hpc')
      · rw [hother hji]
        exact hi j
  | born hold hlife hpc' =>
      refine ⟨hcalls, fun j hj => ?_, fun hl => ?_⟩
      · by_cases hji : j = i
        · subst hji
          exact absurd (hself ▸ hj) hpc'
        · have := hm.destroying j (hother hji ▸ hj)
          rw [hold] at this
          cases this
      · rw [hlife] at hl
        rcases hl with hl | hl <;> cases hl
  | dropped hpc hb hone hunheld h =>
      rcases h with ⟨hlife, hpc', hc⟩ | ⟨hlife, hpc', hc⟩
      · refine ⟨hcalls, fun _ _ => hlife, fun _ => ⟨hunheld, by rw [hc, hlife]; rfl, fun j => ?_⟩⟩
        by_cases hji : j = i
        · subst hji
          exact .inr (hself ▸ hpc')
        · exact .inl ((hother hji).trans (halone hone hb hji))
      · have hall (j : ι) : (Function.update ks i ((ks i).after o) j).pc = .idle := by
          by_cases hji : j = i
          · subst hji
            exact hself.trans hpc'
          · exact (hother hji).trans (halone hone hb hji)
        refine ⟨hcalls, fun j hj => ?_, fun _ => ⟨hunheld, by rw [hc, hlife]; rfl, fun j => .inl (hall j)⟩⟩
        rw [hall j] at hj
        exact hj.elim
  | ends hpc hlife hpc' hunheld hcalls' =>
      have hdying := hm.destroying i hpc
      obtain ⟨hu, hc, hi⟩ := hm.dead (.inl hdying)
      have hone : a.calls = 1 := by simpa [hdying] using hc
      have hall (j : ι) : (Function.update ks i ((ks i).after o) j).pc = .idle := by
        by_cases hji : j = i
        · subst hji
          exact hself.trans hpc'
        · exact (hother hji).trans (halone hone hpc.busy hji)
      refine ⟨hcalls, fun j hj => ?_, fun _ => ⟨hunheld.trans hu, ?_, fun j => .inl (hall j)⟩⟩
      · rw [hall j] at hj
        exact hj.elim
      · rw [hcalls', hlife, hone]
        rfl

variable [DecidableEq C] {s₀ s : FrameState C ι} {ls : List (FrameLabel C ι)}

theorem frame_mortal (h : Run Step s₀ ls s) (h₀ : Fresh s₀) : Mortal s.shared s.client := by
  refine frame_invariant (P := fun _ _ => True) (I := Mortal) (h.mono fun _ _ _ hst => ⟨hst, trivial⟩) ?_ ?_ ?_
  · rcases h₀ with ⟨desc, producer, native, states, rfl⟩ | ⟨importer, config, out, desc, states, rfl⟩
    · refine ⟨by simp [FrameState.init, Pc.busy], fun i hi => hi.elim, fun hl => ?_⟩
      rcases hl with hl | hl <;> cases hl
    · have hsum := sum_update (fun k : Client C => k.pc.busy) (fun _ : ι => ⟨.idle, []⟩) importer
        ⟨.importFrame config out, []⟩
      refine ⟨?_, fun i hi => ?_, fun hl => ?_⟩
      · have hbusy : (Pc.importFrame config out).busy = 1 := rfl
        have hidle : (Pc.idle : Pc C).busy = 0 := rfl
        simp only [hbusy, hidle, Finset.sum_const_zero, Nat.zero_add, Nat.add_zero] at hsum
        exact hsum.symm
      · simp only [FrameState.importing] at hi
        by_cases hii : i = importer
        · subst hii
          rw [Function.update_self] at hi
          exact hi.elim
        · rw [Function.update_of_ne hii] at hi
          exact hi.elim
      · rcases hl with hl | hl <;> cases hl
  · intro s c state hs _
    obtain ⟨hcalls, hdestroying, hdead⟩ := hs
    exact ⟨hcalls, hdestroying, fun hl => ⟨(hdead hl).unheld, (hdead hl).calls, (hdead hl).idle⟩⟩
  · intro s i e o hs _ hmove
    exact hs.move hmove

end

end MkvCodec.Gpu
