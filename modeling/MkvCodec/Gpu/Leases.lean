import MkvCodec.Gpu.Destruction
import MkvCodec.Gpu.Lemmas.Count

/-!
# Who holds the leases of a GPU frame

As long as the 32-bit counters do not wrap, the leases of a frame are the handles that still have a reference, the
bare leases of components, and those in the hands of a call. So no handle is left when the frame is recycled.
-/

namespace MkvCodec.Gpu

open Concurrency

variable {C ι : Type*}

/-! ## The books -/

/-- The counters of the frame and of its handles against the shares of the calls in progress. -/
structure Counted [Fintype ι] (a : Frame C) (ks : ι → Client C) : Prop where
  refs : ∀ n, a.references n = a.owned n + ∑ i, (ks i).pc.refs n
  users : ∀ n, a.users n = ∑ i, (ks i).pc.uses n
  used : ∀ n, a.users n ≠ 0 → a.owned n ≠ 0
  leases : a.life = .unborn ∨ a.life = .alive →
    a.core.externalLeases = a.bare + a.live + ∑ i, (ks i).pc.leases
  deletes : ∀ i n, (ks i).pc.deletes n → n < a.handles.length ∧ a.references n = 0
  deleted : ∀ n, a.deleted n ≠ 0 → a.references n = 0

/-- No 32-bit counter wraps. -/
def Bounded (s : FrameState C ι) : FrameLabel C ι → Prop
  | .client i _ =>
      match (s.client i).pc with
      | .acquire _ => s.shared.core.externalLeases + 1 < 2 ^ 32
      | .addReference n => s.shared.references n + 1 < 2 ^ 32
      | _ => True
  | _ => True

section

variable [Fintype ι] {a : Frame C} {ks : ι → Client C} {i : ι}

theorem Counted.share (h : Counted a ks) (n : Nat) : (ks i).pc.refs n ≤ a.references n := by
  rw [h.refs n]
  exact (le_sum_pc (Pc.refs n) ks i).trans (Nat.le_add_left _ _)

theorem Counted.use (h : Counted a ks) (n : Nat) : (ks i).pc.uses n ≤ a.users n := by
  rw [h.users n]
  exact le_sum_pc (Pc.uses n) ks i

/-- A call that is about to add a reference uses the handle, which therefore has one. -/
theorem Counted.referenced (h : Counted a ks) {n : Nat} (hpc : (ks i).pc = .addReference n) : a.references n ≠ 0 := by
  have huse := h.use (i := i) n
  rw [hpc] at huse
  simp only [Pc.uses, ↓reduceIte] at huse
  have howned := h.used n (by omega)
  rw [h.refs n]
  omega

variable [DecidableEq ι]

theorem Counted.move {e : Choice C} {o : Section C} (hc : Counted a ks) (hm : Mortal a ks)
    (hunborn : a.life = .unborn → a.core.externalLeases = 0)
    (hacquire : ∀ who, (ks i).pc = .acquire who → a.core.externalLeases + 1 < 2 ^ 32)
    (hadd : ∀ n, (ks i).pc = .addReference n → a.references n + 1 < 2 ^ 32)
    (h : Move a (ks i).pc e o) : Counted o.shared (Function.update ks i ((ks i).after o)) := by
  have hshare (n : Nat) : (ks i).pc.refs n ≤ a.references n := hc.share n
  have hreferenced (n : Nat) (hpc : (ks i).pc = .addReference n) : a.references n ≠ 0 := hc.referenced hpc
  have hadd' (n : Nat) (hpc : (ks i).pc = .addReference n) : a.references n ≠ 0 ∧ a.references n + 1 < 2 ^ 32 :=
    ⟨hreferenced n hpc, hadd n hpc⟩
  refine ⟨fun n => ?_, fun n => ?_, fun n => ?_, fun hlife => ?_, fun j n hj => ?_, fun n => ?_⟩
  · have hsum := sum_update (fun k => k.pc.refs n) ks i ((ks i).after o)
    have hrefs := h.refs (n := n) hshare hadd'
    have hold := hc.refs n
    simp only [Client.after] at hsum ⊢
    omega
  · exact frame_balance (q := fun a => a.users n) (f := Pc.uses n) (hc.users n) (h.uses (hc.use n))
  · exact h.used (hc.used n) hshare hreferenced
  · have hold : a.life = .unborn ∨ a.life = .alive := by
      cases h.fate with
      | same hl => exact hl ▸ hlife
      | dies hl => exact hl ▸ hlife
      | born hu => exact .inl hu
      | dropped _ _ _ _ h => rcases h with ⟨hl, -⟩ | ⟨hl, -⟩ <;> simp [hl] at hlife
      | ends _ hl => simp [hl] at hlife
    have hlease : (ks i).pc.leases ≤ a.core.externalLeases := by
      rw [hc.leases hold]
      exact (le_sum_pc Pc.leases ks i).trans (Nat.le_add_left _ _)
    have hdestroys (rest : List (Completion C)) (reply : Option Reply)
        (hpc : (ks i).pc = .destroyWait rest reply) : a.life = .dying :=
      hm.destroying i (by rw [hpc]; trivial)
    have hleases := h.leases hlife hunborn hdestroys hacquire hlease hshare hadd'
    have hsum := sum_update (fun k => k.pc.leases) ks i ((ks i).after o)
    have hbefore := hc.leases hold
    simp only [Client.after] at hsum ⊢
    omega
  · have hold (hdel : ∃ j, (ks j).pc.deletes n) : n < o.shared.handles.length ∧ o.shared.references n = 0 := by
      obtain ⟨j, hj⟩ := hdel
      obtain ⟨hlt, hzero⟩ := hc.deletes j n hj
      exact h.unreferenced hlt hzero hshare hreferenced
    by_cases hji : j = i
    · subst hji
      rw [Function.update_self] at hj
      rcases h.deletes hj with hdel | hdone
      · exact hold ⟨j, hdel⟩
      · exact hdone
    · rw [Function.update_of_ne hji] at hj
      exact hold ⟨j, hj⟩
  · exact h.deleted (hc.deleted n) (fun m => hc.deletes i m) hshare hreferenced

variable [DecidableEq C] {s₀ s : FrameState C ι} {ls : List (FrameLabel C ι)}

theorem frame_counted (h : Run (Restrict Step Bounded) s₀ ls s) (h₀ : Fresh s₀) : Counted s.shared s.client := by
  induction h with
  | nil =>
      rcases h₀ with ⟨desc, producer, native, states, rfl⟩ | ⟨importer, config, out, desc, states, rfl⟩
      · exact ⟨by simp [FrameState.init, Frame.at, Pc.refs], by simp [FrameState.init, Frame.at, Pc.uses],
          by simp [FrameState.init, Frame.at], by simp [FrameState.init, GpuFrameCore.new, Frame.live, Pc.leases],
          fun _ _ hj => hj.elim, by simp [FrameState.init, Frame.at]⟩
      · have hpc (i : ι) : ((FrameState.importing importer config out desc states).client i).pc =
            .importFrame config out ∨ ((FrameState.importing importer config out desc states).client i).pc = .idle := by
          by_cases hi : i = importer
          · subst hi
            exact .inl (by simp [FrameState.importing])
          · exact .inr (by simp [FrameState.importing, hi])
        refine ⟨fun n => ?_, fun n => ?_, by simp [FrameState.importing, Frame.at], fun _ => ?_, fun i n hi => ?_,
          by simp [FrameState.importing, Frame.at]⟩
        · have hzero (i : ι) :
              ((FrameState.importing importer config out desc states).client i).pc.refs n = 0 := by
            rcases hpc i with h | h <;> rw [h] <;> rfl
          simp only [hzero, Finset.sum_const_zero]
          rfl
        · have hzero (i : ι) :
              ((FrameState.importing importer config out desc states).client i).pc.uses n = 0 := by
            rcases hpc i with h | h <;> rw [h] <;> rfl
          simp only [hzero, Finset.sum_const_zero]
          rfl
        · have hzero (i : ι) :
              ((FrameState.importing importer config out desc states).client i).pc.leases = 0 := by
            rcases hpc i with h | h <;> rw [h] <;> rfl
          simp only [hzero, Finset.sum_const_zero]
          rfl
        · rcases hpc i with h | h <;> rw [h] at hi <;> exact hi.elim
  | @snoc ls s l t hrun hst ih =>
      obtain ⟨hst, hbounded⟩ := hst
      have hrun' := hrun.of_restrict
      cases l with
      | worker e =>
          obtain ⟨c, state, rfl, hshared, hclient⟩ := Step.driver_inv hst
          rw [hshared, hclient]
          obtain ⟨hrefs, husers, hused, hleases, hdeletes, hdeleted⟩ := ih
          exact ⟨hrefs, husers, hused, hleases, hdeletes, hdeleted⟩
      | client i e =>
          obtain ⟨o, hmove, hshared, hclient⟩ := Step.client_move hst
          rw [hshared, hclient]
          refine ih.move (frame_mortal hrun' h₀) (fun hl => (frame_unborn hrun' h₀ hl).leases)
            (fun who hpc => ?_) (fun n hpc => ?_) hmove
          · simpa only [Bounded, hpc] using hbounded
          · simpa only [Bounded, hpc] using hbounded
      | wakeWorker => rw [hst.wakeWorker_inv]; exact ih
      | wake i => rw [hst.wake_inv]; exact ih

/-- Nobody has a reference to a handle of a recycled frame. -/
theorem no_handles (h : Run (Restrict Step Bounded) s₀ ls s) (h₀ : Fresh s₀) (hr : s.shared.core.recycled = true) :
    ∀ handle ∈ s.shared.handles, handle.owned = 0 := by
  intro handle hmem
  obtain ⟨n, hn⟩ := List.getElem?_of_mem hmem
  have hc := frame_counted h h₀
  have hzero : s.shared.references n = 0 := by
    by_cases hlife : s.shared.life = .unborn ∨ s.shared.life = .alive
    · have hleases := hc.leases hlife
      rw [frame_no_leases h.of_restrict h₀ hr] at hleases
      have hlive : s.shared.live = 0 := by omega
      have := List.countP_eq_zero.mp hlive handle hmem
      rw [Frame.references, at_eq hn]
      simpa using this
    · have hdead : s.shared.life = .dying ∨ s.shared.life = .destroyed := by
        cases hl : s.shared.life <;> simp [hl] at hlife ⊢
      have hunheld := ((frame_mortal h.of_restrict h₀).dead hdead).unheld
      simp only [Frame.unheld, Bool.and_eq_true, List.all_eq_true] at hunheld
      refine hc.deleted n ?_
      rw [Frame.deleted, at_eq hn, hunheld.2 handle hmem]
      exact Nat.one_ne_zero
  have := hc.refs n
  rw [hzero, Frame.owned, at_eq hn] at this
  omega

/-- The recycle callback runs at most once, on a frame without leases whose completions are not pending, and every
call that begins behind it gets an error. As long as no 32-bit counter wraps, nobody has a reference to a handle
then. -/
theorem lease_safety (h : Run (Restrict Step Sticky) s₀ ls s) (h₀ : Fresh s₀) :
    s.shared.recycles.length ≤ 1 ∧
      (∀ i generation next, (s.client i).pc = .callback generation next →
        s.shared.core.externalLeases = 0 ∧ s.shared.core.Terminal s.shared.states ∧
          (Run (Restrict Step Bounded) s₀ ls s → ∀ handle ∈ s.shared.handles, handle.owned = 0)) ∧
      (s.shared.recycles ≠ [] → ∀ i, (s.client i).pc = .idle → ∀ ls' t, Run Step s ls' t →
        ∃ later, (t.client i).replies = (s.client i).replies ++ later ∧
          ∀ r ∈ later, r.status.result.isError = true) := by
  have hrun := h.of_restrict
  have hdue := frame_due hrun h₀
  have hle : s.shared.core.recycled.toNat ≤ 1 := Bool.toNat_le _
  refine ⟨by omega, fun i generation next hpc => ?_, fun hrec i hidle ls' t hrun' => ?_⟩
  · have hone : (s.client i).pc.due = 1 := by rw [hpc]; rfl
    have hsum := le_sum_pc Pc.due s.client i
    have hr : s.shared.core.recycled = true := by
      rw [← Bool.toNat_eq_one]
      omega
    exact ⟨frame_no_leases hrun h₀ hr, frame_terminal h h₀ hr, fun hb => no_handles hb h₀ hr⟩
  · have hlen : s.shared.recycles.length ≠ 0 := mt List.eq_nil_of_length_eq_zero hrec
    have hr : s.shared.core.recycled = true := by
      rw [← Bool.toNat_eq_one]
      omega
    have hborn : s.shared.life ≠ .unborn := by
      intro hl
      have := (frame_unborn hrun h₀ hl).recycled
      rw [hr] at this
      cases this
    exact (late_calls hr hborn hidle hrun').2

end

/-! ## One handle -/

def smallDesc : GpuFrameDesc :=
  ⟨136, 1, .nvidia, .cudaPointer, 0, 7, .nv12, 2, 2, 2, fun plane => if plane = 1 then 4 else 0, fun _ => 2, 0, 0, 0, 0,
    0⟩

/-- A frame whose producer is done, in the hands of one thread. -/
def FrameState.small : FrameState Empty Unit := .init Unit smallDesc (some .completed) none (fun c => c.elim)

/-- A handle is made and released. -/
def lastRelease : List (FrameLabel Empty Unit) :=
  [.client () (.call .makeHandle), .client () .run, .client () .run, .client () (.call (.release 0)),
    .client () .run, .client () .run]

def behindRelease : List (FrameLabel Empty Unit) := lastRelease ++ [.client () .run, .client () .run]

theorem lease_safety_small :
    (∃ (s : FrameState Empty Unit) (generation : Nat) (next : Next),
        Run (Restrict Step Sticky) .small lastRelease s ∧ (s.client ()).pc = .callback generation next ∧
        s.shared.core.externalLeases = 0 ∧ ∀ handle ∈ s.shared.handles, handle.owned = 0) ∧
      ∃ s t : FrameState Empty Unit, Run (Restrict Step Sticky) .small behindRelease s ∧
        s.shared.recycles = [7] ∧ Run Step s [.client () (.call .makeHandle), .client () .run] t ∧
        (s.client ()).replies.length = 1 ∧ (t.client ()).replies.length = 2 ∧
        ∃ later, (t.client ()).replies = (s.client ()).replies ++ later ∧
          ∀ r ∈ later, r.status.result.isError = true := by
  have h₀ : Fresh FrameState.small := .inl ⟨_, _, _, _, rfl⟩
  constructor
  · have h : Run (Restrict Step Sticky) .small lastRelease _ :=
      Program.restrict_of_along rfl ⟨trivial, trivial, trivial, trivial, trivial, trivial, trivial⟩
    have hb : Run (Restrict Step Bounded) .small lastRelease _ :=
      Program.restrict_of_along rfl ⟨trivial, (by decide : 0 + 1 < 2 ^ 32), trivial, trivial, trivial, trivial, trivial⟩
    obtain ⟨hleases, -, howned⟩ := (lease_safety h h₀).2.1 () 7 (.delete 0) rfl
    exact ⟨_, _, _, h, rfl, hleases, howned hb⟩
  · have h : Run (Restrict Step Sticky) .small behindRelease _ :=
      Program.restrict_of_along rfl
        ⟨trivial, trivial, trivial, trivial, trivial, trivial, trivial, trivial, trivial⟩
    obtain ⟨later, hreplies, herrors⟩ := (lease_safety h h₀).2.2 (by decide) () rfl
      [.client () (.call .makeHandle), .client () .run] _ (Program.run_of_exec rfl)
    exact ⟨_, _, h, rfl, Program.run_of_exec rfl, rfl, rfl, later, hreplies, herrors⟩

/-! ## 2 ^ 32 leases -/

/-- The thread runs a section, and nobody else sleeps. -/
theorem small_step {s : FrameState Empty Unit} {e : Choice Empty} {o : Section Empty} (hs : s.sleep () = none)
    (ho : clientSection e s.shared (s.client ()).pc = some o) :
    ∃ t : FrameState Empty Unit, Step s (.client () e) t ∧ t.sleep () = none ∧ t.shared = o.shared ∧
      (t.client ()).pc = o.pc := by
  have hact : program.client e s.shared (s.client ()) =
      some ⟨o.shared, (s.client ()).after o, [], none⟩ := by
    simp only [program, clientAct, ho, Option.map_some, Client.after]
  refine ⟨_, by simp [Step, Program.Step, Program.step, hs, hact]; rfl, ?_, rfl, ?_⟩
  · simp
  · simp [Client.after]

/-- A frame with one handle and `k` leases of components. -/
def leased (k : Nat) : Frame Empty :=
  { core :=
      { desc := smallDesc, producer := some .completed, native := none, externalLeases := (1 + k) % 2 ^ 32
        consumers := [], recycled := false }
    states := fun c => c.elim, handles := [⟨1, 7, 1, 0, false⟩], bare := k, holders := 1, calls := 0, life := .alive
    recycles := [], imported := none, accepted := false, releases := 0 }

theorem leased_run (k : Nat) : ∃ (s : FrameState Empty Unit) (ls : List (FrameLabel Empty Unit)),
    Run (Restrict Step Sticky) .small ls s ∧ s.sleep () = none ∧ s.shared = leased k ∧ (s.client ()).pc = .idle := by
  induction k with
  | zero =>
      exact ⟨_, [.client () (.call .makeHandle), .client () .run, .client () .run],
        Program.restrict_of_along rfl ⟨trivial, trivial, trivial, trivial⟩, rfl, rfl, rfl⟩
  | succ k ih =>
      obtain ⟨s, ls, hrun, hsleep, hshared, hidle⟩ := ih
      obtain ⟨t, hst, hsleep', hshared', hpc⟩ := small_step (e := .call .acquireExternal) hsleep
        (o := ⟨(leased k).enter, .acquire .component, none⟩) (by rw [hshared, hidle]; rfl)
      obtain ⟨u, hst', hsleep'', hshared'', hpc'⟩ := small_step (e := .run) hsleep'
        (o := acquire (leased k).enter .component) (by rw [hshared', hpc]; rfl)
      refine ⟨u, _, .snoc (.snoc hrun ⟨hst, trivial⟩) ⟨hst', trivial⟩, hsleep'', hshared''.trans ?_, hpc'⟩
      simp [acquire, GpuFrameCore.acquireExternal, leased, Frame.enter, finish, Frame.leave, u32, Nat.add_assoc]

/-- Behind 2 ^ 32 leases the frame counts none: a poll recycles it under a handle that the application has. -/
theorem recycled_under_handle : ∃ (s : FrameState Empty Unit) (ls : List (FrameLabel Empty Unit)) (generation : Nat)
    (next : Next), Run (Restrict Step Sticky) .small ls s ∧ (s.client ()).pc = .callback generation next ∧
      ∃ handle ∈ s.shared.handles, handle.deleted = false ∧ handle.owned = 1 := by
  obtain ⟨k, hk⟩ : ∃ k, (1 + k) % 2 ^ 32 = 0 := ⟨2 ^ 32 - 1, by decide⟩
  obtain ⟨s, ls, hrun, hsleep, hshared, hidle⟩ := leased_run k
  obtain ⟨t, hst, hsleep', hshared', hpc⟩ := small_step (e := .call .pollRecycle) hsleep
    (o := ⟨(leased k).enter, .poll (.finish none none), none⟩) (by rw [hshared, hidle]; rfl)
  obtain ⟨u, hst', -, hshared'', hpc'⟩ := small_step (e := .run) hsleep'
    (o := recycleThen (leased k).enter (.finish none none)
      ((leased k).core.maybeRecycle (leased k).states)) (by rw [hshared', hpc]; rfl)
  have hterminal : (leased k).core.Terminal (leased k).states := GpuFrameCore.completionsDone_iff.mp rfl
  rcases (leased k).core.maybeRecycle_cases (leased k).states with ⟨-, hr | hleases | hpending⟩ | ⟨hrecycle, -⟩
  · cases hr
  · exact absurd hk hleases
  · exact absurd hterminal hpending
  rw [hrecycle] at hshared'' hpc'
  refine ⟨u, _, 7, .finish none none, .snoc (.snoc hrun ⟨hst, trivial⟩) ⟨hst', trivial⟩, hpc', ?_⟩
  rw [hshared'']
  exact ⟨_, List.mem_singleton_self _, rfl, rfl⟩

end MkvCodec.Gpu
