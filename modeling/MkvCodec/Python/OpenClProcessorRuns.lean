import MkvCodec.Python.OpenClProcessorClose

/-!
# Runs of the Intel OpenCL processor

The invariant of the adapter over the steps of conversions, leases and closes, and what it says of every run. The adapter is not
as expected when a conversion acquires a slot behind the close of the pool that it has looked up, or when a close raises with
pools left.
-/

namespace MkvCodec.Python

open Concurrency

variable {ι : Type*} [DecidableEq ι]

namespace OpenClAdapter

variable {s s' : OpenClAdapter ι} {i : ι} {pc : AdapterPc} {p index k : Nat}

/-! ## The condition -/

/-- The condition on a thread that goes on. -/
def CarefulAt (s : OpenClAdapter ι) (i : ι) (raises : Bool) : AdapterPc → Prop
  | .completing _ _ => raises = false
  | .unwinding k => (s.lease k).lease.Careful (.call i (.close 0))
  | .closing (p :: _) => (s.pool p).inUse = [] ∧ ∀ j, s.threads j ≠ .acquiring p
  | .runtimeClosing _ rest => raises = true → rest = []
  | .tearing _ _ _ => raises = false
  | _ => True

/-- When a close comes to a pool, no conversion has a slot of it or has looked it up to acquire one; no other close is called
while the adapter is closed and a slot is in use; no pool is left behind a driver that raises; the close of a completion and the
teardown of a pool do not raise; and the closes of a token do not overlap. -/
def Careful (s : OpenClAdapter ι) : AdapterStep ι → Prop
  | .call _ (.convert _ _) => True
  | .call _ .close => s.closed = true → s.active = false
  | .next i raises => s.CarefulAt i raises (s.threads i)
  | .lease k l => (s.lease k).lease.Careful l

instance [Fintype ι] (s : OpenClAdapter ι) (i : ι) (raises : Bool) : (pc : AdapterPc) → Decidable (s.CarefulAt i raises pc)
  | .completing _ _ | .tearing _ _ _ => inferInstanceAs (Decidable (raises = false))
  | .unwinding k => inferInstanceAs (Decidable ((s.lease k).lease.Careful (.call i (.close 0))))
  | .closing (p :: _) => inferInstanceAs (Decidable ((s.pool p).inUse = [] ∧ ∀ j, s.threads j ≠ .acquiring p))
  | .runtimeClosing _ rest => inferInstanceAs (Decidable (raises = true → rest = []))
  | .idle _ | .acquiring _ | .submitting _ _ | .leasing _ _ | .releasing _ _ => isTrue trivial
  | .providing _ | .building _ | .checking _ _ | .closing [] => isTrue trivial

instance [Fintype ι] (s : OpenClAdapter ι) : (l : AdapterStep ι) → Decidable (s.Careful l)
  | .call _ (.convert _ _) => isTrue trivial
  | .call _ .close => inferInstanceAs (Decidable (s.closed = true → s.active = false))
  | .next i raises => inferInstanceAs (Decidable (s.CarefulAt i raises (s.threads i)))
  | .lease k l => inferInstanceAs (Decidable ((s.lease k).lease.Careful l))

/-! ## The invariant -/

/-- Whoever is to acquire a slot finds its pool open. -/
def findsOpen (pool : Nat → OutputPool) : AdapterPc → Bool
  | .acquiring p => !(pool p).closed
  | _ => true

/-- A conversion waits for a slot of a pool that is open. -/
def Waits (threads : ι → AdapterPc) (pool : Nat → OutputPool) : Prop :=
  ∀ j p, threads j = .acquiring p → (pool p).closed = false

namespace Waits

variable {threads : ι → AdapterPc} {pool : Nat → OutputPool}

theorem turn (h : Waits threads pool) (hpc : findsOpen pool pc = true) : Waits (Function.update threads i pc) pool := by
  intro j p hj
  rcases eq_or_ne j i with rfl | hne
  · rw [Function.update_self] at hj
    rw [hj] at hpc
    simpa [findsOpen] using hpc
  · rw [Function.update_of_ne hne] at hj
    exact h j p hj

omit [DecidableEq ι] in
theorem setPool (h : Waits threads pool) {new : OutputPool} (hnew : ∀ j, threads j = .acquiring p → new.closed = false) :
    Waits threads (Function.update pool p new) := by
  intro j q hj
  rcases eq_or_ne q p with rfl | hne
  · rw [Function.update_self]
    exact hnew j hj
  · rw [Function.update_of_ne hne]
    exact h j q hj

end Waits

structure Sound (s : OpenClAdapter ι) : Prop where
  kept : s.Kept
  waits : Waits s.threads s.pool
  closable : ∃ worker, s.Closable worker

namespace Sound

omit [DecidableEq ι] in
theorem new (poolSize acquireTimeoutMs : Nat) : (OpenClAdapter.new ι poolSize acquireTimeoutMs).Sound where
  kept :=
    { held := ⟨fun p a => by simp [OpenClAdapter.new, OutputPool.absent, holds, slots, AdapterPc.slot], fun k k' slot hk => by
        cases k <;> simp [OpenClAdapter.new, holds, slots, AdapterPc.slot] at hk, fun p => List.nodup_nil⟩
      range := fun p a ha => by simp [OpenClAdapter.new, OutputPool.absent] at ha
      absent := fun p _ => rfl
      leases := fun k hk => absurd hk (Nat.not_lt_zero k)
      balanced := fun p index => rfl }
  waits := nofun
  closable := ⟨none, ⟨fun j part => by simp [OpenClAdapter.new, AdapterPc.left], nofun, fun _ => rfl,
    fun p hp => absurd hp (Nat.not_lt_zero p), fun _ => rfl, fun j => by simp [OpenClAdapter.new, AdapterPc.checks],
    fun j todo checked hj => by simp [OpenClAdapter.new, AdapterPc.checks] at hj, fun j => rfl, rfl, rfl⟩⟩

theorem put (h : s.Sound) {old : AdapterPc} (hi : s.threads i = old) (hpc : findsOpen s.pool pc = true)
    (hslot : pc.slot = old.slot) (hpart : pc.closePart = old.closePart) : (s.put i pc).Sound := by
  obtain ⟨worker, hclosable⟩ := h.closable
  rw [← hi] at hslot hpart
  exact ⟨h.kept.put hslot, h.waits.turn hpc, worker, hclosable.put hpart⟩

theorem lookup (h : s.Sound) {last : AdapterOutcome} (hi : s.threads i = .idle last) (hlock : s.lock = none) (key : PoolKey)
    (constructs : Bool) : (s.lookup i key constructs).Sound := by
  unfold OpenClAdapter.lookup
  split
  · exact h.put hi rfl rfl rfl
  rename_i hopen
  rw [Bool.not_eq_true] at hopen
  obtain ⟨worker, hclosable⟩ := h.closable
  split
  · rename_i p hp
    have hfinds : findsOpen s.pool (.acquiring p) = true := by
      simpa [findsOpen] using hclosable.open_of_lookup hopen hp
    exact h.put hi hfinds rfl rfl
  split
  · have hwaits : Waits s.threads (Function.update s.pool s.poolCount (.new s.poolSize)) := h.waits.setPool fun _ _ => rfl
    refine ⟨h.kept.construct _ (by rw [hi]; rfl), hwaits.turn ?_, worker,
      hclosable.construct key (by rw [hi]; rfl) hopen hlock⟩
    simp [findsOpen, OutputPool.new]
  · exact h.put hi rfl rfl rfl

theorem acquire (h : s.Sound) (hi : s.threads i = .acquiring p) (expired : Bool) : (s.acquire i p expired).Sound := by
  unfold OpenClAdapter.acquire
  split
  · split
    · exact h.put hi rfl rfl rfl
    split
    · exact h.put hi rfl rfl rfl
    split
    · exact h.put hi rfl rfl rfl
    · exact h
  · rename_i index slots htake
    obtain ⟨worker, hclosable⟩ := h.closable
    have hfree := (FreeList.take_eq_some htake).1
    have hopen : (s.pool p).closed = false := h.waits i p hi
    have hp : p < s.poolCount := by
      by_contra hle
      rw [h.kept.absent p (Nat.le_of_not_lt hle)] at hfree
      cases hfree
    have hindex : index < s.poolSize := h.kept.range p index (by rw [hfree]; exact List.mem_cons_self)
    have hat := hclosable.pool p hp
    -- A pool that is open has its resources, so that `resources[index]` is there.
    have hresources : (s.pool p).resources = s.poolSize := by
      cases hstage : stage s.closed worker p with
      | usable =>
          rw [hstage] at hat
          exact hat.2.1
      | closing | closed =>
          rw [hstage] at hat
          have hclosed := hat.1
          rw [hopen] at hclosed
          cases hclosed
    rw [hresources, if_pos hindex, hopen, Bool.or_false]
    refine ⟨h.kept.acquire s.late htake (by rw [hi]; rfl) rfl, (h.waits.setPool ?_).turn ?_, worker,
      hclosable.go (Closable.closePart_update ?_) ?_⟩
    · exact fun _ _ => hopen
    · rfl
    · rw [hi]
      rfl
    · exact Closable.pool_update fun _ _ hp => hp.slots hopen slots

/-- The handler releases the slot of its conversion. -/
theorem release (h : s.Sound) (hi : s.threads i = .releasing p index) : ((s.release p index).raise i .raised).Sound := by
  obtain ⟨worker, hclosable⟩ := h.closable
  have hholds : s.holds (.inl i) = some (p, index) := congrArg AdapterPc.slot hi
  have hpart : (s.threads i).closePart = (none, none, false) := congrArg AdapterPc.closePart hi
  refine ⟨h.kept.release hholds (slots_thread i _) h.kept.leases, (h.waits.setPool ?_).turn ?_, worker,
    hclosable.go (Closable.closePart_update ?_) ?_⟩
  · exact fun j => h.waits j p
  · rfl
  · exact hpart.symm
  · exact Closable.pool_update fun _ _ hp => hp.release

theorem newLease (h : s.Sound) (hi : s.threads i = .leasing p index) : (s.newLease i p index).Sound := by
  unfold OpenClAdapter.newLease
  split
  · exact h.put hi rfl rfl rfl
  · rename_i lease hlease
    obtain ⟨worker, hclosable⟩ := h.closable
    obtain ⟨hsound, hcleanup, hissued⟩ := OutputLease.Sound.new.retained hlease
    refine ⟨h.kept.newLease (by rw [hi]; rfl) rfl ⟨hissued, hsound⟩ (by rw [hcleanup]; exact List.not_mem_nil),
      h.waits.turn rfl, worker, hclosable.go (Closable.closePart_update ?_) fun _ _ _ hp => hp⟩
    rw [hi]
    rfl

theorem setLease (h : s.Sound) {lease : OutputLease ι}
    (hk : k < s.leaseCount → (0 < lease.issued ∧ ∃ place cleaner, lease.Sound place cleaner) ∧
      (.releaseSlot ∈ lease.cleanup ↔ .releaseSlot ∈ (s.lease k).lease.cleanup)) : (s.setLease k lease).Sound := by
  obtain ⟨worker, hclosable⟩ := h.closable
  exact ⟨h.kept.setLease hk, h.waits, worker, hclosable.go (fun _ => rfl) fun _ _ _ hp => hp⟩

theorem provide (h : s.Sound) (hi : s.threads i = .providing k) : (s.provide i k).Sound := by
  unfold OpenClAdapter.provide
  split
  · exact h.put hi rfl rfl rfl
  · rename_i lease hlease
    have hset : (s.setLease k lease).Sound := h.setLease fun hk => by
      obtain ⟨-, place, cleaner, hsound⟩ := h.kept.leases k hk
      obtain ⟨hsound', hcleanup, hissued⟩ := hsound.retained hlease
      exact ⟨⟨hissued, hsound'⟩, by rw [hcleanup]⟩
    have hthreads : (s.setLease k lease).threads i = .providing k := hi
    exact hset.put hthreads rfl rfl rfl

theorem lease_step (h : s.Sound) (hk : k < s.leaseCount) {l : LeaseStep ι} {lease : OutputLease ι}
    (hl : (s.lease k).lease.step l = some lease) (hc : (s.lease k).lease.Careful l) :
    0 < lease.issued ∧ ∃ place cleaner, lease.Sound place cleaner := by
  obtain ⟨hissued, place, cleaner, hsound⟩ := h.kept.leases k hk
  exact ⟨Nat.lt_of_lt_of_le hissued (OutputLease.step_grows hl).issued, hsound.step hl hc⟩

theorem unwind (h : s.Sound) (hi : s.threads i = .unwinding k) (hc : (s.lease k).lease.Careful (.call i (.close 0)))
    (hst : s.unwind i k = some s') : s'.Sound := by
  obtain ⟨lease, hl, rfl⟩ := Option.map_eq_some_iff.mp hst
  have hset : (s.setLease k lease).Sound := h.setLease fun hk => by
    refine ⟨h.lease_step hk hl hc, ?_⟩
    rw [(OutputLease.step_grows hl).cleanup, OutputLease.calls, List.append_nil]
  have hthreads : (s.setLease k lease).threads i = .unwinding k := hi
  exact hset.put hthreads rfl rfl rfl

/-- A step of a lease returns the slot, or leaves everything else as it is. -/
theorem leaseStep (h : s.Sound) (hk : k < s.leaseCount) {l : LeaseStep ι} (hc : (s.lease k).lease.Careful l)
    (hst : s.leaseStep k l = some s') : s'.Sound := by
  obtain ⟨lease, hl, rfl⟩ := Option.map_eq_some_iff.mp hst
  have hlease := h.lease_step hk hl hc
  have hcleanup := (OutputLease.step_grows hl).cleanup
  split
  · rename_i hreleases
    obtain ⟨worker, hclosable⟩ := h.closable
    obtain ⟨-, place, cleaner, hsound⟩ := h.kept.leases k hk
    have hholds : s.holds (.inr k) = some ((s.lease k).pool, (s.lease k).index) := by
      simp only [holds, slots, if_pos hk, PooledLease.slot, if_neg (hsound.not_released hreleases)]
    have hslot : PooledLease.slot { s.lease k with lease := lease } = none := by
      rw [PooledLease.slot, hcleanup]
      exact if_pos (List.mem_append_right _ (OutputLease.releasesSlot_iff.mp hreleases))
    have hslots : slots s.threads s.leaseCount (Function.update s.lease k { s.lease k with lease := lease }) =
        Function.update s.holds (.inr k) none := by
      rw [slots_lease hk, hslot]
      rfl
    refine ⟨h.kept.release hholds hslots fun k' hk' => ?_, h.waits.setPool fun j => h.waits j _, worker, hclosable.go (fun _ => rfl) ?_⟩
    · dsimp only [OpenClAdapter.setPool, OpenClAdapter.setLease]
      rcases eq_or_ne k' k with rfl | hne
      · rw [Function.update_self]
        exact hlease
      · rw [Function.update_of_ne hne]
        exact h.kept.leases k' hk'
    · exact Closable.pool_update fun _ _ hp => hp.release
  · rename_i hreleases
    rw [OutputLease.releasesSlot_iff] at hreleases
    refine h.setLease fun _ => ⟨hlease, ?_⟩
    rw [hcleanup, List.mem_append, or_iff_left hreleases]

/-- A close goes on to the driver and from there to the teardown. -/
theorem runtimeClosing (h : s.Sound) {rest : List Nat} (hi : s.threads i = .runtimeClosing p rest) {raises : Bool}
    (hc : raises = true → rest = []) : (s.put i (.tearing p raises rest)).Sound := by
  refine h.put hi rfl rfl ?_
  cases raises with
  | false => rfl
  | true =>
      rw [hc rfl]
      rfl

theorem startClose (h : s.Sound) {last : AdapterOutcome} (hi : s.threads i = .idle last) (hlock : s.lock = none)
    (hactive : s.closed = true → s.active = false) : (s.startClose i).Sound := by
  obtain ⟨worker, hclosable⟩ := h.closable
  refine ⟨?_, ?_, worker, hclosable.startClose (congrArg AdapterPc.closePart hi) hlock hactive⟩
  · unfold OpenClAdapter.startClose
    split <;> exact h.kept.turn (by rw [hi]; rfl) (fun _ => rfl) h.kept.absent
  · unfold OpenClAdapter.startClose
    split <;> exact h.waits.turn rfl

theorem check (h : s.Sound) {todo checked : List Nat} (hi : s.threads i = .checking todo checked) :
    (s.check i checked todo).Sound := by
  obtain ⟨worker, hclosable⟩ := h.closable
  suffices hkept : (s.check i checked todo).Kept ∧ Waits (s.check i checked todo).threads (s.check i checked todo).pool by
    exact ⟨hkept.1, hkept.2, hclosable.check hi⟩
  cases todo with
  | nil => exact ⟨h.kept.turn (by rw [hi]; rfl) (fun _ => rfl) h.kept.absent, h.waits.turn rfl⟩
  | cons p todo =>
      simp only [OpenClAdapter.check]
      split
      · exact ⟨h.kept.turn (by rw [hi]; rfl) (fun _ => rfl) h.kept.absent, h.waits.turn rfl⟩
      · exact ⟨h.kept.put (by rw [hi]; rfl), h.waits.turn rfl⟩

theorem closePool (h : s.Sound) {pools : List Nat} (hi : s.threads i = .closing pools)
    (hc : ∀ p rest, pools = p :: rest → (s.pool p).inUse = [] ∧ ∀ j, s.threads j ≠ .acquiring p) :
    (s.closePool i pools).Sound := by
  obtain ⟨worker, hclosable⟩ := h.closable
  suffices hkept : (s.closePool i pools).Kept ∧ Waits (s.closePool i pools).threads (s.closePool i pools).pool by
    exact ⟨hkept.1, hkept.2, hclosable.closePool hi fun p rest hpools => (hc p rest hpools).1⟩
  cases pools with
  | nil => exact ⟨h.kept.turn (by rw [hi]; rfl) (fun _ => rfl) h.kept.absent, h.waits.turn rfl⟩
  | cons p rest =>
      have hworker := (hclosable.worker_of_left (congrArg AdapterPc.left hi)).1
      have hp : p < s.poolCount := (hclosable.nodup i none (p :: rest) hworker).2 p List.mem_cons_self
      have hnobody (j : ι) (hj : s.threads j = .acquiring p) : true = false := absurd hj ((hc p rest rfl).2 j)
      simp only [OpenClAdapter.closePool]
      split
      · exact ⟨h.kept.put (by rw [hi]; rfl), h.waits.turn rfl⟩
      split
      · exact ⟨h.kept.put (by rw [hi]; rfl), h.waits.turn rfl⟩
      · exact ⟨h.kept.turnPool (by rw [hi]; rfl) hp rfl, (h.waits.setPool hnobody).turn rfl⟩

theorem tear (h : s.Sound) {failed : Bool} {rest : List Nat} (hi : s.threads i = .tearing p failed rest) :
    (s.tear i p failed rest false).Sound := by
  obtain ⟨worker, hclosable⟩ := h.closable
  have hworker := (hclosable.worker_of_left (congrArg AdapterPc.left hi)).1
  have hp : p < s.poolCount := (hclosable.nodup i (some p) rest hworker).2 p List.mem_cons_self
  refine ⟨h.kept.turnPool (by rw [hi]; cases failed <;> rfl) hp rfl, (h.waits.setPool ?_).turn ?_, hclosable.tear hi⟩
  · exact fun j => h.waits j p
  · cases failed <;> rfl

theorem advance (h : s.Sound) {raises : Bool} (hc : s.CarefulAt i raises (s.threads i))
    (hst : s.advance i raises (s.threads i) = some s') : s'.Sound := by
  cases hi : s.threads i with
  | idle last =>
      rw [hi] at hst
      cases hst
  | acquiring p =>
      rw [hi] at hst
      cases hst
      exact h.acquire hi raises
  | submitting p index =>
      rw [hi] at hst
      cases hst
      refine h.put hi ?_ ?_ ?_ <;> cases raises <;> rfl
  | leasing p index =>
      rw [hi] at hst
      simp only [OpenClAdapter.advance] at hst
      split at hst <;> cases hst
      · exact h.put hi rfl rfl rfl
      · exact h.newLease hi
  | completing p index =>
      rw [hi] at hc hst
      cases hc
      cases hst
      exact h.put hi rfl rfl rfl
  | releasing p index =>
      rw [hi] at hst
      cases hst
      exact h.release hi
  | providing k =>
      rw [hi] at hst
      simp only [OpenClAdapter.advance] at hst
      split at hst <;> cases hst
      · exact h.put hi rfl rfl rfl
      · exact h.provide hi
  | building k =>
      rw [hi] at hst
      cases hst
      refine h.put hi ?_ ?_ ?_ <;> cases raises <;> rfl
  | unwinding k =>
      rw [hi] at hc hst
      exact h.unwind hi hc hst
  | checking todo checked =>
      rw [hi] at hst
      cases hst
      exact h.check hi
  | closing pools =>
      rw [hi] at hc hst
      cases hst
      refine h.closePool hi fun p rest hpools => ?_
      rw [hpools] at hc
      exact hc
  | runtimeClosing p rest =>
      rw [hi] at hc hst
      cases hst
      exact h.runtimeClosing hi hc
  | tearing p failed rest =>
      rw [hi] at hc hst
      cases hc
      cases hst
      exact h.tear hi

theorem step (h : s.Sound) {l : AdapterStep ι} (hst : s.Step l s') (hc : s.Careful l) : s'.Sound := by
  cases l with
  | call i c =>
      simp only [Step, OpenClAdapter.step] at hst
      split at hst
      · rename_i last hi hlock
        cases c with
        | convert key constructs =>
            cases hst
            exact h.lookup hi hlock key constructs
        | close =>
            cases hst
            exact h.startClose hi hlock hc
      · cases hst
  | next i raises => exact h.advance hc hst
  | lease k l =>
      simp only [Step, OpenClAdapter.step] at hst
      split at hst
      · rename_i hk
        exact h.leaseStep hk.1 hc hst
      · cases hst

omit [DecidableEq ι] in
theorem finished (h : s.Sound) (hclosed : s.closed = true) (hdone : ∀ i, (s.threads i).left = none) (hp : p < s.poolCount) :
    (s.pool p).closed = true ∧ (s.pool p).torn = 1 := by
  obtain ⟨worker, hclosable⟩ := h.closable
  have hat := hclosable.pool p hp
  cases worker with
  | none =>
      rw [hclosed] at hat
      exact ⟨hat.1, hat.2.2⟩
  | some worker =>
      have hleft := (hclosable.thread worker.1 worker.2).mpr rfl
      rw [hdone] at hleft
      cases hleft

end Sound

/-! ## A close that nothing comes between -/

theorem checks_all {todo : List Nat} {checked : List Nat} (hi : s.threads i = .checking todo checked)
    (hfree : ∀ p ∈ todo, (s.pool p).inUse = []) :
    ∃ s', Run (Restrict Step Careful) s (List.replicate (todo.length + 1) (.next i false)) s' ∧
      s'.threads i = .closing (checked ++ todo) ∧ (∀ j, j ≠ i → s'.threads j = s.threads j) ∧ s'.pool = s.pool ∧
      s'.closed = true ∧ s'.poolCount = s.poolCount := by
  induction todo generalizing s checked with
  | nil =>
      have hst : s.Step (.next i false) (s.check i checked []) := by
        simp only [Step, step, hi]
        rfl
      have hc : s.Careful (.next i false) := by
        simp only [Careful, hi]
        trivial
      refine ⟨_, Run.single ⟨hst, hc⟩, ?_, fun j hj => ?_, rfl, rfl, rfl⟩
      · simp [OpenClAdapter.check]
      · simp [OpenClAdapter.check, hj]
  | cons p todo ih =>
      have hst : s.Step (.next i false) (s.put i (.checking todo (checked ++ [p]))) := by
        simp only [Step, step, hi, advance, check, hfree p List.mem_cons_self]
        rfl
      have hc : s.Careful (.next i false) := by
        simp only [Careful, hi]
        trivial
      have hnext : (s.put i (.checking todo (checked ++ [p]))).threads i = .checking todo (checked ++ [p]) :=
        Function.update_self i _ _
      obtain ⟨s', hrun, hthread, hothers, hpool, hclosed, hcount⟩ := ih hnext fun q hq => hfree q (List.mem_cons_of_mem _ hq)
      refine ⟨s', Run.cons ⟨hst, hc⟩ hrun, ?_, fun j hj => ?_, hpool, hclosed, hcount⟩
      · rw [hthread, List.append_assoc]
        rfl
      · rw [hothers j hj]
        simp [put, hj]

omit [DecidableEq ι] in
/-- The condition, where everybody else is idle. -/
theorem careful_closing {rest : List Nat} (hi : s.threads i = .closing (p :: rest)) (hfree : (s.pool p).inUse = [])
    (hidle : ∀ j, j ≠ i → ∃ last, s.threads j = .idle last) : s.Careful (.next i false) := by
  simp only [Careful, hi]
  refine ⟨hfree, fun j hj => ?_⟩
  rcases eq_or_ne j i with rfl | hne
  · rw [hi] at hj
    cases hj
  · obtain ⟨last, hlast⟩ := hidle j hne
    rw [hlast] at hj
    cases hj

/-- The three steps of a pool that is open and whose driver does not raise. -/
theorem closes_open {rest : List Nat} (hi : s.threads i = .closing (p :: rest)) (hc : s.Careful (.next i false))
    (hopen : (s.pool p).closed = false) (hfree : (s.pool p).inUse = []) :
    Run (Restrict Step Careful) s (List.replicate 3 (.next i false))
      ((((s.setPool p { s.pool p with closed := true }).put i (.runtimeClosing p rest)).put i (.tearing p false rest)).tear i p
        false rest false) := by
  have hst : s.Step (.next i false) ((s.setPool p { s.pool p with closed := true }).put i (.runtimeClosing p rest)) := by
    simp only [Step, step, hi, advance, closePool, hopen, hfree]
    rfl
  generalize hs₁ : (s.setPool p { s.pool p with closed := true }).put i (.runtimeClosing p rest) = s₁ at hst ⊢
  have hi₁ : s₁.threads i = .runtimeClosing p rest := by
    rw [← hs₁]
    exact Function.update_self i _ _
  have hst₁ : s₁.Step (.next i false) (s₁.put i (.tearing p false rest)) := by
    simp only [Step, step, hi₁, advance]
  have hc₁ : s₁.Careful (.next i false) := by
    simp only [Careful, hi₁]
    exact fun hraises => absurd hraises Bool.false_ne_true
  generalize hs₂ : s₁.put i (.tearing p false rest) = s₂ at hst₁ ⊢
  have hi₂ : s₂.threads i = .tearing p false rest := by
    rw [← hs₂]
    exact Function.update_self i _ _
  have hst₂ : s₂.Step (.next i false) (s₂.tear i p false rest false) := by
    simp only [Step, step, hi₂, advance]
  have hc₂ : s₂.Careful (.next i false) := by
    simp only [Careful, hi₂]
    rfl
  exact .cons ⟨hst, hc⟩ (.cons ⟨hst₁, hc₁⟩ (.single ⟨hst₂, hc₂⟩))

theorem closes_pool {rest : List Nat} (hi : s.threads i = .closing (p :: rest)) (hfree : (s.pool p).inUse = [])
    (hidle : ∀ j, j ≠ i → ∃ last, s.threads j = .idle last) :
    ∃ n s', Run (Restrict Step Careful) s (List.replicate n (.next i false)) s' ∧ s'.threads i = .closing rest ∧
      (∀ j, j ≠ i → s'.threads j = s.threads j) ∧ (∀ q, (s'.pool q).inUse = (s.pool q).inUse) ∧
      s'.closed = s.closed ∧ s'.poolCount = s.poolCount := by
  have hc := careful_closing hi hfree hidle
  cases hclosed : (s.pool p).closed with
  | true =>
      have hst : s.Step (.next i false) (s.put i (.closing rest)) := by
        simp only [Step, step, hi, advance, closePool, hclosed]
        rfl
      refine ⟨1, _, Run.single ⟨hst, hc⟩, ?_, fun j hj => ?_, fun _ => rfl, rfl, rfl⟩
      · simp [put]
      · simp [put, hj]
  | false =>
      refine ⟨3, _, closes_open hi hc hclosed hfree, ?_, fun j hj => ?_, fun q => ?_, ?_, ?_⟩
      · simp [tear, put]
      · simp [tear, put, setPool, hj]
      · rcases eq_or_ne q p with rfl | hne
        · simp [tear, put, setPool]
        · simp [tear, put, setPool, hne]
      · simp [tear, put, setPool]
      · simp [tear, put, setPool]

theorem closes_all {pools : List Nat} (hi : s.threads i = .closing pools) (hfree : ∀ p ∈ pools, (s.pool p).inUse = [])
    (hidle : ∀ j, j ≠ i → ∃ last, s.threads j = .idle last) :
    ∃ n s', Run (Restrict Step Careful) s (List.replicate n (.next i false)) s' ∧ s'.threads i = .idle .closed ∧
      (∀ j, j ≠ i → s'.threads j = s.threads j) ∧ s'.closed = s.closed ∧ s'.poolCount = s.poolCount := by
  induction pools generalizing s with
  | nil =>
      have hst : s.Step (.next i false) (s.succeed i) := by
        simp only [Step, step, hi]
        rfl
      have hc : s.Careful (.next i false) := by
        simp only [Careful, hi]
        trivial
      refine ⟨1, _, Run.single ⟨hst, hc⟩, ?_, fun j hj => ?_, rfl, rfl⟩
      · simp [succeed]
      · simp [succeed, hj]
  | cons p rest ih =>
      obtain ⟨m, s₁, hrun₁, hi₁, hothers₁, hfree₁, hclosed₁, hcount₁⟩ := closes_pool hi (hfree p List.mem_cons_self) hidle
      have hfree' (q : Nat) (hq : q ∈ rest) : (s₁.pool q).inUse = [] := by
        rw [hfree₁]
        exact hfree q (List.mem_cons_of_mem _ hq)
      obtain ⟨n, s', hrun, hi', hothers, hclosed, hcount⟩ := ih hi₁ hfree' fun j hj => by
        rw [hothers₁ j hj]
        exact hidle j hj
      refine ⟨m + n, s', ?_, hi', fun j hj => (hothers j hj).trans (hothers₁ j hj), hclosed.trans hclosed₁,
        hcount.trans hcount₁⟩
      rw [← List.replicate_append_replicate]
      exact hrun₁.append hrun

/-- A close of an adapter at rest closes every pool. -/
theorem Sound.closes (h : s.Sound) (hopen : s.closed = false) (hidle : ∀ j, ∃ last, s.threads j = .idle last)
    (hactive : s.active = false) (i : ι) :
    ∃ n s', Run (Restrict Step Careful) s (.call i .close :: List.replicate n (.next i false)) s' ∧
      s'.threads i = .idle .closed ∧ s'.closed = true ∧ s'.poolCount = s.poolCount ∧
      ∀ p < s.poolCount, (s'.pool p).closed = true ∧ (s'.pool p).torn = 1 := by
  obtain ⟨worker, hclosable⟩ := h.closable
  obtain ⟨last, hi⟩ := hidle i
  have hlock : s.lock = none := by
    by_contra hsome
    obtain ⟨j, hj⟩ := Option.ne_none_iff_exists'.mp hsome
    obtain ⟨last, hlast⟩ := hidle j
    exact (hclosable.lock j).mp hj (by rw [hlast]; rfl)
  have hfree := active_eq_false.mp hactive
  have hpools := hclosable.pools hopen
  have hst : s.Step (.call i .close) (s.startClose i) := by
    simp only [Step, OpenClAdapter.step, hi, hlock]
  have hc : s.Careful (.call i .close) := fun _ => hactive
  generalize hs₁ : s.startClose i = s₁ at hst
  have hstart : s₁ = { s with lock := some i, threads := Function.update s.threads i (.checking (s.pools.map Prod.snd) []) } := by
    rw [← hs₁, OpenClAdapter.startClose, hopen]
    rfl
  have hi₁ : s₁.threads i = .checking (List.range s.poolCount) [] := by
    rw [hstart, ← hpools]
    exact Function.update_self i _ _
  have hpool₁ : s₁.pool = s.pool := by rw [hstart]
  have hcount₁ : s₁.poolCount = s.poolCount := by rw [hstart]
  have hothers₁ (j : ι) (hj : j ≠ i) : s₁.threads j = s.threads j := by
    rw [hstart]
    exact Function.update_of_ne hj _ _
  obtain ⟨s₂, hrun₂, hi₂, hothers₂, hpool₂, hclosed₂, hcount₂⟩ := checks_all hi₁ fun p hp => by
    rw [hpool₁]
    exact hfree p (List.mem_range.mp hp)
  have hfree₂ (p : Nat) (hp : p ∈ List.range s.poolCount) : (s₂.pool p).inUse = [] := by
    rw [hpool₂, hpool₁]
    exact hfree p (List.mem_range.mp hp)
  obtain ⟨n, s', hrun, hi', hothers, hclosed', hcount⟩ := closes_all hi₂ hfree₂ fun j hj => by
    rw [hothers₂ j hj, hothers₁ j hj]
    exact hidle j
  have hall := Run.cons ⟨hst, hc⟩ (hrun₂.append hrun)
  rw [List.replicate_append_replicate] at hall
  have hsound : s'.Sound := hall.invariant h fun hs hst => hs.step hst.1 hst.2
  have hcount' : s'.poolCount = s.poolCount := (hcount.trans hcount₂).trans hcount₁
  refine ⟨_, s', hall, hi', hclosed'.trans hclosed₂, hcount', fun p hp => ?_⟩
  refine hsound.finished (hclosed'.trans hclosed₂) (fun j => ?_) (by omega)
  rcases eq_or_ne j i with rfl | hj
  · rw [hi']
    rfl
  · obtain ⟨last, hlast⟩ := hidle j
    rw [hothers j hj, hothers₂ j hj, hothers₁ j hj, hlast]
    rfl

/-! ## What is expected of the adapter -/

/-- An image, or a tensor of it, has a token of the output. -/
def Live (s : OpenClAdapter ι) (k : Nat) : Prop :=
  k < s.leaseCount ∧ ∃ t < (s.lease k).lease.issued, (s.lease k).lease.shared t = true

/-- No thread is in a call. -/
def Idle (s : OpenClAdapter ι) : Prop := ∀ i, ∃ last, s.threads i = .idle last

/-- No thread is in a call, and all outputs have been released. -/
def Settled (s : OpenClAdapter ι) : Prop :=
  s.Idle ∧ ∀ k < s.leaseCount, (∀ t < (s.lease k).lease.issued, (s.lease k).lease.shared t = false) ∧
    ∀ i, (s.lease k).lease.Resting i

/-- What is expected of the adapter in every state. No slot is that of two live outputs or free while an output is live, and
each slot has come back as often as it was acquired, but for the one time that it is in use. No slot was acquired from a closed
pool, and no close has succeeded while one was in use. As long as the adapter is not closed, all its pools are there to be used
and to be closed; when it is closed and nobody is at it any more, each pool has been closed once. -/
structure Orderly (s : OpenClAdapter ι) : Prop where
  exclusive : ∀ k k', s.Live k → s.Live k' → (s.lease k).pool = (s.lease k').pool →
    (s.lease k).index = (s.lease k').index → k = k'
  reserved : ∀ k, s.Live k → (s.lease k).index ∈ (s.pool (s.lease k).pool).inUse ∧
    (s.lease k).index ∉ (s.pool (s.lease k).pool).free
  once : ∀ p index, s.acquired.count (p, index) = s.returned.count (p, index) + if index ∈ (s.pool p).inUse then 1 else 0
  settled : s.Settled → ∀ slot, s.acquired.count slot = s.returned.count slot
  opened : s.late = false
  vacant : s.occupied = false
  usable : s.closed = false → s.pools.map Prod.snd = List.range s.poolCount ∧
    ∀ p < s.poolCount, (s.pool p).closed = false ∧ (s.pool p).torn = 0
  closes : s.closed = false → s.Idle → s.active = false → ∀ i, ∃ n s',
    Run Step s (.call i .close :: List.replicate n (.next i false)) s' ∧ s'.threads i = .idle .closed ∧
      s'.closed = true ∧ s'.poolCount = s.poolCount ∧ ∀ p < s.poolCount, (s'.pool p).closed = true ∧ (s'.pool p).torn = 1
  finished : s.closed = true → (∀ i, (s.threads i).left = none) →
    ∀ p < s.poolCount, (s.pool p).closed = true ∧ (s.pool p).torn = 1
  torn : ∀ p, (s.pool p).torn ≤ 1

namespace Sound

theorem holds_of_live (h : s.Sound) (hk : s.Live k) : s.holds (.inr k) = some ((s.lease k).pool, (s.lease k).index) := by
  obtain ⟨hlt, t, ht, hshared⟩ := hk
  obtain ⟨-, place, cleaner, hsound⟩ := h.kept.leases k hlt
  simp only [holds, slots, if_pos hlt, PooledLease.slot, if_neg (hsound.not_released_of_shared ht hshared)]

theorem not_inUse (h : s.Sound) (hsettled : s.Settled) (p : Nat) : (s.pool p).inUse = [] := by
  refine List.eq_nil_iff_forall_not_mem.mpr fun index hindex => ?_
  obtain ⟨k, hk⟩ := (h.kept.held.mem_iff p index).mp hindex
  cases k with
  | inl i =>
      obtain ⟨last, hi⟩ := hsettled.1 i
      rw [holds, slots, hi] at hk
      cases hk
  | inr k =>
      rw [holds, slots] at hk
      split at hk
      · rename_i hlt
        obtain ⟨hissued, place, cleaner, hsound⟩ := h.kept.leases k hlt
        obtain ⟨hclosed, hresting⟩ := hsettled.2 k hlt
        have hcleanup := hsound.cleansUpOnce.done hissued hclosed hresting
        rw [PooledLease.slot, hcleanup, if_pos (by decide)] at hk
        cases hk
      · cases hk

omit [DecidableEq ι] in
theorem count_inUse (h : s.Sound) (p index : Nat) :
    (s.pool p).inUse.count index = if index ∈ (s.pool p).inUse then 1 else 0 := by
  have hnodup : (s.pool p).inUse.Nodup := (List.nodup_append.mp (h.kept.held.nodup p)).2.1
  split
  · rename_i hmem
    exact List.count_eq_one_of_mem hnodup hmem
  · rename_i hmem
    exact List.count_eq_zero.mpr hmem

theorem orderly (h : s.Sound) : s.Orderly where
  exclusive k k' hk hk' hpool hindex := by
    have hholds := h.holds_of_live hk
    rw [hpool, hindex] at hholds
    exact Sum.inr.inj (h.kept.held.inj _ _ _ hholds (h.holds_of_live hk'))
  reserved k hk := by
    have hmem := (h.kept.held.mem_iff _ _).mpr ⟨_, h.holds_of_live hk⟩
    exact ⟨hmem, fun hfree => (List.nodup_append.mp (h.kept.held.nodup _)).2.2 _ hfree _ hmem rfl⟩
  once p index := by rw [h.kept.balanced, h.count_inUse]
  settled hsettled slot := by
    rw [h.kept.balanced, h.not_inUse hsettled]
    rfl
  opened := by
    obtain ⟨worker, hclosable⟩ := h.closable
    exact hclosable.late
  vacant := by
    obtain ⟨worker, hclosable⟩ := h.closable
    exact hclosable.occupied
  usable hopen := by
    obtain ⟨worker, hclosable⟩ := h.closable
    refine ⟨hclosable.pools hopen, fun p hp => ?_⟩
    have hat := hclosable.pool p hp
    rw [hopen] at hat
    exact ⟨hat.1, hat.2.2⟩
  closes hopen hidle hactive i := by
    obtain ⟨n, s', hrun, hclosed⟩ := h.closes hopen hidle hactive i
    exact ⟨n, s', hrun.of_restrict, hclosed⟩
  finished hclosed hdone p hp := h.finished hclosed hdone hp
  torn p := by
    obtain ⟨worker, hclosable⟩ := h.closable
    by_cases hp : p < s.poolCount
    · exact (hclosable.pool p hp).torn_le
    · rw [h.kept.absent p (Nat.le_of_not_lt hp)]
      exact Nat.zero_le 1

end Sound

/-- In every run whose steps meet the condition the adapter is as expected, with conversions, images and closes of any
threads. -/
theorem orderly_of_run {poolSize acquireTimeoutMs : Nat} {ls : List (AdapterStep ι)}
    (h : Run (Restrict Step Careful) (OpenClAdapter.new ι poolSize acquireTimeoutMs) ls s) : s.Orderly := by
  have hsound : s.Sound := h.invariant (Sound.new poolSize acquireTimeoutMs) fun hs hst => hs.step hst.1 hst.2
  exact hsound.orderly

/-- The shape of a pool. -/
def hdKey : PoolKey := ⟨1, 0, 1920, 1080, 3⟩
def uhdKey : PoolKey := ⟨1, 0, 3840, 2160, 3⟩

/-- A conversion that gets through. -/
def converts (key : PoolKey) : List (AdapterStep Bool) :=
  .call false (.convert key true) :: List.replicate 5 (.next false false)

/-- The tokens of an output are closed, one after the other. -/
def releases (k : Nat) : List (AdapterStep Bool) :=
  [.lease k (.call true (.close 0)), .lease k (.next true false), .lease k (.next true false)] ++
    .lease k (.call true (.close 1)) :: List.replicate 5 (.lease k (.next true false))

/-- A conversion, a close that finds its image active, the release of the image, a conversion whose kernel is not submitted, and a
close in which the driver of the only pool raises. -/
def closesAtLast : List (AdapterStep Bool) :=
  converts hdKey ++ [.call true .close, .next true false] ++ releases 0 ++
    [.call false (.convert hdKey true), .next false false, .next false true, .next false false] ++
    [.call true .close, .next true false, .next true false, .next true false, .next true true, .next true false,
      .call true .close]

theorem orderly_of_run_closesAtLast : ∃ s, exec step (new Bool 1 0) closesAtLast = some s ∧ s.Orderly ∧
    (s.pool 0).torn = 1 ∧ s.threads true = .idle .closed ∧ s.acquired = [(0, 0), (0, 0)] := by
  have hrun : exec (fun s l => if Careful s l then step s l else none) (new Bool 1 0) closesAtLast = some _ := rfl
  exact ⟨_, rfl, orderly_of_run (Run.restrict_of_exec hrun), rfl, rfl, rfl⟩

/-- A conversion looks up its pool, the adapter is closed, and the conversion goes on. -/
def acquiresLate : List (AdapterStep Bool) :=
  .call false (.convert hdKey true) :: .call true .close :: List.replicate 6 (.next true false) ++ [.next false false]

/-- The slot is taken from the closed pool, whose resources are gone, and does not come back. -/
theorem acquiresLate_not_orderly : ∃ s, Run Step (new Bool 1 0) acquiresLate s ∧
    s.threads true = .idle .closed ∧ s.threads false = .idle (.raised .indexError) ∧ s.acquired = [(0, 0)] ∧
    s.returned = [] ∧ ¬ s.Orderly := by
  have hrun : exec step (new Bool 1 0) acquiresLate = some _ := rfl
  refine ⟨_, Run.of_exec hrun, rfl, rfl, rfl, rfl, fun h => ?_⟩
  cases h.opened

/-- Two shapes, whose images have been released, and a close in which the driver of the first pool raises. -/
def closesOnePool : List (AdapterStep Bool) :=
  converts hdKey ++ releases 0 ++ converts uhdKey ++ releases 1 ++
    [.call true .close, .next true false, .next true false, .next true false, .next true false, .next true true,
      .next true false, .call true .close]

/-- The next close succeeds, and the second pool stays open. -/
theorem closesOnePool_not_orderly : ∃ s, Run Step (new Bool 1 0) closesOnePool s ∧
    s.threads true = .idle .closed ∧ (s.pool 1).closed = false ∧ ¬ s.Orderly := by
  have hrun : exec step (new Bool 1 0) closesOnePool = some _ := rfl
  refine ⟨_, Run.of_exec hrun, rfl, rfl, fun h => ?_⟩
  have hpool := h.finished rfl (by decide) 1 (by decide)
  cases hpool.1

end OpenClAdapter

end MkvCodec.Python
