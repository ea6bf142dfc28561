import MkvCodec.Python.OpenClProcessor

/-!
# Slots of the Intel OpenCL processor

Who holds which slot. The leases of outputs are those of `OutputLease`; here they are parts of a larger state.
-/

namespace MkvCodec.Python

open Concurrency

variable {ι : Type*} [DecidableEq ι]

/-! ## Leases -/

namespace OutputLease

variable {lease lease' : OutputLease ι} {place : Nat → Place ι} {cleaner : Cleaner ι} {i : ι} {l : LeaseStep ι}

/-- The callback of the constructor that a step calls. -/
def calls (lease : OutputLease ι) : LeaseStep ι → List LeaseCallback
  | .next i _ =>
      match (lease.threads i).cleans with
      | some (true, c) => [c]
      | _ => []
  | .call _ _ => []

omit [DecidableEq ι] in
theorem calls_next {raises : Bool} {pc : LeasePc} (hi : lease.threads i = pc) (hpc : pc.cleans = none) :
    lease.calls (.next i raises) = [] := by
  rw [calls, hi, hpc]

/-- The past of a lease, with what a step adds to it. -/
structure Grows (lease lease' : OutputLease ι) (called : List LeaseCallback) : Prop where
  cleanup : lease'.cleanup = lease.cleanup ++ called
  issued : lease.issued ≤ lease'.issued

omit [DecidableEq ι] in
theorem Grows.same (hcleanup : lease'.cleanup = lease.cleanup) (hissued : lease'.issued = lease.issued) :
    lease.Grows lease' [] :=
  ⟨by rw [hcleanup, List.append_nil], Nat.le_of_eq hissued.symm⟩

theorem retain_grows (dlpack : Bool) : lease.Grows (lease.retain i dlpack) [] := by
  unfold retain
  split
  · exact .same rfl rfl
  · exact ⟨(List.append_nil _).symm, Nat.le_succ _⟩

theorem releaseReference_grows (t : Nat) (after : LeaseOutcome) : lease.Grows (lease.releaseReference i t after) [] := by
  unfold releaseReference
  split
  · exact .same rfl rfl
  split <;> exact .same rfl rfl

theorem start_grows (c : LeaseCall) : lease.Grows (lease.start i c) [] := by
  cases c with
  | retain => exact retain_grows false
  | close t => exact .same rfl rfl
  | wait timeoutMs => exact .same rfl rfl
  | dlpack => exact .same rfl rfl

theorem step_grows (h : lease.step l = some lease') : lease.Grows lease' (lease.calls l) := by
  cases l with
  | call i c =>
      simp only [step] at h
      split at h
      · cases h
        exact start_grows c
      · cases h
  | next i raises =>
      simp only [step] at h
      cases hi : lease.threads i with
      | idle last =>
          rw [hi] at h
          cases h
      | cleaning wired c failure after =>
          rw [hi] at h
          cases h
          rw [calls, hi]
          cases wired with
          | true => exact ⟨rfl, Nat.le_refl _⟩
          | false => exact .same rfl rfl
      | waiting timeoutMs dlpack =>
          rw [hi] at h
          rw [calls_next hi rfl]
          simp only [advance] at h
          split at h
          · cases h
            exact .same rfl rfl
          split at h <;> cases h <;> exact .same rfl rfl
      | retaining =>
          rw [hi] at h
          cases h
          rw [calls_next hi rfl]
          exact retain_grows true
      | dropping t after =>
          rw [hi] at h
          cases h
          rw [calls_next hi rfl]
          exact releaseReference_grows t after
      | constructing t dlpack | exporting t | unwinding t | clearing t after =>
          rw [hi] at h
          cases h
          rw [calls_next hi rfl]
          exact .same rfl rfl

omit [DecidableEq ι] in
theorem releasesSlot_iff : lease.releasesSlot l = true ↔ .releaseSlot ∈ lease.calls l := by
  cases l with
  | call i c => simp [releasesSlot, calls]
  | next i raises =>
      simp only [releasesSlot, calls, decide_eq_true_eq]
      cases hcleans : (lease.threads i).cleans with
      | none => simp
      | some cleans =>
          obtain ⟨wired, c⟩ := cleans
          cases wired <;> simp [eq_comm]

omit [DecidableEq ι] in
/-- The slot is released in one step of a lease at most. -/
theorem Sound.not_released (h : lease.Sound place cleaner) (hl : lease.releasesSlot l = true) :
    .releaseSlot ∉ lease.cleanup := by
  cases l with
  | call i c => cases hl
  | next i raises =>
      have hcleaner := ((h.cleaned.thread i true .releaseSlot).mp (of_decide_eq_true hl)).1
      rw [h.cleaned.cleanup, hcleaner]
      simp [Cleaner.called, LeaseCallback.before]

/-- A lease with a token that nobody has closed has not released its slot. -/
theorem Sound.not_released_of_shared (h : lease.Sound place cleaner) {t : Nat} (ht : t < lease.issued)
    (hshared : lease.shared t = true) : .releaseSlot ∉ lease.cleanup := by
  intro hmem
  have hclosed := (h.cleansUpOnce.last (List.ne_nil_of_mem hmem) t ht).1
  rw [hshared] at hclosed
  cases hclosed

theorem retained_eq (h : lease.retained i = some lease') : ∃ last, lease.threads i = .idle last ∧
    lease.step (.call i .retain) = some (lease.retain i false) ∧
      (lease.retain i false).threads i = .constructing lease.issued false ∧
      (lease.retain i false).step (.next i false) = some lease' ∧
      lease' = ((lease.retain i false).setShared lease.issued true).put i (.idle (.token lease.issued)) ∧
      lease'.issued = lease.issued + 1 := by
  obtain ⟨middle, hmiddle, hlast⟩ := Option.bind_eq_some_iff.mp h
  obtain ⟨lease'', hstep, heq⟩ := Option.bind_eq_some_iff.mp hlast
  cases heq
  cases hi : lease.threads i with
  | idle last =>
      have hcall : lease.step (.call i .retain) = some (lease.retain i false) := by
        simp only [step, hi, start]
      obtain rfl : lease.retain i false = middle := Option.some.inj (hcall.symm.trans hmiddle)
      cases hreleased : lease.released with
      | true =>
          have hput : lease.retain i false = lease.put i (.idle leaseReleased) := if_pos hreleased
          rw [hput] at hstep
          simp [step, put, advance] at hstep
      | false =>
          have hthread : (lease.retain i false).threads i = .constructing lease.issued false := by
            simp [retain, hreleased]
          have hlease' := hstep
          simp only [step, hthread, advance] at hstep
          cases hstep
          exact ⟨last, rfl, hcall, hthread, hlease', rfl, by simp [retain, hreleased, setShared, put]⟩
  | _ => simp [step, hi] at hmiddle

/-- A retain that nothing comes between. -/
theorem Sound.retained (h : lease.Sound place cleaner) (hr : lease.retained i = some lease') :
    (∃ place cleaner, lease'.Sound place cleaner) ∧ lease'.cleanup = lease.cleanup ∧ 0 < lease'.issued := by
  obtain ⟨last, -, hcall, hthread, hnext, heq, hissued⟩ := retained_eq hr
  obtain ⟨place, cleaner, hretain⟩ := h.step hcall nofun
  refine ⟨hretain.step hnext ?_, ?_, by omega⟩
  · intro t ht
    simp only [reads, hthread] at ht
    cases ht
  · rw [heq]
    exact (retain_grows false).cleanup.trans (List.append_nil _)

end OutputLease

/-! ## Who holds a slot -/

/-- The slot that belongs to a conversion. -/
def AdapterPc.slot : AdapterPc → Option (Nat × Nat)
  | .submitting p index | .leasing p index | .completing p index | .releasing p index => some (p, index)
  | _ => none

/-- The slot that belongs to an output, until it is released. -/
def PooledLease.slot (l : PooledLease ι) : Option (Nat × Nat) :=
  if .releaseSlot ∈ l.lease.cleanup then none else some (l.pool, l.index)

namespace OpenClAdapter

/-- Threads and leases, with what they hold. -/
def slots (threads : ι → AdapterPc) (count : Nat) (lease : Nat → PooledLease ι) : ι ⊕ Nat → Option (Nat × Nat)
  | .inl i => (threads i).slot
  | .inr k => if k < count then (lease k).slot else none

def holds (s : OpenClAdapter ι) : ι ⊕ Nat → Option (Nat × Nat) := slots s.threads s.leaseCount s.lease

section

variable {threads : ι → AdapterPc} {count k : Nat} {lease : Nat → PooledLease ι}

theorem slots_thread (i : ι) (pc : AdapterPc) :
    slots (Function.update threads i pc) count lease = Function.update (slots threads count lease) (.inl i) pc.slot := by
  funext h
  cases h with
  | inl j =>
      rcases eq_or_ne j i with rfl | hne
      · simp [slots]
      · simp [slots, hne]
  | inr k => simp [slots]

theorem slots_lease (hk : k < count) (l : PooledLease ι) :
    slots threads count (Function.update lease k l) = Function.update (slots threads count lease) (.inr k) l.slot := by
  funext h
  cases h with
  | inl j => simp [slots]
  | inr k' =>
      rcases eq_or_ne k' k with rfl | hne
      · simp [slots, hk]
      · simp [slots, hne]

omit [DecidableEq ι] in
theorem slots_lease_of_le (hk : count ≤ k) (l : PooledLease ι) :
    slots threads count (Function.update lease k l) = slots threads count lease := by
  funext h
  cases h with
  | inl j => rfl
  | inr k' =>
      rcases eq_or_ne k' k with rfl | hne
      · simp [slots, Nat.not_lt.mpr hk]
      · simp [slots, hne]

theorem slots_new (l : PooledLease ι) : slots threads (count + 1) (Function.update lease count l) =
    Function.update (slots threads count lease) (.inr count) l.slot := by
  funext h
  cases h with
  | inl j => simp [slots]
  | inr k =>
      rcases eq_or_ne k count with rfl | hne
      · simp [slots]
      · have hiff : k < count + 1 ↔ k < count := by omega
        simp [slots, hne, hiff]

end

/-! ## The slots of a run -/

/-- The slots and the leases of all outputs. -/
structure Kept (s : OpenClAdapter ι) : Prop where
  held : FreeList.Held (fun p => (s.pool p).toSlots) s.holds
  range : ∀ p, ∀ a ∈ (s.pool p).free ++ (s.pool p).inUse, a < s.poolSize
  absent : ∀ p, s.poolCount ≤ p → s.pool p = .absent
  leases : ∀ k < s.leaseCount, 0 < (s.lease k).lease.issued ∧ ∃ place cleaner, (s.lease k).lease.Sound place cleaner
  balanced : ∀ p index, s.acquired.count (p, index) = s.returned.count (p, index) + (s.pool p).inUse.count index

variable {s s' : OpenClAdapter ι} {i : ι} {pc : AdapterPc} {p index k : Nat}

namespace Kept

omit [DecidableEq ι] in
/-- A step of a thread that changes no slot, whatever else it does. -/
theorem congr (h : s.Kept) (hslots : ∀ p, (s'.pool p).toSlots = (s.pool p).toSlots) (hsize : s'.poolSize = s.poolSize)
    (hholds : s'.holds = s.holds) (habsent : ∀ p, s'.poolCount ≤ p → s'.pool p = .absent)
    (hleases : s'.leaseCount = s.leaseCount ∧ s'.lease = s.lease)
    (hghosts : s'.acquired = s.acquired ∧ s'.returned = s.returned) : s'.Kept where
  held := by
    have hpools : (fun p => (s'.pool p).toSlots) = fun p => (s.pool p).toSlots := funext hslots
    rw [hpools, hholds]
    exact h.held
  range p := by
    rw [hslots p, hsize]
    exact h.range p
  absent := habsent
  leases := by
    rw [hleases.1, hleases.2]
    exact h.leases
  balanced p index := by
    rw [hghosts.1, hghosts.2, hslots p]
    exact h.balanced p index

/-- A thread goes on with the slot that it has, and with everything that is said of closes. -/
theorem turn (h : s.Kept) {pools : List (PoolKey × Nat)} {closed occupied : Bool} {lock : Option ι} {pool : Nat → OutputPool}
    (hpc : pc.slot = (s.threads i).slot) (hslots : ∀ p, (pool p).toSlots = (s.pool p).toSlots)
    (habsent : ∀ p, s.poolCount ≤ p → pool p = .absent) :
    Kept { s with
      pools := pools
      closed := closed
      lock := lock
      pool := pool
      occupied := occupied
      threads := Function.update s.threads i pc } := by
  refine h.congr hslots rfl ?_ habsent ⟨rfl, rfl⟩ ⟨rfl, rfl⟩
  refine (slots_thread i pc).trans ?_
  rw [hpc]
  exact Function.update_eq_self _ _

theorem put (h : s.Kept) (hpc : pc.slot = (s.threads i).slot) : (s.put i pc).Kept := h.turn hpc (fun _ => rfl) h.absent

omit [DecidableEq ι] in
theorem toSlots_update (q : Nat) (pool : OutputPool) : (fun p => (Function.update s.pool q pool p).toSlots) =
    Function.update (fun p => (s.pool p).toSlots) q pool.toSlots := by
  funext p
  rcases eq_or_ne p q with rfl | hne
  · simp
  · simp [hne]

/-- A close changes a pool, but none of its slots. -/
theorem turnPool (h : s.Kept) {pool : OutputPool} (hpc : pc.slot = (s.threads i).slot) (hp : p < s.poolCount)
    (hslots : pool.toSlots = (s.pool p).toSlots) : ((s.setPool p pool).put i pc).Kept := by
  refine h.turn hpc (fun q => ?_) fun q hq => ?_
  · dsimp only [OpenClAdapter.setPool]
    rcases eq_or_ne q p with rfl | hne
    · rw [Function.update_self, hslots]
    · rw [Function.update_of_ne hne]
  · have hne : q ≠ p := by omega
    exact (Function.update_of_ne hne pool s.pool).trans (h.absent q hq)

theorem construct (h : s.Kept) (pools : List (PoolKey × Nat)) (hpc : pc.slot = (s.threads i).slot) :
    Kept { s with
      pools := pools
      poolCount := s.poolCount + 1
      pool := Function.update s.pool s.poolCount (.new s.poolSize)
      threads := Function.update s.threads i pc } := by
  have habsent := h.absent s.poolCount (Nat.le_refl _)
  have hholds : slots (Function.update s.threads i pc) s.leaseCount s.lease = s.holds := by
    rw [slots_thread, hpc]
    exact Function.update_eq_self _ _
  refine ⟨?_, fun p => ?_, fun p hp => ?_, h.leases, fun p index => ?_⟩
  · rw [toSlots_update, holds, hholds]
    exact h.held.fresh (by rw [habsent]; rfl) List.nodup_range rfl
  · dsimp only
    rcases eq_or_ne p s.poolCount with rfl | hne
    · rw [Function.update_self]
      intro a ha
      exact List.mem_range.mp (by simpa [OutputPool.new] using ha)
    · rw [Function.update_of_ne hne]
      exact h.range p
  · dsimp only at hp ⊢
    rw [Function.update_of_ne (by omega)]
    exact h.absent p (by omega)
  · dsimp only
    rw [h.balanced]
    rcases eq_or_ne p s.poolCount with rfl | hne
    · rw [Function.update_self, habsent]
      rfl
    · rw [Function.update_of_ne hne]

theorem acquire (h : s.Kept) {slots : FreeList.Slots Nat} (late : Bool)
    (htake : FreeList.take (s.pool p).toSlots = some (index, slots)) (hi : (s.threads i).slot = none)
    (hpc : pc.slot = some (p, index)) :
    Kept { s with
      pool := Function.update s.pool p { s.pool p with toSlots := slots }
      acquired := (p, index) :: s.acquired
      late := late
      threads := Function.update s.threads i pc } := by
  obtain ⟨hfree, hinUse⟩ := FreeList.take_eq_some htake
  refine ⟨?_, fun q => ?_, fun q hq => ?_, h.leases, fun q index' => ?_⟩
  · rw [toSlots_update, holds, slots_thread, hpc]
    exact h.held.take htake hi
  · dsimp only
    rcases eq_or_ne q p with rfl | hne
    · rw [Function.update_self]
      intro a ha
      refine h.range q a ?_
      rw [hfree]
      rw [hinUse] at ha
      exact (List.perm_middle.mem_iff).mp ha
    · rw [Function.update_of_ne hne]
      exact h.range q
  · dsimp only
    rw [Function.update_of_ne]
    · exact h.absent q hq
    · rintro rfl
      rw [h.absent q hq] at hfree
      cases hfree
  · dsimp only
    rw [List.count_cons, h.balanced]
    rcases eq_or_ne q p with rfl | hne
    · rw [Function.update_self, hinUse, List.count_cons]
      simp [Prod.ext_iff, Nat.add_assoc]
    · rw [Function.update_of_ne hne]
      simp [hne.symm]

theorem release (h : s.Kept) {k : ι ⊕ Nat} {threads : ι → AdapterPc} {lease : Nat → PooledLease ι}
    (hk : s.holds k = some (p, index))
    (hholds : slots threads s.leaseCount lease = Function.update s.holds k none)
    (hleases : ∀ k < s.leaseCount, 0 < (lease k).lease.issued ∧ ∃ place cleaner, (lease k).lease.Sound place cleaner) :
    Kept { s.release p index with threads := threads, lease := lease } := by
  have hmem : index ∈ (s.pool p).inUse := (h.held.mem_iff p index).mpr ⟨k, hk⟩
  have hgive : FreeList.give (s.pool p).toSlots index =
      ⟨index :: (s.pool p).free, (s.pool p).inUse.erase index⟩ := if_pos hmem
  refine ⟨?_, fun q => ?_, fun q hq => ?_, hleases, fun q index' => ?_⟩
  · rw [holds, OpenClAdapter.release]
    dsimp only [OpenClAdapter.setPool]
    rw [toSlots_update, hholds]
    exact h.held.give hk
  · dsimp only [OpenClAdapter.release, OpenClAdapter.setPool]
    rcases eq_or_ne q p with rfl | hne
    · rw [Function.update_self, OutputPool.release, hgive]
      intro a ha
      refine h.range q a ?_
      have hperm : (index :: (s.pool q).free ++ (s.pool q).inUse.erase index).Perm
          ((s.pool q).free ++ (s.pool q).inUse) :=
        (List.perm_middle.symm).trans ((List.perm_cons_erase hmem).symm.append_left _)
      exact hperm.mem_iff.mp ha
    · rw [Function.update_of_ne hne]
      exact h.range q
  · dsimp only [OpenClAdapter.release, OpenClAdapter.setPool]
    rw [Function.update_of_ne]
    · exact h.absent q hq
    · rintro rfl
      rw [h.absent q hq] at hmem
      cases hmem
  · dsimp only [OpenClAdapter.release, OpenClAdapter.setPool]
    rw [if_pos hmem, List.count_cons, h.balanced]
    rcases eq_or_ne q p with rfl | hne
    · rw [Function.update_self, OutputPool.release, hgive]
      dsimp only
      rcases eq_or_ne index' index with rfl | hne
      · have hpos := List.count_pos_iff.mpr hmem
        rw [List.count_erase_self]
        simp only [BEq.rfl, if_true]
        omega
      · rw [List.count_erase_of_ne hne]
        simp [hne.symm]
    · rw [Function.update_of_ne hne]
      simp [hne.symm]

/-- The slot of a conversion goes to its output. -/
theorem newLease (h : s.Kept) {lease : OutputLease ι} (hi : (s.threads i).slot = some (p, index)) (hpc : pc.slot = none)
    (hsound : 0 < lease.issued ∧ ∃ place cleaner, lease.Sound place cleaner) (hcleanup : .releaseSlot ∉ lease.cleanup) :
    Kept { s with
      leaseCount := s.leaseCount + 1
      lease := Function.update s.lease s.leaseCount ⟨p, index, lease⟩
      threads := Function.update s.threads i pc } := by
  refine ⟨?_, h.range, h.absent, fun k hk => ?_, h.balanced⟩
  · rw [holds]
    dsimp only
    rw [slots_new, slots_thread, hpc, PooledLease.slot, if_neg hcleanup]
    exact h.held.pass hi (by simp [holds, slots])
  · dsimp only at hk ⊢
    rcases eq_or_ne k s.leaseCount with rfl | hne
    · rw [Function.update_self]
      exact hsound
    · rw [Function.update_of_ne hne]
      exact h.leases k (by omega)

theorem setLease (h : s.Kept) {lease : OutputLease ι}
    (hk : k < s.leaseCount → (0 < lease.issued ∧ ∃ place cleaner, lease.Sound place cleaner) ∧
      (.releaseSlot ∈ lease.cleanup ↔ .releaseSlot ∈ (s.lease k).lease.cleanup)) : (s.setLease k lease).Kept := by
  have hholds : (s.setLease k lease).holds = s.holds := by
    rw [holds]
    dsimp only [OpenClAdapter.setLease]
    by_cases hlt : k < s.leaseCount
    · have hslot : PooledLease.slot { s.lease k with lease := lease } = s.holds (.inr k) := by
        simp [holds, slots, hlt, PooledLease.slot, (hk hlt).2]
      rw [slots_lease hlt, hslot]
      exact Function.update_eq_self _ _
    · exact slots_lease_of_le (Nat.le_of_not_lt hlt) _
  refine ⟨?_, h.range, h.absent, fun k' hk' => ?_, h.balanced⟩
  · rw [hholds]
    exact h.held
  · dsimp only [OpenClAdapter.setLease]
    rcases eq_or_ne k' k with rfl | hne
    · rw [Function.update_self]
      exact (hk hk').1
    · rw [Function.update_of_ne hne]
      exact h.leases k' hk'

end Kept

end OpenClAdapter

end MkvCodec.Python
