import MkvCodec.Encoder.CpuFramePool

/-!
# Submitted buffers keep their slots

Every slot in use is held by exactly one lease, and a submission that is not terminal keeps the lease of its buffer: through
the call that makes it until `set_owner`, and through its owner from then on.
-/

namespace MkvCodec.Encoder

open Concurrency SlotPool

/-! ## The operations of the pool -/

namespace CpuFramePool

variable {p p' : CpuFramePool} {timeoutMs : UInt32} {ns : UInt64} {index generation : Nat}

theorem acquire_ok (h : p.acquire timeoutMs ns = some (p', .ok (index, generation))) :
    ∃ g, p.slots[index]? = some ⟨false, g⟩ ∧ generation = (g + 1) % 2 ^ 64 ∧
      p'.slots = p.slots.set index ⟨true, generation⟩ ∧ p'.inUse = u32 (p.inUse + 1) ∧
      p'.acquisitions = p.acquisitions + 1 := by
  simp only [acquire] at h
  split at h
  · split at h <;> cases h
  case h_2 i hi =>
      obtain ⟨g, hg⟩ := firstFree_some hi
      simp only [hg] at h
      cases h
      exact ⟨g, hg, rfl, rfl, rfl, rfl⟩

/-- An acquisition that fails only counts. -/
theorem acquire_error {status : Status} (h : p.acquire timeoutMs ns = some (p', .error status)) :
    p'.slots = p.slots ∧ p'.inUse = p.inUse ∧ p'.acquisitions = p.acquisitions := by
  simp only [acquire] at h
  split at h
  · split at h <;> cases h
    exact ⟨rfl, rfl, rfl⟩
  · split at h <;> cases h
    exact ⟨rfl, rfl, rfl⟩

theorem recycle_held {leaseNs : UInt64} (h : p.slots[index]? = some ⟨true, generation⟩) (hpos : 0 < p.inUse) :
    p.recycle index generation leaseNs =
      { p with
        slots := p.slots.set index ⟨false, generation⟩
        inUse := p.inUse - 1
        leaseTimeNs := p.leaseTimeNs + leaseNs
        peakLeaseTimeNs := max p.peakLeaseTimeNs leaseNs } := by
  simp [recycle, giveBack_some h, Nat.ne_of_gt hpos]

theorem recycle_stale {leaseNs : UInt64} (h : p.slots[index]? ≠ some ⟨true, generation⟩) :
    p.recycle index generation leaseNs = p := by
  simp [recycle, giveBack_stale h]

end CpuFramePool

/-! ## Calls and their submissions -/

/-- A running call has the handle of its buffer, and a submission that is not terminal has the call or the lease. -/
structure SubmitCall.Retains (lease : Nat → Option CpuBufferLease) (call : SubmitCall) : Prop where
  running : call.pc.running = true → ∃ l, lease call.buffer = some l ∧ l.handle = true
  owner : ∀ {submission k}, call.submission = some submission → submission.owner = some k →
    k = call.buffer ∧ submission.state.terminal = false ∧ lease k ≠ none
  pending : ∀ {submission}, call.submission = some submission → submission.state.terminal = false →
    call.pc = .setOwner ∨ submission.owner = some call.buffer

namespace SubmitCall

variable {lease lease' : Nat → Option CpuBufferLease} {call : SubmitCall} {pc : SubmitPc} {submission : OwningSubmission}

/-- The leases change, but not those that the call needs. -/
theorem Retains.leases (h : call.Retains lease)
    (hrunning : call.pc.running = true → lease' call.buffer = lease call.buffer)
    (howner : ∀ submission k, call.submission = some submission → submission.owner = some k → lease k ≠ none →
      lease' k ≠ none) : call.Retains lease' where
  running hpc := by
    rw [hrunning hpc]
    exact h.running hpc
  owner hs hk := by
    obtain ⟨heq, hterminal, hlease⟩ := h.owner hs hk
    exact ⟨heq, hterminal, howner _ _ hs hk hlease⟩
  pending := h.pending

/-- A call that has made no submission moves on. -/
theorem Retains.move (h : call.Retains lease) (hrunning : call.pc.running = true)
    (hnone : call.submission = none) : Retains lease { call with pc := pc } where
  running _ := h.running hrunning
  owner hs := by
    rw [hnone] at hs
    cases hs
  pending hs := by
    rw [hnone] at hs
    cases hs

theorem Retains.submit (h : call.Retains lease) (hrunning : call.pc.running = true) :
    Retains lease { call with pc := .setOwner, submission := some .new } where
  running _ := h.running hrunning
  owner hs hk := by
    cases hs
    cases hk
  pending _ _ := .inl rfl

theorem Retains.setOwner (h : call.Retains lease) (hs : call.submission = some submission)
    (hpc : call.pc.running = true) :
    Retains lease ⟨call.buffer, .returned .ok, some (submission.setOwner call.buffer)⟩ := by
  obtain ⟨l, hl, -⟩ := h.running hpc
  refine ⟨nofun, ?_, ?_⟩
  · rintro _ k ⟨⟩ hk
    rw [OwningSubmission.setOwner] at hk ⊢
    split at hk
    case isTrue hterminal =>
        cases hk
        rw [if_pos hterminal]
        exact ⟨rfl, by simpa using hterminal, by simp [hl]⟩
    case isFalse hterminal =>
        rw [if_neg hterminal]
        exact h.owner hs hk
  · rintro _ ⟨⟩ hterminal
    rw [OwningSubmission.setOwner] at hterminal ⊢
    split at hterminal
    case isTrue hpending =>
        rw [if_pos hpending]
        exact .inr rfl
    case isFalse hdone => simp [hterminal] at hdone

theorem Retains.complete (h : call.Retains lease) (hs : call.submission = some submission) (status : Status) :
    Retains lease { call with submission := some (submission.complete status) } := by
  refine ⟨h.running, ?_, ?_⟩
  · rintro _ k ⟨⟩ hk
    rw [OwningSubmission.complete] at hk ⊢
    split at hk
    case isTrue hterminal =>
        rw [if_pos hterminal]
        exact h.owner hs hk
    case isFalse hterminal => cases hk
  · rintro _ ⟨⟩ hterminal
    rw [OwningSubmission.complete] at hterminal ⊢
    split at hterminal
    case isTrue hdone => simp [hdone] at hterminal
    case isFalse hpending => simp [CpuSubmission.complete, hpending] at hterminal

theorem Retains.release (h : call.Retains lease) (hs : call.submission = some submission)
    (hterminal : submission.state.terminal = true) :
    Retains lease { call with submission := some { submission with released := true } } where
  running := h.running
  owner hs' hk := by
    cases hs'
    have howner := h.owner hs hk
    exact howner
  pending := by
    rintro _ ⟨⟩ hpending
    simp [hterminal] at hpending

end SubmitCall

/-! ## The books -/

namespace CpuPoolState

variable {capacity : UInt32} {s t : CpuPoolState} {l : CpuPoolLabel} {k c : Nat}

def holds (s : CpuPoolState) (k : Nat) : Option (Nat × Nat) := (s.lease k).map fun lease => (lease.slot, lease.generation)

def ledger (s : CpuPoolState) : Ledger Nat := ⟨s.pool.slots, s.pool.inUse, s.holds, s.issued, s.recycled⟩

structure Books (capacity : UInt32) (s : CpuPoolState) : Prop where
  sound : s.ledger.Sound (2 ^ 64) capacity.toNat
  ascending : Ledger.Ascending (2 ^ 64) s.issued
  latest : s.ledger.Latest
  acquisitions : s.pool.acquisitions = UInt64.ofNat s.issued.length
  fresh : ∀ k, s.next ≤ k → s.lease k = none
  called : ∀ c, s.calls ≤ c → s.call c = none
  calls : ∀ {c call}, s.call c = some call → call.Retains s.lease
  /-- A call makes its submission behind `submit_borrowed`. -/
  early : ∀ {c call}, s.call c = some call → call.pc = .getView ∨ call.pc = .submitBorrowed → call.submission = none

theorem holds_setLease (s : CpuPoolState) (k : Nat) (lease : Option CpuBufferLease) :
    (s.setLease k lease).holds =
      Function.update s.holds k (lease.map fun lease => (lease.slot, lease.generation)) := by
  funext k'
  by_cases hk : k' = k
  · subst hk
    simp [holds, setLease]
  · simp [holds, setLease, hk]

theorem anyCall_eq_false {p : SubmitCall → Bool} (h : s.anyCall p = false) (hcalled : ∀ c, s.calls ≤ c → s.call c = none)
    {call : SubmitCall} (hc : s.call c = some call) : p call = false := by
  have hlt : c < s.calls := by
    by_contra hle
    rw [hcalled c (Nat.le_of_not_lt hle)] at hc
    cases hc
  have hnone := List.any_eq_false.mp h c (List.mem_range.mpr hlt)
  simpa [hc] using hnone

theorem Books.init (capacity : UInt32) : Books capacity (.init capacity) where
  sound := Ledger.sound_new _ _
  ascending _ _ := List.Pairwise.nil
  latest := nofun
  acquisitions := rfl
  fresh _ _ := rfl
  called _ _ := rfl
  calls := nofun
  early := nofun

/-- A step keeps the books right and is one of theirs. -/
structure Moves (capacity : UInt32) (s t : CpuPoolState) : Prop where
  books : Books capacity t
  step : Ledger.Step (2 ^ 64) s.ledger t.ledger

/-- A step of the books that leaves the calls and what they need. -/
theorem Books.lease (h : Books capacity s) {b : Ledger Nat} (hstep : Ledger.Step (2 ^ 64) s.ledger b) (ht : t.ledger = b)
    (hacquisitions : t.pool.acquisitions = UInt64.ofNat t.issued.length) (hfresh : ∀ k, t.next ≤ k → t.lease k = none)
    (hcall : t.call = s.call) (hcalls : t.calls = s.calls)
    (hretains : ∀ {c call}, s.call c = some call → call.Retains t.lease) : Moves capacity s t := by
  subst ht
  refine ⟨?_, hstep⟩
  exact {
    sound := hstep.sound h.sound
    ascending := hstep.ascending h.sound h.ascending
    latest := hstep.latest h.sound.exclusive h.latest
    acquisitions := hacquisitions
    fresh := hfresh
    called := by
      rw [hcall, hcalls]
      exact h.called
    calls := by
      rw [hcall]
      exact hretains
    early := by
      rw [hcall]
      exact h.early }

/-- One call moves. -/
theorem Books.call (h : Books capacity s) {call call' : SubmitCall} (hc : s.call c = some call)
    (hretains : call'.Retains s.lease)
    (hearly : call'.pc = .getView ∨ call'.pc = .submitBorrowed → call'.submission = none) :
    Moves capacity s (s.setCall c call') := by
  refine ⟨?_, .quiet⟩
  exact {
    sound := h.sound
    ascending := h.ascending
    latest := h.latest
    acquisitions := h.acquisitions
    fresh := h.fresh
    called := fun c' hle => by
      have hne : c' ≠ c := by
        rintro rfl
        rw [h.called c' hle] at hc
        cases hc
      simp only [setCall, Function.update_of_ne hne]
      exact h.called c' hle
    calls := fun {c' a} ha => by
      by_cases hcc : c' = c
      · subst hcc
        simp only [setCall, Function.update_self, Option.some.injEq] at ha
        exact ha ▸ hretains
      · simp only [setCall, Function.update_of_ne hcc] at ha
        exact h.calls ha
    early := fun {c' a} ha => by
      by_cases hcc : c' = c
      · subst hcc
        simp only [setCall, Function.update_self, Option.some.injEq] at ha
        exact ha ▸ hearly
      · simp only [setCall, Function.update_of_ne hcc] at ha
        exact h.early ha }

theorem Books.enter (h : Books capacity s) {lease : CpuBufferLease} (hk : s.lease k = some lease)
    (hhandle : lease.handle = true) :
    Moves capacity s { s.setCall s.calls ⟨k, .getView, none⟩ with calls := s.calls + 1 } := by
  refine ⟨?_, .quiet⟩
  exact {
    sound := h.sound
    ascending := h.ascending
    latest := h.latest
    acquisitions := h.acquisitions
    fresh := h.fresh
    called := fun c hle => by
      have hne : c ≠ s.calls := Nat.ne_of_gt hle
      simp only [setCall, Function.update_of_ne hne]
      exact h.called c (Nat.le_of_succ_le hle)
    calls := fun {c a} ha => by
      by_cases hcc : c = s.calls
      · subst hcc
        simp only [setCall, Function.update_self, Option.some.injEq] at ha
        subst ha
        exact ⟨fun _ => ⟨lease, hk, hhandle⟩, nofun, nofun⟩
      · simp only [setCall, Function.update_of_ne hcc] at ha
        exact h.calls ha
    early := fun {c a} ha => by
      by_cases hcc : c = s.calls
      · subst hcc
        simp only [setCall, Function.update_self, Option.some.injEq] at ha
        exact fun _ => ha ▸ rfl
      · simp only [setCall, Function.update_of_ne hcc] at ha
        exact h.early ha }

/-- An acquisition is a claim for a new lease. -/
theorem Books.acquire (h : Books capacity s) {timeoutMs : UInt32} {ns : UInt64} {p : CpuFramePool} {slot generation : Nat}
    (hacquire : s.pool.acquire timeoutMs ns = some (p, .ok (slot, generation))) :
    Moves capacity s { s.setLease s.next (some ⟨slot, generation, true⟩) with
      pool := p
      next := s.next + 1
      issued := (slot, generation) :: s.issued } := by
  obtain ⟨g, hfree, hgeneration, hslots, hinUse, hacquisitions⟩ := CpuFramePool.acquire_ok hacquire
  have hnone : s.lease s.next = none := h.fresh s.next (Nat.le_refl _)
  have hnoHolder : s.holds s.next = none := by rw [holds, hnone]; rfl
  have hcount : p.inUse = s.pool.inUse + 1 := by
    rw [hinUse]
    exact u32_of_lt (Nat.lt_of_le_of_lt (h.sound.inUse_lt hfree) capacity.toNat_lt)
  have hnext : g + 1 < 2 ^ 64 → generation = g + 1 := fun hlt => by rw [hgeneration, Nat.mod_eq_of_lt hlt]
  have hother {k : Nat} (hk : s.lease k ≠ none) : k ≠ s.next := by
    rintro rfl
    exact hk hnone
  refine h.lease (.claim s.next slot g generation hnoHolder hfree hnext)
    (Ledger.ext hslots hcount (holds_setLease _ _ _) rfl rfl) ?_ (fun k hle => ?_) rfl rfl fun hc => ?_
  · simp only [hacquisitions, h.acquisitions, List.length_cons, UInt64.ofNat_add]
    rfl
  · simp only [setLease, Function.update_of_ne (Nat.ne_of_gt hle)]
    exact h.fresh k (Nat.le_of_succ_le hle)
  · refine (h.calls hc).leases (fun hpc => ?_) fun submission k hs hk hlease => ?_
    · obtain ⟨l, hl, -⟩ := (h.calls hc).running hpc
      exact Function.update_of_ne (hother (by simp [hl])) _ _
    · simp only [setLease, Function.update_of_ne (hother hlease)]
      exact hlease

/-- The handle of a buffer goes away outside all calls with it. -/
theorem Books.releaseBuffer (h : Books capacity s) {lease : CpuBufferLease} (hk : s.lease k = some lease)
    (hbusy : s.busy k = false) : Moves capacity s (s.setLease k (some { lease with handle := false })) := by
  have hheld : s.holds k = some (lease.slot, lease.generation) := by rw [holds, hk]; rfl
  have hholds : (s.setLease k (some { lease with handle := false })).holds = s.holds := by
    rw [holds_setLease]
    exact Function.update_eq_self_iff.mpr hheld.symm
  refine h.lease .quiet (Ledger.ext rfl rfl hholds rfl rfl) h.acquisitions (fun k' hle => ?_) rfl rfl fun hc => ?_
  · have hne : k' ≠ k := by
      rintro rfl
      rw [h.fresh k' hle] at hk
      cases hk
    simp only [setLease, Function.update_of_ne hne]
    exact h.fresh k' hle
  · have hcall := anyCall_eq_false hbusy h.called hc
    refine (h.calls hc).leases (fun hpc => ?_) fun submission k' hs hk' hlease => ?_
    · simp only [hpc, Bool.true_and, decide_eq_false_iff_not] at hcall
      exact Function.update_of_ne hcall _ _
    · by_cases hkk : k' = k
      · simp [setLease, hkk]
      · simp only [setLease, Function.update_of_ne hkk]
        exact hlease

/-- The destructor of a lease that nothing refers to gives the slot back. -/
theorem Books.recycle (h : Books capacity s) {lease : CpuBufferLease} (hk : s.lease k = some lease)
    (hhandle : lease.handle = false) (howned : s.owned k = false) (leaseNs : UInt64) :
    Moves capacity s { s.setLease k none with
      pool := s.pool.recycle lease.slot lease.generation leaseNs
      recycled := if (giveBack s.pool.slots lease.slot lease.generation).isSome then s.recycled + 1 else s.recycled } := by
  have hheld : s.holds k = some (lease.slot, lease.generation) := by rw [holds, hk]; rfl
  have hat : s.pool.slots[lease.slot]? = some ⟨true, lease.generation⟩ := h.sound.exclusive.held hheld
  have hpos : 0 < s.pool.inUse := h.sound.inUse_pos hheld
  rw [CpuFramePool.recycle_held hat hpos, giveBack_some hat, Option.isSome_some, if_pos rfl]
  refine h.lease (.give k lease.slot lease.generation hheld) (Ledger.ext rfl rfl (holds_setLease _ _ _) rfl rfl)
    h.acquisitions (fun k' hle => ?_) rfl rfl fun hc => ?_
  · by_cases hkk : k' = k
    · simp [setLease, hkk]
    · simp only [setLease, Function.update_of_ne hkk]
      exact h.fresh k' hle
  · have hcall := anyCall_eq_false howned h.called hc
    refine (h.calls hc).leases (fun hpc => ?_) fun submission k' hs hk' hlease => ?_
    · obtain ⟨l, hl, hlhandle⟩ := (h.calls hc).running hpc
      refine Function.update_of_ne ?_ _ _
      rintro hbuffer
      rw [hbuffer, hk] at hl
      cases hl
      rw [hhandle] at hlhandle
      cases hlhandle
    · have hne : k' ≠ k := by
        rintro rfl
        simp [hs, hk'] at hcall
      simp only [setLease, Function.update_of_ne hne]
      exact hlease

theorem Books.step (h : Books capacity s) (hst : s.Step l t) : Moves capacity s t := by
  cases l with
  | acquire timeoutMs ns =>
      simp only [Step, CpuPoolState.step] at hst
      split at hst
      · cases hst
      obtain ⟨⟨p, answer⟩, hacquire, rfl⟩ := Option.map_eq_some_iff.mp hst
      cases answer with
      | error status =>
          obtain ⟨hslots, hinUse, hacquisitions⟩ := CpuFramePool.acquire_error hacquire
          exact h.lease .quiet (Ledger.ext hslots hinUse rfl rfl rfl) (hacquisitions.trans h.acquisitions) h.fresh rfl rfl
            h.calls
      | ok claim => exact h.acquire hacquire
  | releaseBuffer k =>
      obtain ⟨lease, hk, hst⟩ := Option.bind_eq_some_iff.mp hst
      split at hst
      case isTrue => cases hst
      case isFalse hguard =>
          cases hst
          simp only [Bool.or_eq_true, Bool.not_eq_true', not_or, Bool.not_eq_true, Bool.not_eq_false] at hguard
          exact h.releaseBuffer hk hguard.2
  | recycle k leaseNs =>
      obtain ⟨lease, hk, hst⟩ := Option.bind_eq_some_iff.mp hst
      split at hst
      case isTrue => cases hst
      case isFalse hguard =>
          cases hst
          simp only [Bool.or_eq_true, not_or, Bool.not_eq_true] at hguard
          exact h.recycle hk hguard.1 hguard.2 leaseNs
  | enter k =>
      obtain ⟨lease, hk, hst⟩ := Option.bind_eq_some_iff.mp hst
      split at hst
      case isTrue => cases hst
      case isFalse hguard =>
          cases hst
          exact h.enter hk (by simpa using hguard)
  | getView c =>
      obtain ⟨call, hc, hst⟩ := Option.bind_eq_some_iff.mp hst
      split at hst
      case h_2 => cases hst
      case h_1 hpc =>
          obtain ⟨lease, hk, rfl⟩ := Option.map_eq_some_iff.mp hst
          have hnone := h.early hc (.inl hpc)
          exact h.call hc ((h.calls hc).move (by rw [hpc]; rfl) hnone) fun _ => hnone
  | submitBorrowed c answer =>
      obtain ⟨call, hc, hst⟩ := Option.bind_eq_some_iff.mp hst
      split at hst
      case h_2 => cases hst
      case h_1 hpc =>
          have hnone := h.early hc (.inr hpc)
          have hrunning : call.pc.running = true := by rw [hpc]; rfl
          cases answer with
          | threw what =>
              cases hst
              exact h.call hc ((h.calls hc).move hrunning hnone) fun _ => hnone
          | returned status =>
              simp only at hst
              split at hst <;> cases hst
              · exact h.call hc ((h.calls hc).move hrunning hnone) fun _ => hnone
              · exact h.call hc ((h.calls hc).submit hrunning) nofun
  | setOwner c =>
      obtain ⟨call, hc, hst⟩ := Option.bind_eq_some_iff.mp hst
      split at hst
      case h_2 => cases hst
      case h_1 hpc =>
          obtain ⟨submission, hs, rfl⟩ := Option.map_eq_some_iff.mp hst
          exact h.call hc ((h.calls hc).setOwner hs (by rw [hpc]; rfl)) nofun
  | complete c status =>
      obtain ⟨call, hc, hst⟩ := Option.bind_eq_some_iff.mp hst
      obtain ⟨submission, hs, rfl⟩ := Option.map_eq_some_iff.mp hst
      refine h.call hc ((h.calls hc).complete hs status) fun hpc => ?_
      rw [h.early hc hpc] at hs
      cases hs
  | releaseSubmission c =>
      obtain ⟨call, hc, hst⟩ := Option.bind_eq_some_iff.mp hst
      obtain ⟨submission, hs, hst⟩ := Option.bind_eq_some_iff.mp hst
      split at hst
      case isTrue => cases hst
      case isFalse hguard =>
          cases hst
          simp only [Bool.or_eq_true, Bool.not_eq_true', not_or, Bool.not_eq_false] at hguard
          refine h.call hc ((h.calls hc).release hs hguard.2) fun hpc => ?_
          rw [h.early hc hpc] at hs
          cases hs
  | destroyPool =>
      simp only [Step, CpuPoolState.step] at hst
      split at hst <;> cases hst
      exact ⟨⟨h.sound, h.ascending, h.latest, h.acquisitions, h.fresh, h.called, h.calls, h.early⟩, .quiet⟩

/-! ## What holds in every reachable state -/

/-- The promises of the pool. -/
structure Safe (capacity : UInt32) (s : CpuPoolState) : Prop where
  exclusive : Exclusive s.pool.slots s.holds
  leases : ∃ leases : Finset Nat, (∀ k, k ∈ leases ↔ s.lease k ≠ none) ∧ leases.card = s.pool.inUse
  inUse : s.pool.inUse = used s.pool.slots
  inUse_le : s.pool.inUse ≤ capacity.toNat
  /-- Only an acquisition of a slot changes its generation, by one unless that is the last one. -/
  generation : ∀ l t slot old new, s.Step l t → s.pool.slots[slot]? = some old → t.pool.slots[slot]? = some new →
    new.generation = old.generation ∨
      t.issued = (slot, new.generation) :: s.issued ∧
        (old.generation + 1 < 2 ^ 64 → new.generation = old.generation + 1)
  ascending : ∀ slot, (issuedOf s.issued slot).length < 2 ^ 64 → (issuedOf s.issued slot).Pairwise (· > ·)
  stale : ∀ slot generation leaseNs, s.pool.slots[slot]? ≠ some ⟨true, generation⟩ →
    s.pool.recycle slot generation leaseNs = s.pool
  balance : s.pool.acquisitions = UInt64.ofNat (s.recycled + s.pool.inUse)
  /-- The slot of a submission that is not terminal has not been acquired since, and no step acquires it. -/
  retained : ∀ c call submission, s.call c = some call → call.submission = some submission →
    submission.state.terminal = false → ∃ lease, s.lease call.buffer = some lease ∧
      s.pool.slots[lease.slot]? = some ⟨true, lease.generation⟩ ∧
      (issuedOf s.issued lease.slot).head? = some lease.generation ∧
      ∀ l t, s.Step l t → issuedOf t.issued lease.slot = issuedOf s.issued lease.slot

/-- The lease of a submission that is not terminal is there. -/
theorem Books.lease_of_pending (h : Books capacity s) {call : SubmitCall} {submission : OwningSubmission}
    (hc : s.call c = some call) (hs : call.submission = some submission) (hpending : submission.state.terminal = false) :
    ∃ lease, s.lease call.buffer = some lease := by
  have hcall := h.calls hc
  rcases hcall.pending hs hpending with hpc | howner
  · obtain ⟨lease, hlease, -⟩ := hcall.running (by rw [hpc]; rfl)
    exact ⟨lease, hlease⟩
  · obtain ⟨-, -, hlease⟩ := hcall.owner hs howner
    exact Option.ne_none_iff_exists'.mp hlease

theorem Books.safe (h : Books capacity s) : Safe capacity s where
  exclusive := h.sound.exclusive
  leases := by
    obtain ⟨leases, hmem, hcard⟩ := h.sound.exclusive.card_eq
    refine ⟨leases, fun k => ?_, hcard.trans h.sound.inUse.symm⟩
    rw [hmem]
    simp [ledger, holds]
  inUse := h.sound.inUse
  inUse_le := h.sound.inUse_le
  generation l t slot old new hst hold hnew := (h.step hst).step.generation_eq h.sound.exclusive hold hnew
  ascending := h.ascending
  stale _ _ _ := CpuFramePool.recycle_stale
  balance := by
    rw [h.acquisitions]
    exact congrArg UInt64.ofNat h.sound.balance
  retained c call submission hc hs hpending := by
    obtain ⟨lease, hlease⟩ := h.lease_of_pending hc hs hpending
    have hheld : s.holds call.buffer = some (lease.slot, lease.generation) := by rw [holds, hlease]; rfl
    have hat : s.pool.slots[lease.slot]? = some ⟨true, lease.generation⟩ := h.sound.exclusive.held hheld
    exact ⟨lease, hlease, hat, h.latest hheld, fun l t hst => (h.step hst).step.issuedOf_of_inUse hat⟩

end CpuPoolState

/-- The pool keeps its promises in every state that its callers, the worker and the destructors of the leases can reach. -/
theorem buffer_slots_retained {capacity : UInt32} {ls : List CpuPoolLabel} {s : CpuPoolState}
    (h : Run CpuPoolState.Step (.init capacity) ls s) : s.Safe capacity := by
  have hbooks : CpuPoolState.Books capacity s := h.invariant (.init capacity) fun hs hst => (hs.step hst).books
  exact hbooks.safe

/-- A pool of one slot: the buffer is released while its submission is pending, the pool is destroyed, and the slot comes back
behind the completion. -/
theorem buffer_slots_retained_small : ∃ s, Run CpuPoolState.Step (.init 1)
    [.acquire 0 0, .acquire 0 0, .enter 0, .getView 0, .submitBorrowed 0 (.returned .ok), .setOwner 0, .releaseBuffer 0,
      .acquire 5 5000000, .destroyPool, .complete 0 .ok, .recycle 0 7, .releaseSubmission 0] s ∧ s.Safe 1 := by
  have hrun : ∃ s, exec CpuPoolState.step (.init 1)
      [.acquire 0 0, .acquire 0 0, .enter 0, .getView 0, .submitBorrowed 0 (.returned .ok), .setOwner 0, .releaseBuffer 0,
        .acquire 5 5000000, .destroyPool, .complete 0 .ok, .recycle 0 7, .releaseSubmission 0] = some s := ⟨_, rfl⟩
  obtain ⟨s, hs⟩ := hrun
  exact ⟨s, Run.of_exec hs, buffer_slots_retained (Run.of_exec hs)⟩

/-! ## The last generation -/

/-- A pool of one slot, which is free. -/
structure CpuPoolState.Idle (generation : Nat) (s : CpuPoolState) : Prop where
  owner : s.owner = true
  calls : s.calls = 0
  slots : s.pool.slots = [⟨false, generation⟩]

/-- The slot is acquired and given back. -/
theorem CpuPoolState.Idle.cycle {generation : Nat} {s : CpuPoolState} (h : s.Idle generation) :
    ∃ ls t, Run Step s ls t ∧ t.Idle ((generation + 1) % 2 ^ 64) ∧
      t.issued = (0, (generation + 1) % 2 ^ 64) :: s.issued := by
  obtain ⟨howner, hcalls, hslots⟩ := h
  have hrun : ∃ t, exec CpuPoolState.step s [.acquire 0 0, .releaseBuffer s.next, .recycle s.next 0] = some t ∧
      t.Idle ((generation + 1) % 2 ^ 64) ∧ t.issued = (0, (generation + 1) % 2 ^ 64) :: s.issued := by
    have hfree : firstFree [⟨false, generation⟩] = some 0 := rfl
    simp only [exec, CpuPoolState.step, alive, howner, CpuFramePool.acquire, hslots, hfree, setLease, busy, owned, anyCall,
      hcalls, CpuFramePool.recycle, giveBack]
    simp [Idle.mk]
  obtain ⟨t, ht, hidle, hissued⟩ := hrun
  exact ⟨_, t, Run.of_exec ht, hidle, hissued⟩

theorem exists_slot_generation (n : Nat) (hn : n < 2 ^ 64) :
    ∃ ls s, Run CpuPoolState.Step (.init 1) ls s ∧ s.Idle n := by
  induction n with
  | zero => exact ⟨[], .init 1, .nil, rfl, rfl, rfl⟩
  | succ n ih =>
      obtain ⟨ls, s, hrun, hs⟩ := ih (Nat.lt_of_succ_lt hn)
      obtain ⟨ls', t, hrun', ht, -⟩ := hs.cycle
      rw [Nat.mod_eq_of_lt hn] at ht
      exact ⟨ls ++ ls', t, hrun.append hrun', ht⟩

/-- Behind the last generation of a slot comes the generation 0. -/
theorem generation_wraps : ∃ ls s ls' t, Run CpuPoolState.Step (.init 1) ls s ∧ Run CpuPoolState.Step s ls' t ∧
    s.pool.slots = [⟨false, 2 ^ 64 - 1⟩] ∧ t.pool.slots = [⟨false, 0⟩] ∧ t.issued = (0, 0) :: s.issued := by
  obtain ⟨ls, s, hrun, hs⟩ := exists_slot_generation (2 ^ 64 - 1) (by omega)
  obtain ⟨ls', t, hrun', ht, hissued⟩ := hs.cycle
  exact ⟨ls, s, ls', t, hrun, hrun', hs.slots, ht.slots, hissued⟩

end MkvCodec.Encoder
