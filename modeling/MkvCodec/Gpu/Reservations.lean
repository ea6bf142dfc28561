import MkvCodec.Gpu.ResourcePool

/-!
# Reservations are exclusive

Every slot in use is held by exactly one client behind its mark or by exactly one live reservation, whatever order the
steps of the pool come in.
-/

namespace MkvCodec.Gpu

open Concurrency SlotPool

/-! ## The operations of the pool -/

theorem nextGeneration_ne_zero (generation : Nat) : nextGeneration generation ≠ 0 := by
  rw [nextGeneration]
  split
  · exact Nat.one_ne_zero
  · assumption

theorem nextGeneration_of_lt {generation : Nat} (h : generation + 1 < 2 ^ 64) :
    nextGeneration generation = generation + 1 := by
  rw [nextGeneration, Nat.mod_eq_of_lt h, if_neg (Nat.succ_ne_zero generation)]

namespace ResourcePool

variable {p p' : ResourcePool} {index generation : Nat}

/-- What a mark does. -/
theorem mark_some (h : p.mark = some (p', index, generation)) :
    ∃ g, p.slots[index]? = some ⟨false, g⟩ ∧ generation = nextGeneration g ∧
      p' = { p with
        slots := p.slots.set index ⟨true, generation⟩
        inUse := u32 (p.inUse + 1)
        acquisitions := p.acquisitions + 1
        peakInUse := max p.peakInUse (u32 (p.inUse + 1)) } := by
  obtain ⟨i, hi, hmap⟩ := Option.bind_eq_some_iff.mp h
  obtain ⟨g, hg⟩ := firstFree_some hi
  rw [hg, Option.map_some] at hmap
  cases hmap
  exact ⟨g, hg, rfl, rfl⟩

theorem release_held (h : p.slots[index]? = some ⟨true, generation⟩) (hpos : 0 < p.inUse) :
    p.release index generation =
      { p with slots := p.slots.set index ⟨false, generation⟩, inUse := p.inUse - 1 } := by
  simp [release, giveBack_some h, Nat.ne_of_gt hpos]

theorem release_stale (h : p.slots[index]? ≠ some ⟨true, generation⟩) : p.release index generation = p := by
  simp [release, giveBack_stale h]

end ResourcePool

/-! ## The books -/

def AcquirePc.held : AcquirePc → Option (Nat × Nat)
  | .marked slot generation => some (slot, generation)
  | _ => none

variable {ι : Type*}

namespace PoolState

/-- What holds a slot: a client behind its mark or a reservation. -/
def holds (s : PoolState ι) : ι ⊕ Nat → Option (Nat × Nat)
  | .inl i => (s.client i).held
  | .inr k => s.reservation k

def ledger (s : PoolState ι) : Ledger (ι ⊕ Nat) := ⟨s.pool.slots, s.pool.inUse, s.holds, s.issued, s.released⟩

/-- The books are right, and so is the code's own count. -/
structure Books (capacity : UInt32) (s : PoolState ι) : Prop where
  sound : s.ledger.Sound (2 ^ 64) capacity.toNat
  acquisitions : s.pool.acquisitions = UInt64.ofNat s.issued.length
  nonzero : ∀ claim ∈ s.issued, claim.2 ≠ 0
  fresh : ∀ k, s.created ≤ k → s.reservation k = none

variable [DecidableEq ι]

theorem holds_client (s : PoolState ι) (i : ι) (pc : AcquirePc) :
    (s.move i pc).holds = Function.update s.holds (.inl i) pc.held := by
  funext k
  cases k with
  | inl j =>
      by_cases hj : j = i
      · subst hj
        simp [holds, move]
      · simp [holds, move, hj]
  | inr k => simp [holds, move]

theorem holds_reservation (s : PoolState ι) (k : Nat) (held : Option (Nat × Nat)) :
    { s with reservation := Function.update s.reservation k held }.holds = Function.update s.holds (.inr k) held := by
  funext j
  cases j with
  | inl i => simp [holds]
  | inr j =>
      by_cases hj : j = k
      · subst hj
        simp [holds]
      · simp [holds, hj]

variable {capacity : UInt32} {s t : PoolState ι} {l : PoolLabel ι}

theorem Books.init (ι : Type*) (capacity : UInt32) : Books capacity (.init ι capacity) := by
  refine ⟨?_, rfl, fun _ h => absurd h List.not_mem_nil, fun _ _ => rfl⟩
  have hholds : (PoolState.init ι capacity).holds = fun _ => none := by
    funext k
    cases k <;> rfl
  rw [ledger, hholds]
  exact Ledger.sound_new _ _

omit [DecidableEq ι] in
/-- A step that is one of the books keeps them right. -/
theorem Books.after [DecidableEq (ι ⊕ Nat)] (h : Books capacity s) {b : Ledger (ι ⊕ Nat)}
    (hstep : Ledger.Step (2 ^ 64) s.ledger b) (ht : t.ledger = b) : t.ledger.Sound (2 ^ 64) capacity.toNat := by
  rw [ht]
  exact hstep.sound h.sound

omit [DecidableEq ι] in
theorem Books.held (h : Books capacity s) {k : ι ⊕ Nat} {slot generation : Nat}
    (hk : s.holds k = some (slot, generation)) :
    s.pool.slots[slot]? = some ⟨true, generation⟩ ∧ 0 < s.pool.inUse :=
  ⟨h.sound.exclusive.held hk, h.sound.inUse_pos hk⟩

/-- A client that holds nothing leaves the books as they are. -/
theorem Books.quiet (h : Books capacity s) (p : ResourcePool) (hslots : p.slots = s.pool.slots)
    (hinUse : p.inUse = s.pool.inUse) (hacquisitions : p.acquisitions = s.pool.acquisitions) {i : ι} (pc : AcquirePc)
    (hpc : pc.held = none) (hnone : (s.client i).held = none) : Books capacity { s.move i pc with pool := p } := by
  have hholds : (s.move i pc).holds = s.holds := by
    rw [holds_client, hpc]
    exact Function.update_eq_self_iff.mpr hnone.symm
  exact ⟨h.after .quiet (Ledger.ext hslots hinUse hholds rfl rfl), hacquisitions.trans h.acquisitions, h.nonzero, h.fresh⟩

/-- A mark is a claim. -/
theorem Books.mark (h : Books capacity s) (p : ResourcePool) (hslots : p.slots = s.pool.slots)
    (hinUse : p.inUse = s.pool.inUse) (hacquisitions : p.acquisitions = s.pool.acquisitions) {i : ι}
    (hnone : (s.client i).held = none) (ht : s.marks i p = some t) : Books capacity t := by
  obtain ⟨⟨p', index, generation⟩, hmark, rfl⟩ := Option.map_eq_some_iff.mp ht
  obtain ⟨g, hfree, rfl, rfl⟩ := ResourcePool.mark_some hmark
  rw [hslots] at hfree
  have hheld : s.holds (.inl i) = none := hnone
  refine ⟨?_, ?_, ?_, h.fresh⟩
  · have hlt := h.sound.inUse_lt hfree
    have hcount : u32 (p.inUse + 1) = s.pool.inUse + 1 := by
      rw [hinUse]
      exact u32_of_lt (Nat.lt_of_le_of_lt hlt capacity.toNat_lt)
    have hsets : p.slots.set index ⟨true, nextGeneration g⟩ = s.pool.slots.set index ⟨true, nextGeneration g⟩ := by
      rw [hslots]
    exact h.after (.claim (Sum.inl i) index g (nextGeneration g) hheld hfree nextGeneration_of_lt)
      (Ledger.ext hsets hcount (holds_client s i (.marked index (nextGeneration g))) rfl rfl)
  · simp only [hacquisitions, h.acquisitions, List.length_cons, UInt64.ofNat_add]
    rfl
  · intro claim hclaim
    rcases List.mem_cons.mp hclaim with rfl | hclaim
    · exact nextGeneration_ne_zero g
    · exact h.nonzero claim hclaim

/-- The slot passes from the client to its reservation. -/
theorem Books.construct (h : Books capacity s) {i : ι} {index generation : Nat} {answer : Option AcquireAnswer}
    (hi : s.client i = .marked index generation) :
    Books capacity { s.move i (.outside answer) with
      reservation := Function.update s.reservation s.created (some (index, generation))
      created := s.created + 1 } := by
  have hk : s.holds (.inl i) = some (index, generation) := congrArg AcquirePc.held hi
  have hnone : s.holds (.inr s.created) = none := h.fresh s.created (Nat.le_refl _)
  refine ⟨?_, h.acquisitions, h.nonzero, fun k hle => ?_⟩
  · have hholds := holds_reservation (s.move i (.outside answer)) s.created (some (index, generation))
    rw [holds_client] at hholds
    exact h.after (.pass (Sum.inl i) (Sum.inr s.created) index generation hk hnone) (Ledger.ext rfl rfl hholds rfl rfl)
  · have hne : k ≠ s.created := Nat.ne_of_gt hle
    simp only [Function.update_of_ne hne]
    exact h.fresh k (Nat.le_of_succ_le hle)

/-- A holder gives its slot back, and holds nothing behind that. -/
theorem Books.give (h : Books capacity s) {k : ι ⊕ Nat} {index generation : Nat}
    (hk : s.holds k = some (index, generation)) (hpool : t.pool = (s.give index generation).pool)
    (hreleased : t.released = (s.give index generation).released) (hholds : t.holds = Function.update s.holds k none)
    (hissued : t.issued = s.issued) (hfresh : ∀ k, t.created ≤ k → t.reservation k = none) : Books capacity t := by
  obtain ⟨hat, hpos⟩ := h.held hk
  simp only [PoolState.give, ResourcePool.release_held hat hpos] at hpool
  simp only [PoolState.give, giveBack_some hat, Option.isSome_some, if_true] at hreleased
  refine ⟨?_, ?_, hissued ▸ h.nonzero, hfresh⟩
  · exact h.after (.give k index generation hk) (Ledger.ext (congrArg ResourcePool.slots hpool)
      (congrArg ResourcePool.inUse hpool) hholds hissued hreleased)
  · rw [hpool, hissued]
    exact h.acquisitions

theorem Books.step (h : Books capacity s) (hst : s.Step l t) : Books capacity t := by
  cases l with
  | enter i timeoutMs =>
      simp only [Step, PoolState.step] at hst
      split at hst
      case h_2 => cases hst
      case h_1 answer hi =>
          have hnone : (s.client i).held = none := by rw [hi]; rfl
          split at hst
          · cases hst
          split at hst
          · exact h.mark s.pool rfl rfl rfl hnone hst
          split at hst
          · cases hst
            exact h.quiet s.pool.reject rfl rfl rfl (.outside _) rfl hnone
          · cases hst
            exact h.quiet s.pool rfl rfl rfl (.waiting timeoutMs) rfl hnone
  | wake i ns =>
      simp only [Step, PoolState.step] at hst
      split at hst
      case h_2 => cases hst
      case h_1 timeoutMs hi =>
          split at hst
          · exact h.mark (s.pool.waited ns) rfl rfl rfl (by rw [hi]; rfl) hst
          · cases hst
  | timeout i ns =>
      simp only [Step, PoolState.step] at hst
      split at hst
      case h_2 => cases hst
      case h_1 timeoutMs hi =>
          split at hst
          · cases hst
          · cases hst
            exact h.quiet (s.pool.waited ns).reject rfl rfl rfl (.outside _) rfl (by rw [hi]; rfl)
  | construct i =>
      simp only [Step, PoolState.step] at hst
      split at hst
      case h_2 => cases hst
      case h_1 slot generation hi =>
          split at hst
          · cases hst
          · cases hst
            exact h.construct hi
  | fail i =>
      simp only [Step, PoolState.step] at hst
      split at hst
      case h_2 => cases hst
      case h_1 slot generation hi =>
          split at hst
          · cases hst
          · cases hst
            have hk : s.holds (.inl i) = some (slot, generation) := congrArg AcquirePc.held hi
            exact h.give hk rfl rfl (holds_client _ _ _) rfl h.fresh
  | release k =>
      simp only [Step, PoolState.step] at hst
      split at hst
      · cases hst
      case h_2 slot generation hk =>
          cases hst
          have hheld : s.holds (.inr k) = some (slot, generation) := hk
          refine h.give hheld rfl rfl (holds_reservation _ _ _) rfl fun k' hle => ?_
          by_cases hkk : k' = k
          · simp [hkk]
          · simp only [Function.update_of_ne hkk]
            exact h.fresh k' hle
  | destroyOwner =>
      simp only [Step, PoolState.step] at hst
      split at hst
      · cases hst
        exact ⟨h.sound, h.acquisitions, h.nonzero, h.fresh⟩
      · cases hst

/-! ## What holds in every reachable state -/

/-- The promises of the pool. -/
structure Safe (capacity : UInt32) (s : PoolState ι) : Prop where
  holders : ∃ holders : Finset (ι ⊕ Nat), (∀ k, k ∈ holders ↔ s.holds k ≠ none) ∧ holders.card = s.pool.inUse
  inUse : s.pool.inUse = used s.pool.slots
  live : ∀ live : Finset Nat, (∀ k ∈ live, s.reservation k ≠ none) → live.card ≤ capacity.toNat
  alone : ∀ k k' slot g g', s.reservation k = some (slot, g) → s.reservation k' = some (slot, g') → k = k'
  nonzero : ∀ claim ∈ s.issued, claim.2 ≠ 0
  unique : ∀ slot, (issuedOf s.issued slot).length < 2 ^ 64 → (issuedOf s.issued slot).Nodup
  stale : ∀ slot generation, s.pool.slots[slot]? ≠ some ⟨true, generation⟩ → s.pool.release slot generation = s.pool
  /-- A construction that throws gives back what the mark took. -/
  failed : ∀ i t, s.Step (.fail i) t → ∃ slot generation, s.client i = .marked slot generation ∧
    s.pool.slots[slot]? = some ⟨true, generation⟩ ∧ t.reservation = s.reservation ∧
    t.pool = { s.pool with slots := s.pool.slots.set slot ⟨false, generation⟩, inUse := s.pool.inUse - 1 }
  /-- A call that finds no slot in time is only counted. -/
  timedOut : ∀ i ns t, s.Step (.timeout i ns) t → t.reservation = s.reservation ∧ t.issued = s.issued ∧
    t.pool = { s.pool with
      rejectedAcquisitions := s.pool.rejectedAcquisitions + 1
      waitNs := s.pool.waitNs + ns }
  refused : ∀ i timeoutMs t, s.Step (.enter i timeoutMs) t → t.client i = .outside (some (.returned poolFull)) →
    t.reservation = s.reservation ∧ t.issued = s.issued ∧
      t.pool = { s.pool with rejectedAcquisitions := s.pool.rejectedAcquisitions + 1 }
  acquisitions : s.pool.acquisitions = UInt64.ofNat (s.released + s.pool.inUse)

theorem fail_eq {i : ι} (h : s.Step (.fail i) t) : ∃ slot generation, s.client i = .marked slot generation ∧
    t = (s.give slot generation).move i (.outside (some .threw)) := by
  simp only [Step, PoolState.step] at h
  split at h
  case h_2 => cases h
  case h_1 slot generation hi =>
      split at h <;> cases h
      exact ⟨slot, generation, hi, rfl⟩

theorem timeout_eq {i : ι} {ns : UInt64} (h : s.Step (.timeout i ns) t) :
    t = { s.move i (.outside (some (.returned poolTimedOut))) with pool := (s.pool.waited ns).reject } := by
  simp only [Step, PoolState.step] at h
  split at h
  case h_2 => cases h
  case h_1 =>
      split at h <;> cases h
      rfl

/-- Only the call that does not wait answers that the pool is full. -/
theorem refused_eq {i : ι} {timeoutMs : UInt32} (h : s.Step (.enter i timeoutMs) t)
    (hi : t.client i = .outside (some (.returned poolFull))) :
    t = { s.move i (.outside (some (.returned poolFull))) with pool := s.pool.reject } := by
  simp only [Step, PoolState.step] at h
  split at h
  case h_2 => cases h
  case h_1 =>
      split at h
      · cases h
      split at h
      · obtain ⟨p, -, rfl⟩ := Option.map_eq_some_iff.mp h
        simp [move] at hi
      split at h
      · cases h
        rfl
      · cases h
        simp [move] at hi

omit [DecidableEq ι] in
/-- At most as many reservations are live as there are slots. -/
theorem Books.live_le [DecidableEq (ι ⊕ Nat)] (h : Books capacity s) {live : Finset Nat}
    (hlive : ∀ k ∈ live, s.reservation k ≠ none) : live.card ≤ capacity.toNat := by
  obtain ⟨holders, hmem, hcard⟩ := h.sound.exclusive.card_eq
  have hsub : live.map Function.Embedding.inr ⊆ holders := by
    intro k hk
    obtain ⟨n, hn, rfl⟩ := Finset.mem_map.mp hk
    exact (hmem _).mpr (hlive n hn)
  calc live.card = (live.map (Function.Embedding.inr : Nat ↪ ι ⊕ Nat)).card := (Finset.card_map _).symm
    _ ≤ holders.card := Finset.card_le_card hsub
    _ = s.pool.inUse := hcard.trans h.sound.inUse.symm
    _ ≤ capacity.toNat := h.sound.inUse_le

theorem Books.safe (h : Books capacity s) : Safe capacity s where
  holders := by
    obtain ⟨holders, hmem, hcard⟩ := h.sound.exclusive.card_eq
    exact ⟨holders, hmem, hcard.trans h.sound.inUse.symm⟩
  inUse := h.sound.inUse
  live _ := h.live_le
  alone k k' slot g g' hk hk' := Sum.inr.inj (h.sound.exclusive.inj (show s.holds (.inr k) = _ from hk) hk')
  nonzero := h.nonzero
  unique := h.sound.counts.nodup
  stale _ _ := ResourcePool.release_stale
  failed i t ht := by
    obtain ⟨slot, generation, hi, rfl⟩ := fail_eq ht
    have hk : s.holds (.inl i) = some (slot, generation) := congrArg AcquirePc.held hi
    obtain ⟨hat, hpos⟩ := h.held hk
    exact ⟨slot, generation, hi, hat, rfl, ResourcePool.release_held hat hpos⟩
  timedOut i ns t ht := by
    rw [timeout_eq ht]
    exact ⟨rfl, rfl, rfl⟩
  refused i timeoutMs t ht hi := by
    rw [refused_eq ht hi]
    exact ⟨rfl, rfl, rfl⟩
  acquisitions := by
    rw [h.acquisitions]
    exact congrArg UInt64.ofNat h.sound.balance

end PoolState

/-- The pool keeps its promises in every state that its clients, its reservations and its owner can reach. -/
theorem reservations_exclusive {ι : Type*} [DecidableEq ι] {capacity : UInt32} {ls : List (PoolLabel ι)}
    {s : PoolState ι} (h : Run PoolState.Step (.init ι capacity) ls s) : s.Safe capacity := by
  have hbooks : PoolState.Books capacity s := h.invariant (.init ι capacity) fun hs hst => hs.step hst
  exact hbooks.safe

/-- Two clients of a pool of one slot: the second one times out, and the first gives the slot back. -/
theorem reservations_exclusive_small : ∃ s, Run PoolState.Step (.init Bool 1)
    [.enter true 0, .construct true, .enter false 5, .timeout false 5000000, .release 0] s ∧ s.Safe 1 := by
  have hrun : ∃ s, exec PoolState.step (.init Bool 1)
      [.enter true 0, .construct true, .enter false 5, .timeout false 5000000, .release 0] = some s := ⟨_, rfl⟩
  obtain ⟨s, hs⟩ := hrun
  exact ⟨s, Run.of_exec hs, reservations_exclusive (Run.of_exec hs)⟩

/-! ## What is not undone -/

section

variable {ι : Type*} [DecidableEq ι]

/-- A pool of one slot, which is free, and a client that is outside. -/
structure PoolState.Idle (i : ι) (generation : Nat) (s : PoolState ι) : Prop where
  owner : s.owner = true
  outside : ∃ answer, s.client i = .outside answer
  slots : s.pool.slots = [⟨false, generation⟩]

/-- The client acquires the slot and releases it. -/
theorem PoolState.Idle.cycle {i : ι} {generation : Nat} {s : PoolState ι} (h : s.Idle i generation) :
    ∃ ls t, Run Step s ls t ∧ t.Idle i (nextGeneration generation) ∧
      t.issued = (0, nextGeneration generation) :: s.issued := by
  obtain ⟨howner, ⟨answer, hi⟩, hslots⟩ := h
  have havailable : s.pool.available = true := by simp [ResourcePool.available, hslots]
  have hrun : ∃ t, exec PoolState.step s [.enter i 0, .construct i, .release s.created] = some t ∧
      t.Idle i (nextGeneration generation) ∧ t.issued = (0, nextGeneration generation) :: s.issued := by
    have hfree : firstFree [⟨false, generation⟩] = some 0 := rfl
    simp only [exec, PoolState.step, hi, howner, havailable, PoolState.marks, ResourcePool.mark, hslots, hfree,
      PoolState.move, PoolState.alive, PoolState.give, ResourcePool.release, giveBack]
    simp [Idle.mk]
  obtain ⟨t, ht, hidle, hissued⟩ := hrun
  exact ⟨_, t, Run.of_exec ht, hidle, hissued⟩

theorem exists_generation (i : ι) (n : Nat) (hn : n + 1 < 2 ^ 64) :
    ∃ ls s, Run PoolState.Step (.init ι 1) ls s ∧ s.Idle i (n + 1) ∧ (0, 1) ∈ s.issued := by
  induction n with
  | zero =>
      have hidle : (PoolState.init ι 1).Idle i 0 := ⟨rfl, ⟨none, rfl⟩, rfl⟩
      obtain ⟨ls, s, hrun, hs, hissued⟩ := hidle.cycle
      exact ⟨ls, s, hrun, hs, hissued ▸ List.mem_cons_self⟩
  | succ n ih =>
      obtain ⟨ls, s, hrun, hs, hmem⟩ := ih (Nat.lt_of_succ_lt hn)
      obtain ⟨ls', t, hrun', ht, hissued⟩ := hs.cycle
      rw [nextGeneration_of_lt hn] at ht
      exact ⟨ls ++ ls', t, hrun.append hrun', ht, hissued ▸ List.mem_cons_of_mem _ hmem⟩

/-- Behind the last generation comes the first one. -/
theorem exists_generation_twice (i : ι) :
    ∃ ls s, Run PoolState.Step (.init ι 1) ls s ∧ ¬ (issuedOf s.issued 0).Nodup := by
  obtain ⟨ls, s, hrun, hs, hmem⟩ := exists_generation i (2 ^ 64 - 2) (by omega)
  obtain ⟨ls', t, hrun', -, hissued⟩ := hs.cycle
  refine ⟨ls ++ ls', t, hrun.append hrun', fun hnodup => ?_⟩
  have hnext : nextGeneration (2 ^ 64 - 2 + 1) = 1 := rfl
  rw [hissued, hnext, issuedOf_cons_self] at hnodup
  refine (List.nodup_cons.mp hnodup).1 ?_
  exact List.mem_map.mpr ⟨(0, 1), List.mem_filter.mpr ⟨hmem, rfl⟩, rfl⟩

end

/-- A call that times out leaves its mark in the counters, an acquisition that fails leaves one in the generation of its
slot, and a generation comes again behind 2^64 - 1 others. -/
theorem pool_not_restored :
    (∃ s t, Run PoolState.Step (.init Bool 1) [.enter true 0, .construct true, .enter false 5] s ∧
      s.Step (.timeout false 5000000) t ∧ t.pool ≠ s.pool) ∧
    (∃ t, Run PoolState.Step (.init Bool 1) [.enter true 0, .fail true] t ∧ t.pool ≠ (PoolState.init Bool 1).pool) ∧
    ∃ ls s, Run PoolState.Step (.init Bool 1) ls s ∧ ¬ (issuedOf s.issued 0).Nodup := by
  refine ⟨?_, ?_, exists_generation_twice true⟩
  · refine ⟨_, _, Run.of_exec rfl, rfl, fun h => ?_⟩
    have hcounter := congrArg ResourcePool.rejectedAcquisitions h
    exact absurd hcounter (by decide)
  · refine ⟨_, Run.of_exec rfl, fun h => ?_⟩
    have hslots := congrArg ResourcePool.slots h
    exact absurd hslots (by decide)

end MkvCodec.Gpu
