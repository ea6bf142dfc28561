import MkvCodec.Gpu.FramePool

/-!
# Slots of the GPU frame pool

As long as no release throws and no completion changes its mind in a destructor, the slots in use are those of the frames
whose callback has not returned one, and every frame releases its resource once.
-/

namespace MkvCodec.Gpu

open Concurrency SlotPool

variable {C : Type*}

/-! ## The operations of the pool -/

namespace GpuFramePool

variable {p p' : GpuFramePool} {index generation : Nat}

theorem acquire_ok {producer : Bool} (h : p.acquire producer = .ok (p', index, generation)) :
    producer = true ∧ ∃ g, p.slots[index]? = some ⟨false, g⟩ ∧ generation = (g + 1) % 2 ^ 64 ∧
      p' = ⟨p.slots.set index ⟨true, generation⟩, p.inUse + 1, max p.peakInUse (p.inUse + 1)⟩ := by
  rw [acquire] at h
  split at h
  · cases h
  case isFalse hvalid =>
      simp only [Bool.or_eq_true, Bool.not_eq_true', not_or, Bool.not_eq_false] at hvalid
      split at h
      · cases h
      case h_2 i hi =>
          obtain ⟨g, hg⟩ := firstFree_some hi
          simp only [hg, Except.ok.injEq, Prod.mk.injEq] at h
          obtain ⟨rfl, rfl, rfl⟩ := h
          exact ⟨hvalid.1, g, hg, rfl, rfl⟩

theorem recycle_held (h : p.slots[index]? = some ⟨true, generation⟩) (hpos : 0 < p.inUse) :
    p.recycle index generation = { p with slots := p.slots.set index ⟨false, generation⟩, inUse := p.inUse - 1 } := by
  simp [recycle, giveBack_some h, Nat.ne_of_gt hpos]

/-- `in_use` counts the slots in use. -/
def Counted (p : GpuFramePool) : Prop := p.inUse = used p.slots

theorem counted_new (capacity : Nat) : (GpuFramePool.new capacity).Counted := by
  simp [Counted, GpuFramePool.new, used, List.countP_replicate]

theorem Counted.acquire (h : p.Counted) (hroom : p.inUse < p.slots.length) :
    ∃ p' slot generation, p.acquire true = .ok (p', slot, generation) ∧ p'.Counted ∧ p'.slots.length = p.slots.length := by
  have hfree : ∃ index, firstFree p.slots = some index := by
    refine Option.ne_none_iff_exists'.mp fun hnone => ?_
    have hall := List.countP_eq_length.mpr (firstFree_none hnone)
    exact Nat.ne_of_lt hroom (h.trans hall)
  obtain ⟨index, hindex⟩ := hfree
  obtain ⟨g, hg⟩ := firstFree_some hindex
  have hslots : p.slots.isEmpty = false := by
    rw [List.isEmpty_eq_false_iff]
    rintro hnil
    simp [hnil] at hroom
  have hacquire : p.acquire true = .ok (⟨p.slots.set index ⟨true, (g + 1) % 2 ^ 64⟩, p.inUse + 1,
      max p.peakInUse (p.inUse + 1)⟩, index, (g + 1) % 2 ^ 64) := by
    simp [GpuFramePool.acquire, hslots, hindex, hg]
  refine ⟨_, _, _, hacquire, ?_, List.length_set⟩
  rw [Counted, used_claim hg, h]

/-- A slot comes back under its generation, or nothing happens. -/
theorem Counted.recycle (h : p.Counted) (slot generation : Nat) :
    (p.recycle slot generation).Counted ∧ (p.recycle slot generation).slots.length = p.slots.length := by
  by_cases hat : p.slots[slot]? = some ⟨true, generation⟩
  · have hpos : 0 < p.inUse := by
      rw [h]
      exact used_pos hat
    rw [recycle_held hat hpos]
    refine ⟨?_, List.length_set⟩
    have hgive := used_give hat
    rw [Counted, h]
    exact Nat.sub_eq_of_eq_add hgive.symm
  · have hstale : p.recycle slot generation = p := by simp [GpuFramePool.recycle, giveBack_stale hat]
    rw [hstale]
    exact ⟨h, rfl⟩

theorem Counted.recycleAll {F : Type*} (h : p.Counted) (frames : List F) (slot generation : F → Nat) :
    (frames.foldl (fun pool frame => pool.recycle (slot frame) (generation frame)) p).Counted ∧
      (frames.foldl (fun pool frame => pool.recycle (slot frame) (generation frame)) p).slots.length = p.slots.length := by
  induction frames generalizing p with
  | nil => exact ⟨h, rfl⟩
  | cons frame frames ih =>
      obtain ⟨hcounted, hlength⟩ := h.recycle (slot frame) (generation frame)
      obtain ⟨hall, hlengths⟩ := ih hcounted
      exact ⟨hall, hlengths.trans hlength⟩

end GpuFramePool

/-! ## The frames -/

/-- What a section makes of a core: it recycles it, or only the leases and the consumers change. -/
inductive CoreSection (a : GpuFrameCore C) : GpuFrameCore C × Option Nat → Prop
  | quiet (b : GpuFrameCore C) (hdesc : b.desc = a.desc) (hproducer : b.producer = a.producer)
      (hrecycled : b.recycled = a.recycled) : CoreSection a (b, none)
  | recycle (b : GpuFrameCore C) (hdesc : b.desc = a.desc) (hproducer : b.producer = a.producer)
      (hbefore : a.recycled = false) (hrecycled : b.recycled = true) : CoreSection a (b, some a.desc.generation)

theorem coreSection_maybeRecycle (states : C → CompletionState) (a : GpuFrameCore C) (leases : Nat) :
    CoreSection a (GpuFrameCore.maybeRecycle states { a with externalLeases := leases }) := by
  rcases GpuFrameCore.maybeRecycle_cases states { a with externalLeases := leases } with ⟨heq, -⟩ | ⟨heq, hrecycled, -, -⟩
  · rw [heq]
    exact .quiet _ rfl rfl rfl
  · rw [heq]
    exact .recycle _ rfl rfl hrecycled rfl

theorem PooledUse.coreSection (u : PooledUse C) (states : C → CompletionState) (a : GpuFrameCore C) :
    CoreSection a (u.run states a) := by
  cases u with
  | acquireExternal =>
      simp only [run, GpuFrameCore.acquireExternal]
      split <;> rename_i heq <;> split at heq <;> cases heq <;> exact .quiet _ rfl rfl rfl
  | releaseExternal => exact coreSection_maybeRecycle states a _
  | addConsumer completion =>
      simp only [run, GpuFrameCore.addConsumer]
      cases completion with
      | none => exact .quiet _ rfl rfl rfl
      | some completion =>
          simp only
          split <;> exact .quiet _ rfl rfl rfl
  | poll => exact coreSection_maybeRecycle states a a.externalLeases

namespace PooledFrame

variable {f : PooledFrame C}

/-- The slot that the frame occupies. -/
def held (f : PooledFrame C) : Option (Nat × Nat) :=
  match f.life, f.call with
  | .failed, _ | _, .finished | _, .threw => none
  | _, _ => some (f.slot, f.generation)

end PooledFrame

/-- The release of the resource has been called. -/
def RecycleCall.ran : RecycleCall → Bool
  | .notCalled | .called _ => false
  | _ => true

/-- The callback cannot have been called yet. -/
def PooledLife.early : PooledLife C → Bool
  | .constructing | .dying _ | .failed => true
  | _ => false

namespace PooledFrame

variable {f : PooledFrame C} {r : GpuFrameCore C × Option Nat}

structure Sound (f : PooledFrame C) : Prop where
  desc : f.core.desc.generation = f.generation
  producer : f.core.producer ≠ none
  recycled : f.core.recycled = true ↔ f.call ≠ .notCalled
  generation : ∀ g, f.call = .called g ∨ f.call = .released g → g = f.generation
  calm : f.call ≠ .threw
  releases : f.releases = if f.hasRelease && f.call.ran then 1 else 0
  early : f.life.early = true → f.call = .notCalled
  destroyed : f.life = .destroyed → f.call ≠ .notCalled

theorem after_life (f : PooledFrame C) (r : GpuFrameCore C × Option Nat) : (f.after r).life = f.life := by
  rw [after]
  split <;> rfl

theorem Sound.after (h : f.Sound) (hlife : f.life = .alive) (hr : CoreSection f.core r) :
    (f.after r).Sound ∧ (f.after r).held = f.held := by
  cases hr with
  | quiet b hdesc hproducer hrecycled =>
      refine ⟨?_, rfl⟩
      exact {
        desc := (congrArg GpuFrameDesc.generation hdesc).trans h.desc
        producer := hproducer ▸ h.producer
        recycled := hrecycled ▸ h.recycled
        generation := h.generation
        calm := h.calm
        releases := h.releases
        early := h.early
        destroyed := h.destroyed }
  | recycle b hdesc hproducer hbefore hrecycled =>
      have hcall : f.call = .notCalled := by
        by_contra hne
        rw [h.recycled.mpr hne] at hbefore
        cases hbefore
      constructor
      · exact {
          desc := (congrArg GpuFrameDesc.generation hdesc).trans h.desc
          producer := hproducer ▸ h.producer
          recycled := iff_of_true hrecycled nofun
          generation := by
            rintro g (⟨⟨⟩⟩ | ⟨⟨⟩⟩)
            exact h.desc
          calm := nofun
          releases := by simpa [PooledFrame.after, hcall, RecycleCall.ran] using h.releases
          early := fun hearly => by simp [PooledFrame.after, hlife, PooledLife.early] at hearly
          destroyed := nofun }
      · simp [PooledFrame.after, held, hlife, hcall]

/-- The last section of the destructor, when nothing is pending. -/
theorem Sound.destroy (h : f.Sound) {waits : List (Completion C)} (hlife : f.life = .dying waits)
    {states : C → CompletionState} (hcalm : ∀ completion ∈ f.core.completions, (completion.query states).isPending = false) :
    Sound { f.after (f.core.destroy states) with life := .destroyed } ∧
      held { f.after (f.core.destroy states) with life := .destroyed } = f.held := by
  have hcall : f.call = .notCalled := h.early (by rw [hlife]; rfl)
  have hbefore : f.core.recycled = false := by
    rw [Bool.eq_false_iff]
    exact fun hr => h.recycled.mp hr hcall
  have hdestroy : f.core.destroy states =
      ({ f.core with externalLeases := 0, recycled := true }, some f.core.desc.generation) := by
    rcases GpuFrameCore.maybeRecycle_cases states { f.core with externalLeases := 0 } with
      ⟨-, hr | hr | hr⟩ | ⟨heq, -, -, -⟩
    · exact absurd hr (Bool.eq_false_iff.mp hbefore)
    · exact absurd rfl hr
    · exact absurd ⟨h.producer, hcalm⟩ hr
    · exact heq
  rw [hdestroy]
  constructor
  · exact {
      desc := h.desc
      producer := h.producer
      recycled := iff_of_true rfl nofun
      generation := by
        rintro g (⟨⟨⟩⟩ | ⟨⟨⟩⟩)
        exact h.desc
      calm := nofun
      releases := by simpa [PooledFrame.after, hcall, RecycleCall.ran] using h.releases
      early := nofun
      destroyed := fun _ => nofun }
  · simp [PooledFrame.after, held, hlife, hcall]

theorem Sound.release (h : f.Sound) {generation : Nat} (hcall : f.call = .called generation) :
    Sound { f with
        call := .released generation
        releases := if f.hasRelease then f.releases + 1 else f.releases } ∧
      held { f with
        call := .released generation
        releases := if f.hasRelease then f.releases + 1 else f.releases } = f.held := by
  have hreleases := h.releases
  constructor
  · exact {
      desc := h.desc
      producer := h.producer
      recycled := iff_of_true (h.recycled.mpr (by simp [hcall])) nofun
      generation := by
        rintro g (⟨⟨⟩⟩ | ⟨⟨⟩⟩)
        exact h.generation _ (.inl hcall)
      calm := nofun
      releases := by
        cases hrelease : f.hasRelease <;> simp [hcall, hrelease, RecycleCall.ran] at hreleases ⊢ <;> exact hreleases
      early := fun hearly => absurd (h.early hearly) (by simp [hcall])
      destroyed := fun _ => nofun }
  · cases hlife : f.life <;> simp [held, hlife, hcall]

theorem Sound.finish (h : f.Sound) {generation : Nat} (hcall : f.call = .released generation) :
    Sound { f with call := .finished } ∧ f.held = some (f.slot, f.generation) ∧ held { f with call := .finished } = none := by
  refine ⟨?_, ?_, ?_⟩
  · exact {
      desc := h.desc
      producer := h.producer
      recycled := iff_of_true (h.recycled.mpr (by simp [hcall])) nofun
      generation := nofun
      calm := nofun
      releases := by simpa [hcall, RecycleCall.ran] using h.releases
      early := fun hearly => absurd (h.early hearly) (by simp [hcall])
      destroyed := fun _ => nofun }
  · have hlife : f.life ≠ .failed := fun hlife => by simpa [hcall] using h.early (by rw [hlife]; rfl)
    cases hl : f.life <;> simp [held, hl, hcall] at hlife ⊢
  · cases hlife : f.life <;> simp [held]

theorem Sound.held_cases (h : f.Sound) :
    f.held = some (f.slot, f.generation) ∨ f.life = .failed ∨ f.call = .finished := by
  have hcalm := h.calm
  cases hlife : f.life <;> cases hcall : f.call <;> simp [held, hlife, hcall] at hcalm ⊢

/-- The callback is not called between the parts of an acquisition and of a destruction. -/
theorem Sound.live (h : f.Sound) {life : PooledLife C} (hearly : life.early = true → f.call = .notCalled)
    (hdestroyed : life = .destroyed → f.call ≠ .notCalled) : Sound { f with life := life } where
  desc := h.desc
  producer := h.producer
  recycled := h.recycled
  generation := h.generation
  calm := h.calm
  releases := h.releases
  early := hearly
  destroyed := hdestroyed

end PooledFrame

/-! ## The books -/

namespace FramePoolState

/-- The slot that a frame occupies. -/
def holds (s : FramePoolState C) (k : Nat) : Option (Nat × Nat) := (s.frame k).bind PooledFrame.held

def ledger (s : FramePoolState C) : Ledger Nat := ⟨s.pool.slots, s.pool.inUse, s.holds, s.issued, s.returned⟩

variable {capacity : Nat} {s t : FramePoolState C} {l : FramePoolLabel C} {k : Nat} {f f' : PooledFrame C}

structure Sound (capacity : Nat) (s : FramePoolState C) : Prop where
  ledger : s.alive = true → s.ledger.Sound (2 ^ 64) capacity
  frames : ∀ k f, s.frame k = some f → f.Sound
  fresh : ∀ k, s.next ≤ k → s.frame k = none
  alone : ∀ k k' slot g g', s.holds k = some (slot, g) → s.holds k' = some (slot, g') → k = k'
  constructing : ∀ k f, s.frame k = some f → f.life = .constructing → s.alive = true
  positive : ∀ i, (issuedOf s.issued i).length < 2 ^ 64 → ∀ g ∈ issuedOf s.issued i, 0 < g
  unique : ∀ i, (issuedOf s.issued i).length ≤ 2 ^ 64 → (issuedOf s.issued i).Nodup

theorem sound_init (capacity : Nat) (states : C → CompletionState) : (init capacity states).Sound capacity where
  ledger _ := Ledger.sound_new _ _
  frames _ _ hk := by cases hk
  fresh _ _ := rfl
  alone _ _ _ _ _ hk := by cases hk
  constructing _ _ hk := by cases hk
  positive _ _ _ hg := absurd hg List.not_mem_nil
  unique _ _ := List.nodup_nil

theorem frame_set (s : FramePoolState C) (k : Nat) (f : PooledFrame C) :
    (s.set k f).frame = Function.update s.frame k (some f) := rfl

theorem holds_set (s : FramePoolState C) (k : Nat) (f : PooledFrame C) :
    (s.set k f).holds = Function.update s.holds k f.held := by
  funext k'
  by_cases hk : k' = k
  · subst hk
    simp [holds, set]
  · simp [holds, set, hk]

theorem frame_cases {f'' : PooledFrame C} {k' : Nat} (h : (s.set k f).frame k' = some f'') :
    k' = k ∧ f'' = f ∨ k' ≠ k ∧ s.frame k' = some f'' := by
  rw [frame_set] at h
  by_cases hk : k' = k
  · subst hk
    rw [Function.update_self] at h
    exact .inl ⟨rfl, (Option.some.inj h).symm⟩
  · rw [Function.update_of_ne hk] at h
    exact .inr ⟨hk, h⟩

theorem ledger_after {a b : Ledger Nat} (h : a.Sound (2 ^ 64) capacity) (hstep : Ledger.Step (2 ^ 64) a b)
    (ht : t.ledger = b) : t.ledger.Sound (2 ^ 64) capacity := by
  rw [ht]
  exact hstep.sound h

/-- A frame goes on and keeps its slot. -/
theorem Sound.quiet (h : s.Sound capacity) (hk : s.frame k = some f) (hf : f'.Sound) (hheld : f'.held = f.held)
    (hlife : f'.life ≠ .constructing) : (s.set k f').Sound capacity := by
  have hholds : (s.set k f').holds = s.holds := by
    rw [holds_set, hheld]
    refine Function.update_eq_self_iff.mpr ?_
    rw [holds, hk, Option.bind_some]
  exact {
    ledger := fun halive => by
      have hledger : (s.set k f').ledger = s.ledger := Ledger.ext rfl rfl hholds rfl rfl
      exact hledger ▸ h.ledger halive
    frames := fun k' f'' hk' => by
      rcases frame_cases hk' with ⟨rfl, rfl⟩ | ⟨-, hk'⟩
      · exact hf
      · exact h.frames k' f'' hk'
    fresh := fun k' hle => by
      have hne : k' ≠ k := by
        rintro rfl
        rw [h.fresh k' hle] at hk
        cases hk
      rw [frame_set, Function.update_of_ne hne]
      exact h.fresh k' hle
    alone := hholds ▸ h.alone
    constructing := fun k' f'' hk' hconstructing => by
      rcases frame_cases hk' with ⟨rfl, rfl⟩ | ⟨-, hk'⟩
      · exact absurd hconstructing hlife
      · exact h.constructing k' f'' hk' hconstructing
    positive := h.positive
    unique := h.unique }

/-- A frame gives up its slot, which comes back when the pool is still there. -/
theorem Sound.leave (h : s.Sound capacity) (hk : s.frame k = some f) (hf : f'.Sound)
    (hheld : f.held = some (f.slot, f.generation)) (hnone : f'.held = none) (hlife : f'.life ≠ .constructing) :
    ((if s.alive then s.give f.slot f.generation else s).set k f').Sound capacity := by
  have hslot : s.holds k = some (f.slot, f.generation) := by rw [holds, hk, Option.bind_some, hheld]
  have hholds {a : FramePoolState C} (ha : a.frame = s.frame) : (a.set k f').holds = Function.update s.holds k none := by
    have hsame : a.holds = s.holds := by
      funext k'
      rw [holds, ha]
      rfl
    rw [holds_set, hnone, hsame]
  have hrest {a : FramePoolState C} (ha : a.frame = s.frame) (halive : a.alive = s.alive) (hnext : a.next = s.next)
      (hissued : a.issued = s.issued) (hledger : a.alive = true → (a.set k f').ledger.Sound (2 ^ 64) capacity) :
      (a.set k f').Sound capacity := by
    exact {
      ledger := hledger
      frames := fun k' f'' hk' => by
        rcases frame_cases hk' with ⟨rfl, rfl⟩ | ⟨-, hk'⟩
        · exact hf
        · exact h.frames k' f'' (ha ▸ hk')
      fresh := fun k' hle => by
        have hle' : s.next ≤ k' := Nat.le_trans (Nat.le_of_eq hnext.symm) hle
        have hne : k' ≠ k := by
          rintro rfl
          rw [h.fresh k' hle'] at hk
          cases hk
        rw [frame_set, Function.update_of_ne hne, ha]
        exact h.fresh k' hle'
      alone := fun k₁ k₂ slot g₁ g₂ h₁ h₂ => by
        rw [hholds ha] at h₁ h₂
        have hne₁ : k₁ ≠ k := by
          rintro rfl
          rw [Function.update_self] at h₁
          cases h₁
        have hne₂ : k₂ ≠ k := by
          rintro rfl
          rw [Function.update_self] at h₂
          cases h₂
        rw [Function.update_of_ne hne₁] at h₁
        rw [Function.update_of_ne hne₂] at h₂
        exact h.alone k₁ k₂ slot g₁ g₂ h₁ h₂
      constructing := fun k' f'' hk' hconstructing => by
        rcases frame_cases hk' with ⟨rfl, rfl⟩ | ⟨-, hk'⟩
        · exact absurd hconstructing hlife
        · exact halive.trans (h.constructing k' f'' (ha ▸ hk') hconstructing)
      positive := hissued ▸ h.positive
      unique := hissued ▸ h.unique }
  cases halive : s.alive with
  | false =>
      rw [if_neg (by simp)]
      exact hrest rfl rfl rfl rfl fun h' => absurd (halive.symm.trans h') nofun
  | true =>
      rw [if_pos rfl]
      refine hrest rfl rfl rfl rfl fun _ => ?_
      have hsound := h.ledger halive
      have hat : s.pool.slots[f.slot]? = some ⟨true, f.generation⟩ := hsound.exclusive.held hslot
      have hpos : 0 < s.pool.inUse := hsound.inUse_pos hslot
      have hpool := GpuFramePool.recycle_held hat hpos
      have hreturned : (s.give f.slot f.generation).returned = s.returned + 1 := if_pos (by rw [giveBack_some hat]; rfl)
      exact ledger_after hsound (.give k f.slot f.generation hslot)
        (Ledger.ext (congrArg GpuFramePool.slots hpool) (congrArg GpuFramePool.inUse hpool) (hholds rfl) rfl hreturned)

/-- A slot that was acquired less than 2^64 times gets a generation that it has not had: the next number, and behind all
others 0. -/
theorem Sound.new_generation (h : s.Sound capacity) (hsound : s.ledger.Sound (2 ^ 64) capacity) {slot g : Nat}
    (hat : s.pool.slots[slot]? = some ⟨false, g⟩) (hlt : (issuedOf s.issued slot).length < 2 ^ 64) :
    (g + 1) % 2 ^ 64 ∉ issuedOf s.issued slot ∧
      ((issuedOf s.issued slot).length + 1 < 2 ^ 64 → 0 < (g + 1) % 2 ^ 64) := by
  have hcount : g = (issuedOf s.issued slot).length := hsound.counts.generation hat hlt
  rcases Nat.lt_or_ge ((issuedOf s.issued slot).length + 1) (2 ^ 64) with hnext | hlast
  · have heq : (g + 1) % 2 ^ 64 = (issuedOf s.issued slot).length + 1 := by rw [hcount, Nat.mod_eq_of_lt hnext]
    rw [heq]
    refine ⟨fun hmem => ?_, fun _ => Nat.succ_pos _⟩
    have hle := hsound.counts.bounded slot hlt _ hmem
    exact Nat.not_succ_le_self _ hle
  · have heq : g + 1 = 2 ^ 64 := by rw [hcount]; omega
    rw [heq, Nat.mod_self]
    exact ⟨fun hmem => Nat.lt_irrefl 0 (h.positive slot hlt 0 hmem), fun hnext => absurd hnext (Nat.not_lt.mpr hlast)⟩

theorem Sound.acquire (h : s.Sound capacity) (halive : s.alive = true) {pool : GpuFramePool} {slot generation : Nat}
    {producer : Bool} (hacquire : s.pool.acquire producer = .ok (pool, slot, generation)) (hf : f.Sound)
    (hheld : f.held = some (slot, generation))
    (ht : t = { s.set s.next f with pool := pool, next := s.next + 1, issued := (slot, generation) :: s.issued }) :
    t.Sound capacity := by
  obtain ⟨-, g, hfree, rfl, rfl⟩ := GpuFramePool.acquire_ok hacquire
  have hsound := h.ledger halive
  have hnone : s.holds s.next = none := by rw [holds, h.fresh s.next (Nat.le_refl _)]; rfl
  have hholds : t.holds = Function.update s.holds s.next (some (slot, (g + 1) % 2 ^ 64)) := by
    rw [ht, ← hheld]
    exact holds_set s s.next f
  have hledger : t.ledger.Sound (2 ^ 64) capacity := by
    subst ht
    exact ledger_after hsound (.claim s.next slot g ((g + 1) % 2 ^ 64) hnone hfree Nat.mod_eq_of_lt)
      (Ledger.ext rfl rfl hholds rfl rfl)
  have hissued : t.issued = (slot, (g + 1) % 2 ^ 64) :: s.issued := by rw [ht]
  have hframe : t.frame = (s.set s.next f).frame := by rw [ht]
  exact {
    ledger := fun _ => hledger
    frames := fun k' f' hk' => by
      rcases frame_cases (hframe ▸ hk') with ⟨-, rfl⟩ | ⟨-, hk'⟩
      · exact hf
      · exact h.frames k' f' hk'
    fresh := fun k' hle => by
      have hle : s.next + 1 ≤ k' := by
        rw [ht] at hle
        exact hle
      rw [hframe, frame_set, Function.update_of_ne (Nat.ne_of_gt hle)]
      exact h.fresh k' (Nat.le_of_succ_le hle)
    alone := fun _ _ _ _ _ => hledger.exclusive.inj
    constructing := fun _ _ _ _ => by
      rw [ht]
      exact halive
    positive := fun i hlt g' hg' => by
      rw [hissued] at hlt hg'
      by_cases hi : slot = i
      · subst hi
        rw [issuedOf_cons_self] at hlt hg'
        rcases List.mem_cons.mp hg' with rfl | hg'
        · exact (h.new_generation hsound hfree (Nat.lt_of_succ_lt hlt)).2 hlt
        · exact h.positive slot (Nat.lt_of_succ_lt hlt) g' hg'
      · rw [issuedOf_cons_ne _ _ hi] at hlt hg'
        exact h.positive i hlt g' hg'
    unique := fun i hle => by
      rw [hissued] at hle ⊢
      by_cases hi : slot = i
      · subst hi
        rw [issuedOf_cons_self] at hle ⊢
        exact List.nodup_cons.mpr ⟨(h.new_generation hsound hfree hle).1, h.unique slot (Nat.le_of_succ_le hle)⟩
      · rw [issuedOf_cons_ne _ _ hi] at hle ⊢
        exact h.unique i hle }

/-- A frame of an acquisition whose core is not constructed yet. -/
theorem sound_newCore (desc : GpuFrameDesc) {producer : Option (Completion C)} (hproducer : producer.isSome = true)
    (native : Option NativeHandleDesc) (slot generation : Nat) (hasRelease : Bool) :
    PooledFrame.Sound
      ⟨newCore desc producer native generation, slot, generation, hasRelease, .constructing, .notCalled, 0⟩ where
  desc := rfl
  producer := Option.isSome_iff_ne_none.mp hproducer
  recycled := iff_of_false nofun (fun h => h rfl)
  generation := by
    rintro g (⟨⟨⟩⟩ | ⟨⟨⟩⟩)
  calm := nofun
  releases := by simp [RecycleCall.ran]
  early _ := rfl
  destroyed := nofun

/-- While no acquisition is under way, no frame is being constructed. -/
theorem Sound.not_constructing (h : s.Sound capacity) (hacquiring : s.acquiring = false) (hk : s.frame k = some f) :
    f.life ≠ .constructing := by
  intro hlife
  have hlt : k < s.next := by
    by_contra hle
    rw [h.fresh k (Nat.le_of_not_lt hle)] at hk
    cases hk
  rw [acquiring, List.any_eq_false] at hacquiring
  exact hacquiring k (List.mem_range.mpr hlt) (by simp [hk, hlife])

theorem Sound.step (h : s.Sound capacity) (hst : s.Step l t) (hcalm : s.Calm l) : t.Sound capacity := by
  cases l with
  | acquire desc producer native hasRelease =>
      simp only [Step, FramePoolState.step] at hst
      split at hst
      · cases hst
      case isFalse halive =>
          have halive : s.alive = true := by simpa using halive
          split at hst
          · cases hst
            exact h
          case h_2 pool slot generation hacquire =>
              have hproducer := (GpuFramePool.acquire_ok hacquire).1
              exact h.acquire halive hacquire (sound_newCore desc hproducer native slot generation hasRelease) rfl
                (Option.some.inj hst).symm
  | construct k =>
      obtain ⟨f, hk, hst⟩ := Option.bind_eq_some_iff.mp hst
      split at hst <;> cases hst
      case h_1 hlife =>
          have hf := h.frames k f hk
          have hcall := hf.early (by rw [hlife]; rfl)
          exact h.quiet hk (hf.live nofun nofun) (by simp [PooledFrame.held, hlife, hcall]) nofun
  | fail k =>
      obtain ⟨f, hk, hst⟩ := Option.bind_eq_some_iff.mp hst
      split at hst <;> cases hst
      case h_1 hlife =>
          have hf := h.frames k f hk
          have hcall := hf.early (by rw [hlife]; rfl)
          have hfailed : PooledFrame.Sound { f with life := .failed } := hf.live (fun _ => hcall) nofun
          have hleave := h.leave hk hfailed
            (by simp [PooledFrame.held, hlife, hcall]) rfl nofun
          rw [if_pos (h.constructing k f hk hlife)] at hleave
          exact hleave
  | use k u =>
      obtain ⟨f, hk, hst⟩ := Option.bind_eq_some_iff.mp hst
      split at hst <;> cases hst
      case h_1 hlife =>
          have hsection := u.coreSection s.states f.core
          obtain ⟨hf, hheld⟩ := (h.frames k f hk).after hlife hsection
          exact h.quiet hk hf hheld (by rw [PooledFrame.after_life, hlife]; exact nofun)
  | beginDestroy k =>
      obtain ⟨f, hk, hst⟩ := Option.bind_eq_some_iff.mp hst
      have hf := h.frames k f hk
      split at hst <;> cases hst
      case h_1 hlife hcall =>
          exact h.quiet hk (hf.live (fun _ => hcall) nofun) (by simp [PooledFrame.held, hlife, hcall]) nofun
      case h_2 hlife hcall =>
          exact h.quiet hk (hf.live nofun fun _ => by simp [hcall]) (by simp [PooledFrame.held, hlife, hcall]) nofun
      case h_3 hlife hcall => exact absurd hcall hf.calm
  | wait k =>
      obtain ⟨f, hk, hst⟩ := Option.bind_eq_some_iff.mp hst
      split at hst
      case h_2 => cases hst
      case h_1 completion rest hlife =>
          obtain ⟨-, ⟨⟩⟩ := Option.ite_none_left_eq_some.mp hst
          have hf := h.frames k f hk
          have hcall := hf.early (by rw [hlife]; rfl)
          exact h.quiet hk (hf.live (fun _ => hcall) nofun) (by simp [PooledFrame.held, hlife, hcall]) nofun
  | destroy k =>
      obtain ⟨f, hk, hst⟩ := Option.bind_eq_some_iff.mp hst
      split at hst <;> cases hst
      case h_1 hlife =>
          obtain ⟨hf, hheld⟩ := (h.frames k f hk).destroy hlife (hcalm f hk)
          exact h.quiet hk hf hheld nofun
  | release k throws =>
      obtain ⟨f, hk, hst⟩ := Option.bind_eq_some_iff.mp hst
      have hthrows : throws = false := hcalm
      split at hst
      case h_2 => cases hst
      case h_1 generation hcall =>
          have hf := h.frames k f hk
          have hlife : f.life ≠ .constructing := fun hlife => by
            have := hf.early (by rw [hlife]; rfl)
            rw [hcall] at this
            cases this
          obtain ⟨hf', hheld⟩ := hf.release hcall
          have hquiet := h.quiet hk hf' hheld hlife
          subst hthrows
          cases hrelease : f.hasRelease <;> simp [hrelease] at hst hquiet <;> subst hst <;> exact hquiet
  | recycle k =>
      obtain ⟨f, hk, hst⟩ := Option.bind_eq_some_iff.mp hst
      split at hst <;> cases hst
      case h_1 generation hcall =>
          have hf := h.frames k f hk
          obtain ⟨hf', hheld, hnone⟩ := hf.finish hcall
          have hlife : f.life ≠ .constructing := fun hlife => by
            have := hf.early (by rw [hlife]; rfl)
            rw [hcall] at this
            cases this
          rw [hf.generation generation (.inr hcall)]
          exact h.leave hk hf' hheld hnone hlife
  | destroyPool =>
      obtain ⟨hready, ⟨⟩⟩ := Option.ite_none_right_eq_some.mp hst
      simp only [Bool.and_eq_true, Bool.not_eq_true'] at hready
      exact {
        ledger := nofun
        frames := h.frames
        fresh := h.fresh
        alone := h.alone
        constructing := fun k f hk hlife => absurd hlife (h.not_constructing hready.2 hk)
        positive := h.positive
        unique := h.unique }
  | evolve states =>
      cases hst
      exact ⟨h.ledger, h.frames, h.fresh, h.alone, h.constructing, h.positive, h.unique⟩

/-! ## What holds in every reachable state -/

/-- What the pool promises as long as it is calm. -/
structure Safe (capacity : Nat) (s : FramePoolState C) : Prop where
  alone : ∀ k k' slot g g', s.holds k = some (slot, g) → s.holds k' = some (slot, g') → k = k'
  inUse : s.alive = true → s.pool.inUse = used s.pool.slots ∧ s.pool.inUse ≤ capacity ∧
    ∃ holders : Finset Nat, (∀ k, k ∈ holders ↔ s.holds k ≠ none) ∧ holders.card = s.pool.inUse
  unique : ∀ slot, (issuedOf s.issued slot).length ≤ 2 ^ 64 → (issuedOf s.issued slot).Nodup
  releases : ∀ k f, s.frame k = some f → f.releases ≤ 1
  /-- Behind its destructor a frame has released its resource, unless it is about to. -/
  destroyed : ∀ k f, s.frame k = some f → f.hasRelease = true → f.life = .destroyed →
    f.call = .called f.generation ∧ f.releases = 0 ∨ f.releases = 1
  /-- The frames that a slot was given to before have released their resources when it is acquired again. -/
  before : ∀ l t slot g, s.Step l t → t.issued = (slot, g) :: s.issued → ∀ k f, s.frame k = some f → f.slot = slot →
    f.hasRelease = true → f.life = .failed ∨ f.releases = 1

/-- An acquisition takes a slot that is free. -/
theorem free_of_issued {slot g : Nat} (hst : s.Step l t) (hissued : t.issued = (slot, g) :: s.issued) :
    s.alive = true ∧ ∃ g', s.pool.slots[slot]? = some ⟨false, g'⟩ := by
  have hsame : t.issued ≠ s.issued := by
    rw [hissued]
    exact List.cons_ne_self _ _
  cases l with
  | acquire desc producer native hasRelease =>
      simp only [Step, FramePoolState.step] at hst
      split at hst
      · cases hst
      case isFalse halive =>
          split at hst
          · cases hst
            exact absurd rfl hsame
          case h_2 pool slot' generation hacquire =>
              obtain ⟨-, g', hfree, -, -⟩ := GpuFramePool.acquire_ok hacquire
              cases hst
              cases hissued
              exact ⟨by simpa using halive, g', hfree⟩
  | destroyPool =>
      obtain ⟨-, ⟨⟩⟩ := Option.ite_none_right_eq_some.mp hst
      exact absurd rfl hsame
  | evolve states =>
      cases hst
      exact absurd rfl hsame
  | wait k =>
      obtain ⟨f, -, hst⟩ := Option.bind_eq_some_iff.mp hst
      split at hst
      · obtain ⟨-, ⟨⟩⟩ := Option.ite_none_left_eq_some.mp hst
        exact absurd rfl hsame
      · cases hst
  | release k throws =>
      obtain ⟨f, -, hst⟩ := Option.bind_eq_some_iff.mp hst
      split at hst
      · split at hst <;> cases hst <;> exact absurd rfl hsame
      · cases hst
  | recycle k =>
      obtain ⟨f, -, hst⟩ := Option.bind_eq_some_iff.mp hst
      split at hst <;> cases hst
      refine absurd ?_ hsame
      simp only [set]
      split <;> rfl
  | _ =>
      obtain ⟨f, -, hst⟩ := Option.bind_eq_some_iff.mp hst
      split at hst <;> cases hst <;> exact absurd rfl hsame

theorem Sound.safe (h : s.Sound capacity) : s.Safe capacity where
  alone := h.alone
  inUse halive := by
    have hsound := h.ledger halive
    obtain ⟨holders, hmem, hcard⟩ := hsound.exclusive.card_eq
    exact ⟨hsound.inUse, hsound.inUse_le, holders, hmem, hcard.trans hsound.inUse.symm⟩
  unique := h.unique
  releases k f hk := by
    rw [(h.frames k f hk).releases]
    split
    · exact Nat.le_refl 1
    · exact Nat.zero_le 1
  destroyed k f hk hrelease hlife := by
    have hf := h.frames k f hk
    have hreleases := hf.releases
    rw [hrelease, Bool.true_and] at hreleases
    cases hcall : f.call with
    | notCalled => exact absurd hcall (hf.destroyed hlife)
    | called g =>
        rw [hcall] at hreleases
        rw [hf.generation g (.inl hcall)]
        exact .inl ⟨rfl, hreleases⟩
    | released g => exact .inr (by simpa [hcall, RecycleCall.ran] using hreleases)
    | finished => exact .inr (by simpa [hcall, RecycleCall.ran] using hreleases)
    | threw => exact absurd hcall hf.calm
  before l t slot g hst hissued k f hk hslot hrelease := by
    obtain ⟨halive, g', hfree⟩ := free_of_issued hst hissued
    have hf := h.frames k f hk
    rcases hf.held_cases with hheld | hfailed | hfinished
    · have hat := (h.ledger halive).exclusive.held (show s.holds k = _ by rw [holds, hk, Option.bind_some, hheld])
      rw [show s.ledger.slots = s.pool.slots from rfl, hslot, hfree] at hat
      cases hat
    · exact .inl hfailed
    · refine .inr ?_
      rw [hf.releases, hrelease, hfinished]
      rfl

end FramePoolState

/-- In every run in which no release throws and no completion of a frame is pending again in its destructor, the pool keeps
its promises. -/
theorem frame_slots_accounted {capacity : Nat} {states : C → CompletionState} {ls : List (FramePoolLabel C)}
    {s : FramePoolState C} (h : Run (Restrict FramePoolState.Step FramePoolState.Calm) (.init capacity states) ls s) :
    s.Safe capacity := by
  have hsound : s.Sound capacity :=
    h.invariant (FramePoolState.sound_init capacity states) fun hs hst => hs.step hst.1 hst.2
  exact hsound.safe

def pooledDesc : GpuFrameDesc :=
  ⟨136, 1, .nvidia, .cudaPointer, 0, 0, .nv12, 64, 64, 2, fun _ => 0, fun _ => 64, 0, 0, 0, 0, 0⟩

/-- A pool of one slot, whose first frame is polled and whose second one is destroyed, behind the pool. -/
theorem frame_slots_accounted_small : ∃ s : FramePoolState Unit,
    Run (Restrict FramePoolState.Step FramePoolState.Calm) (.init 1 fun _ => .complete)
      [.acquire pooledDesc (some .completed) none true, .construct 0, .use 0 .poll, .release 0 false, .recycle 0,
        .acquire pooledDesc (some (.driver ())) none true, .construct 1, .destroyPool, .beginDestroy 1, .wait 1,
        .destroy 1, .release 1 false, .recycle 1] s ∧
    s.issued = [(0, 2), (0, 1)] ∧ s.Safe 1 := by
  have hrun : ∃ s : FramePoolState Unit,
      Run (Restrict FramePoolState.Step FramePoolState.Calm) (.init 1 fun _ => .complete)
        [.acquire pooledDesc (some .completed) none true, .construct 0, .use 0 .poll, .release 0 false, .recycle 0,
          .acquire pooledDesc (some (.driver ())) none true, .construct 1, .destroyPool, .beginDestroy 1, .wait 1,
          .destroy 1, .release 1 false, .recycle 1] s ∧
      s.issued = [(0, 2), (0, 1)] := by
    refine ⟨_, .cons ⟨rfl, trivial⟩ (.cons ⟨rfl, trivial⟩ (.cons ⟨rfl, trivial⟩ (.cons ⟨rfl, rfl⟩ (.cons ⟨rfl, trivial⟩
      (.cons ⟨rfl, trivial⟩ (.cons ⟨rfl, trivial⟩ (.cons ⟨rfl, trivial⟩ (.cons ⟨rfl, trivial⟩ (.cons ⟨rfl, trivial⟩
        (.cons ⟨rfl, ?_⟩ (.cons ⟨rfl, rfl⟩ (.cons ⟨rfl, trivial⟩ .nil)))))))))))), rfl⟩
    rintro f ⟨⟩ completion hmem
    obtain rfl := List.mem_singleton.mp hmem
    rfl
  obtain ⟨s, hrun, hissued⟩ := hrun
  exact ⟨s, hrun, hissued, frame_slots_accounted hrun⟩

/-- A release that throws leaves the slot of a frame in use for good: when the frame is gone, nothing occupies a slot, one
is in use, and the pool is full. And a frame that is destroyed with a completion that is pending again does not release
its resource. -/
theorem slot_leaked :
    (∃ s : FramePoolState Unit,
      Run FramePoolState.Step (.init 1 fun _ => .complete)
        [.acquire pooledDesc (some .completed) none true, .construct 0, .use 0 .poll, .release 0 true, .beginDestroy 0] s ∧
      (∀ k, s.holds k = none) ∧ s.pool.inUse = 1 ∧ s.pool.acquire true = .error GpuFramePool.full) ∧
    ∃ s : FramePoolState Unit,
      Run FramePoolState.Step (.init 1 fun _ => .complete)
        [.acquire pooledDesc (some (.driver ())) none true, .construct 0, .beginDestroy 0, .wait 0,
          .evolve fun _ => .pending, .destroy 0] s ∧
      ∃ f, s.frame 0 = some f ∧ f.hasRelease = true ∧ f.life = .destroyed ∧ f.call = .notCalled ∧ f.releases = 0 := by
  refine ⟨⟨_, .of_exec rfl, fun k => ?_, rfl, rfl⟩, _, .of_exec rfl, _, rfl, rfl, rfl, rfl, rfl⟩
  by_cases hk : k = 0
  · subst hk
    rfl
  · simp [FramePoolState.holds, FramePoolState.set, FramePoolState.init, hk]

end MkvCodec.Gpu
