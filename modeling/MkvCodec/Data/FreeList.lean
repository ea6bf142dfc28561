import Mathlib.Data.List.Nodup
import Mathlib.Logic.Function.Basic

/-!
# Slots with a free list

A pool of slots has a stack of free ones and those in use. Holders of any type hold slots of some pools, each of them one at
most.
-/

namespace FreeList

variable {A P κ : Type*} [DecidableEq A]

/-- The slot that is taken next comes first. -/
structure Slots (A : Type*) where
  free : List A
  inUse : List A
  deriving DecidableEq

def take (s : Slots A) : Option (A × Slots A) :=
  match s.free with
  | [] => none
  | a :: rest => some (a, ⟨rest, a :: s.inUse⟩)

/-- A slot that is not in use is not given back. -/
def give (s : Slots A) (a : A) : Slots A := if a ∈ s.inUse then ⟨a :: s.free, s.inUse.erase a⟩ else s

/-- The slots in use are those that somebody holds. -/
structure Held (pools : P → Slots A) (holds : κ → Option (P × A)) : Prop where
  mem_iff : ∀ p a, a ∈ (pools p).inUse ↔ ∃ k, holds k = some (p, a)
  inj : ∀ k k' slot, holds k = some slot → holds k' = some slot → k = k'
  nodup : ∀ p, ((pools p).free ++ (pools p).inUse).Nodup

variable {pools : P → Slots A} {holds : κ → Option (P × A)} {s : Slots A} {a : A} {p : P} {k k' : κ}

omit [DecidableEq A] in
theorem take_eq_some {t : Slots A} (h : take s = some (a, t)) : s.free = a :: t.free ∧ t.inUse = a :: s.inUse := by
  unfold take at h
  split at h
  · cases h
  · cases h
    exact ⟨by assumption, rfl⟩

namespace Held

omit [DecidableEq A] in
/-- A pool that has not been used. -/
theorem fresh [DecidableEq P] (h : Held pools holds) (hempty : (pools p).inUse = []) (hnodup : s.free.Nodup)
    (hs : s.inUse = []) : Held (Function.update pools p s) holds where
  mem_iff p' a := by
    rcases eq_or_ne p' p with rfl | hne
    · rw [Function.update_self, hs, ← h.mem_iff, hempty]
    · rw [Function.update_of_ne hne, h.mem_iff]
  inj := h.inj
  nodup p' := by
    rcases eq_or_ne p' p with rfl | hne
    · rw [Function.update_self, hs, List.append_nil]
      exact hnodup
    · rw [Function.update_of_ne hne]
      exact h.nodup p'

variable [DecidableEq κ]

omit [DecidableEq A] in
theorem take [DecidableEq P] (h : Held pools holds) (hs : take (pools p) = some (a, s)) (hk : holds k = none) :
    Held (Function.update pools p s) (Function.update holds k (some (p, a))) := by
  obtain ⟨hfree, hinUse⟩ := take_eq_some hs
  have hnew : a ∉ (pools p).inUse := by
    have hnodup := h.nodup p
    rw [hfree, List.cons_append, List.nodup_cons] at hnodup
    exact fun hmem => hnodup.1 (List.mem_append_right _ hmem)
  have hfresh (k' : κ) : holds k' ≠ some (p, a) := fun hk' => hnew ((h.mem_iff p a).mpr ⟨k', hk'⟩)
  refine ⟨fun p' a' => ?_, fun k₁ k₂ slot h₁ h₂ => ?_, fun p' => ?_⟩
  · have hholds : (∃ k', Function.update holds k (some (p, a)) k' = some (p', a')) ↔
        (p', a') = (p, a) ∨ ∃ k', holds k' = some (p', a') := by
      constructor
      · rintro ⟨k', hk'⟩
        rcases eq_or_ne k' k with rfl | hne
        · rw [Function.update_self] at hk'
          exact .inl (Option.some.inj hk').symm
        · rw [Function.update_of_ne hne] at hk'
          exact .inr ⟨k', hk'⟩
      · rintro (heq | ⟨k', hk'⟩)
        · exact ⟨k, by rw [Function.update_self, heq]⟩
        · refine ⟨k', ?_⟩
          rw [Function.update_of_ne]
          · exact hk'
          · rintro rfl
            rw [hk] at hk'
            cases hk'
    rw [hholds, ← h.mem_iff, Prod.mk.injEq]
    rcases eq_or_ne p' p with rfl | hne
    · rw [Function.update_self, hinUse, List.mem_cons]
      simp
    · rw [Function.update_of_ne hne]
      simp [hne]
  · by_cases hk₁ : k₁ = k
    · by_cases hk₂ : k₂ = k
      · rw [hk₁, hk₂]
      · rw [hk₁, Function.update_self] at h₁
        rw [Function.update_of_ne hk₂, ← h₁] at h₂
        exact absurd h₂ (hfresh k₂)
    · rw [Function.update_of_ne hk₁] at h₁
      by_cases hk₂ : k₂ = k
      · rw [hk₂, Function.update_self] at h₂
        rw [← h₂] at h₁
        exact absurd h₁ (hfresh k₁)
      · rw [Function.update_of_ne hk₂] at h₂
        exact h.inj k₁ k₂ slot h₁ h₂
  · rcases eq_or_ne p' p with rfl | hne
    · rw [Function.update_self, hinUse]
      have hnodup := h.nodup p'
      rw [hfree, List.cons_append] at hnodup
      exact (List.perm_middle.nodup_iff).mpr hnodup
    · rw [Function.update_of_ne hne]
      exact h.nodup p'

theorem give [DecidableEq P] (h : Held pools holds) (hk : holds k = some (p, a)) :
    Held (Function.update pools p (give (pools p) a)) (Function.update holds k none) := by
  have hmem : a ∈ (pools p).inUse := (h.mem_iff p a).mpr ⟨k, hk⟩
  have hgive : FreeList.give (pools p) a = ⟨a :: (pools p).free, (pools p).inUse.erase a⟩ := if_pos hmem
  have hnodup := List.nodup_append.mp (h.nodup p)
  refine ⟨fun p' a' => ?_, fun k₁ k₂ slot h₁ h₂ => ?_, fun p' => ?_⟩
  · have hholds : (∃ k', Function.update holds k none k' = some (p', a')) ↔
        (p', a') ≠ (p, a) ∧ ∃ k', holds k' = some (p', a') := by
      constructor
      · rintro ⟨k', hk'⟩
        have hne : k' ≠ k := by
          rintro rfl
          rw [Function.update_self] at hk'
          cases hk'
        rw [Function.update_of_ne hne] at hk'
        refine ⟨fun heq => hne (h.inj k' k _ hk' (heq ▸ hk)), k', hk'⟩
      · rintro ⟨hne, k', hk'⟩
        refine ⟨k', ?_⟩
        rw [Function.update_of_ne]
        · exact hk'
        · rintro rfl
          rw [hk] at hk'
          exact hne (Option.some.inj hk').symm
    rw [hholds, ← h.mem_iff, ne_eq, Prod.mk.injEq]
    rcases eq_or_ne p' p with rfl | hne
    · rw [Function.update_self, hgive, hnodup.2.1.mem_erase_iff]
      simp
    · rw [Function.update_of_ne hne]
      simp [hne]
  · have hne (k' : κ) (hk' : Function.update holds k none k' = some slot) : holds k' = some slot := by
      rcases eq_or_ne k' k with rfl | hne
      · rw [Function.update_self] at hk'
        cases hk'
      · rwa [Function.update_of_ne hne] at hk'
    exact h.inj k₁ k₂ slot (hne k₁ h₁) (hne k₂ h₂)
  · rcases eq_or_ne p' p with rfl | hne
    · rw [Function.update_self, hgive]
      have hperm : (a :: (pools p').free ++ (pools p').inUse.erase a).Perm ((pools p').free ++ (pools p').inUse) :=
        (List.perm_middle.symm).trans ((List.perm_cons_erase hmem).symm.append_left _)
      exact hperm.nodup_iff.mpr (h.nodup p')
    · rw [Function.update_of_ne hne]
      exact h.nodup p'

omit [DecidableEq A] in
/-- A slot changes hands. -/
theorem pass (h : Held pools holds) {slot : P × A} (hk : holds k = some slot) (hk' : holds k' = none) :
    Held pools (Function.update (Function.update holds k none) k' (some slot)) := by
  have hne : k ≠ k' := by
    rintro rfl
    rw [hk] at hk'
    cases hk'
  have hback (k'' : κ) (slot' : P × A)
      (h'' : Function.update (Function.update holds k none) k' (some slot) k'' = some slot') :
      holds (if k'' = k' then k else k'') = some slot' ∧ k'' ≠ k := by
    by_cases heq : k'' = k'
    · rw [heq, Function.update_self] at h''
      rw [if_pos heq, ← h'', heq]
      exact ⟨hk, hne.symm⟩
    · rw [Function.update_of_ne heq] at h''
      rw [if_neg heq]
      have hother : k'' ≠ k := by
        rintro rfl
        rw [Function.update_self] at h''
        cases h''
      rw [Function.update_of_ne hother] at h''
      exact ⟨h'', hother⟩
  refine ⟨fun p a => ?_, fun k₁ k₂ slot' h₁ h₂ => ?_, h.nodup⟩
  · rw [h.mem_iff]
    constructor
    · rintro ⟨k'', h''⟩
      by_cases heq : k'' = k
      · refine ⟨k', ?_⟩
        rw [heq, hk] at h''
        rw [Function.update_self, h'']
      · refine ⟨k'', ?_⟩
        have hother : k'' ≠ k' := by
          rintro rfl
          rw [hk'] at h''
          cases h''
        rw [Function.update_of_ne hother, Function.update_of_ne heq, h'']
    · rintro ⟨k'', h''⟩
      exact ⟨_, (hback k'' _ h'').1⟩
  · obtain ⟨h₁, hne₁⟩ := hback k₁ slot' h₁
    obtain ⟨h₂, hne₂⟩ := hback k₂ slot' h₂
    have heq := h.inj _ _ slot' h₁ h₂
    split at heq
    · split at heq
      · rename_i hk₁ hk₂
        rw [hk₁, hk₂]
      · exact absurd heq.symm hne₂
    · split at heq
      · exact absurd heq hne₁
      · exact heq

end Held

end FreeList
