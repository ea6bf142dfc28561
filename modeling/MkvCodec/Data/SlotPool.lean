import Mathlib.Data.Finset.Card
import Mathlib.Data.Finset.Option
import Mathlib.Data.List.Induction

/-!
# Pools of slots with generations

A fixed number of slots that are claimed and given back. A claim advances the generation of its slot, and a slot is
given back only under the generation that it was claimed with. What holds a slot is a key of any type.
-/

namespace SlotPool

structure Slot where
  inUse : Bool
  generation : Nat
  deriving DecidableEq

def firstFree (slots : List Slot) : Option Nat := slots.findIdx? fun slot => !slot.inUse

/-- The slots behind a return, or none when the slot is not in use under this generation. -/
def giveBack (slots : List Slot) (index generation : Nat) : Option (List Slot) :=
  match slots[index]? with
  | none => none
  | some slot =>
      if !slot.inUse || decide (slot.generation ≠ generation) then none
      else some (slots.set index { slot with inUse := false })

def used (slots : List Slot) : Nat := slots.countP Slot.inUse

variable {slots : List Slot} {index generation : Nat}

theorem used_le (slots : List Slot) : used slots ≤ slots.length := List.countP_le_length

theorem firstFree_some (h : firstFree slots = some index) : ∃ g, slots[index]? = some ⟨false, g⟩ := by
  obtain ⟨hlt, hfree, -⟩ := List.findIdx?_eq_some_iff_getElem.mp h
  refine ⟨slots[index].generation, ?_⟩
  rw [List.getElem?_eq_getElem hlt]
  have hno : slots[index].inUse = false := by simpa using hfree
  rw [← hno]

theorem firstFree_none (h : firstFree slots = none) : ∀ slot ∈ slots, slot.inUse = true := by
  simpa [firstFree] using h

theorem used_claim {g : Nat} (h : slots[index]? = some ⟨false, g⟩) (generation : Nat) :
    used (slots.set index ⟨true, generation⟩) = used slots + 1 := by
  obtain ⟨hlt, hat⟩ := List.getElem?_eq_some_iff.mp h
  simp [used, List.countP_set hlt, hat]

theorem used_pos (h : slots[index]? = some ⟨true, generation⟩) : 0 < used slots :=
  List.countP_pos_iff.mpr ⟨_, List.mem_of_getElem? h, rfl⟩

theorem used_give (h : slots[index]? = some ⟨true, generation⟩) :
    used (slots.set index ⟨false, generation⟩) + 1 = used slots := by
  have hpos := used_pos h
  obtain ⟨hlt, hat⟩ := List.getElem?_eq_some_iff.mp h
  rw [used] at hpos
  simp only [used, List.countP_set hlt, hat, if_true, Bool.false_eq_true, if_false, Nat.add_zero]
  omega

theorem giveBack_some (h : slots[index]? = some ⟨true, generation⟩) :
    giveBack slots index generation = some (slots.set index ⟨false, generation⟩) := by
  simp [giveBack, h]

/-- A return under another generation, or of a slot that is not in use, changes nothing. -/
theorem giveBack_stale (h : slots[index]? ≠ some ⟨true, generation⟩) : giveBack slots index generation = none := by
  rw [giveBack]
  cases hslot : slots[index]? with
  | none => rfl
  | some slot =>
      obtain ⟨inUse, g⟩ := slot
      rw [hslot] at h
      simp only [ne_eq, Option.some.injEq, Slot.mk.injEq, not_and] at h
      cases inUse with
      | false => rfl
      | true => simp [h]

/-! ## Who holds which slot -/

section

variable {κ : Type*}

/-- The slots in use and the keys that hold one are in one-to-one correspondence. -/
structure Exclusive (slots : List Slot) (lease : κ → Option (Nat × Nat)) : Prop where
  held : ∀ {k i g}, lease k = some (i, g) → slots[i]? = some ⟨true, g⟩
  onto : ∀ {i g}, slots[i]? = some ⟨true, g⟩ → ∃ k, lease k = some (i, g)
  inj : ∀ {k k' i g g'}, lease k = some (i, g) → lease k' = some (i, g') → k = k'

variable {lease : κ → Option (Nat × Nat)}

theorem Exclusive.empty (h : ∀ slot ∈ slots, slot.inUse = false) : Exclusive slots fun _ : κ => none :=
  ⟨nofun, fun hat => absurd (h _ (List.mem_of_getElem? hat)) (by simp), nofun⟩

variable [DecidableEq κ] {k : κ}

theorem Exclusive.claim (generation : Nat) {g : Nat} (h : Exclusive slots lease) (hfree : slots[index]? = some ⟨false, g⟩)
    (hnone : lease k = none) :
    Exclusive (slots.set index ⟨true, generation⟩) (Function.update lease k (some (index, generation))) := by
  have hlt := (List.getElem?_eq_some_iff.mp hfree).1
  have hother {k' : κ} {i g' : Nat} (hk : lease k' = some (i, g')) : i ≠ index := by
    rintro rfl
    rw [h.held hk] at hfree
    cases hfree
  have hne {k' : κ} {i g' : Nat} (hk : lease k' = some (i, g')) : k' ≠ k := by
    rintro rfl
    rw [hnone] at hk
    cases hk
  constructor
  · intro k' i g' hk
    by_cases hkk : k' = k
    · subst hkk
      simp only [Function.update_self, Option.some.injEq, Prod.mk.injEq] at hk
      obtain ⟨rfl, rfl⟩ := hk
      simp [hlt]
    · rw [Function.update_of_ne hkk] at hk
      rw [List.getElem?_set_ne (hother hk).symm]
      exact h.held hk
  · intro i g' hat
    by_cases hi : i = index
    · subst hi
      refine ⟨k, ?_⟩
      simp only [List.getElem?_set_self hlt, Option.some.injEq, Slot.mk.injEq, true_and] at hat
      rw [Function.update_self, hat]
    · rw [List.getElem?_set_ne (Ne.symm hi)] at hat
      obtain ⟨k', hk⟩ := h.onto hat
      exact ⟨k', by rw [Function.update_of_ne (hne hk)]; exact hk⟩
  · intro k₁ k₂ i g₁ g₂ h₁ h₂
    by_cases hk₁ : k₁ = k
    · by_cases hk₂ : k₂ = k
      · rw [hk₁, hk₂]
      · subst hk₁
        simp only [Function.update_self, Option.some.injEq, Prod.mk.injEq] at h₁
        rw [Function.update_of_ne hk₂] at h₂
        exact absurd h₁.1.symm (hother h₂)
    · rw [Function.update_of_ne hk₁] at h₁
      by_cases hk₂ : k₂ = k
      · subst hk₂
        simp only [Function.update_self, Option.some.injEq, Prod.mk.injEq] at h₂
        exact absurd h₂.1.symm (hother h₁)
      · rw [Function.update_of_ne hk₂] at h₂
        exact h.inj h₁ h₂

theorem Exclusive.give (h : Exclusive slots lease) (hk : lease k = some (index, generation)) :
    Exclusive (slots.set index ⟨false, generation⟩) (Function.update lease k none) := by
  have hlt := (List.getElem?_eq_some_iff.mp (h.held hk)).1
  constructor
  · intro k' i g' hk'
    by_cases hkk : k' = k
    · subst hkk
      simp at hk'
    · rw [Function.update_of_ne hkk] at hk'
      have hi : index ≠ i := by
        rintro rfl
        exact hkk (h.inj hk' hk)
      rw [List.getElem?_set_ne hi]
      exact h.held hk'
  · intro i g' hat
    by_cases hi : i = index
    · subst hi
      simp [hlt] at hat
    · rw [List.getElem?_set_ne (Ne.symm hi)] at hat
      obtain ⟨k', hk'⟩ := h.onto hat
      refine ⟨k', ?_⟩
      rw [Function.update_of_ne]
      · exact hk'
      · rintro rfl
        rw [hk] at hk'
        cases hk'
        exact hi rfl
  · intro k₁ k₂ i g₁ g₂ h₁ h₂
    by_cases hk₁ : k₁ = k
    · subst hk₁
      simp at h₁
    · by_cases hk₂ : k₂ = k
      · subst hk₂
        simp at h₂
      · rw [Function.update_of_ne hk₁] at h₁
        rw [Function.update_of_ne hk₂] at h₂
        exact h.inj h₁ h₂

/-- A slot changes hands. -/
theorem Exclusive.pass {k' : κ} (h : Exclusive slots lease) (hk : lease k = some (index, generation))
    (hnone : lease k' = none) :
    Exclusive slots (Function.update (Function.update lease k none) k' (some (index, generation))) := by
  have hat := h.held hk
  have hlt := (List.getElem?_eq_some_iff.mp hat).1
  have hgive := h.give hk
  have hfree : (slots.set index ⟨false, generation⟩)[index]? = some ⟨false, generation⟩ := by simp [hlt]
  have hnone' : Function.update lease k none k' = none := by
    by_cases hkk : k' = k
    · rw [hkk, Function.update_self]
    · rw [Function.update_of_ne hkk, hnone]
  have hclaim := hgive.claim generation hfree hnone'
  have hset : (slots.set index ⟨false, generation⟩).set index ⟨true, generation⟩ = slots := by
    rw [List.set_set]
    obtain ⟨_, heq⟩ := List.getElem?_eq_some_iff.mp hat
    rw [← heq, List.set_getElem_self]
  rwa [hset] at hclaim

omit [DecidableEq κ] in
theorem card_inUse (slots : List Slot) :
    ((Finset.range slots.length).filter fun i => (slots[i]?.any Slot.inUse) = true).card = used slots := by
  induction slots using List.reverseRecOn with
  | nil => rfl
  | append_singleton slots slot ih =>
      have hsame : (Finset.range slots.length).filter (fun i => ((slots ++ [slot])[i]?.any Slot.inUse) = true) =
          (Finset.range slots.length).filter (fun i => (slots[i]?.any Slot.inUse) = true) := by
        apply Finset.filter_congr
        intro i hi
        rw [List.getElem?_append_left (Finset.mem_range.mp hi)]
      rw [List.length_append, List.length_singleton, Finset.range_add_one, Finset.filter_insert, hsame]
      simp only [used, List.countP_append] at ih ⊢
      cases hslot : slot.inUse with
      | false => simp [hslot, ih]
      | true =>
          rw [if_pos (by simp [hslot]), Finset.card_insert_of_notMem (by simp), ih]
          simp [hslot]

/-- As many keys hold a slot as slots are in use. -/
theorem Exclusive.card_eq (h : Exclusive slots lease) :
    ∃ keys : Finset κ, (∀ k, k ∈ keys ↔ lease k ≠ none) ∧ keys.card = used slots := by
  have hchoice : ∀ i : Nat, ∃ k : Option κ, ∀ g, slots[i]? = some ⟨true, g⟩ → ∃ k', k = some k' ∧ lease k' = some (i, g) := by
    intro i
    cases hslot : slots[i]? with
    | none => exact ⟨none, nofun⟩
    | some slot =>
        obtain ⟨inUse, g⟩ := slot
        cases inUse with
        | false => exact ⟨none, nofun⟩
        | true =>
            obtain ⟨k, hk⟩ := h.onto hslot
            refine ⟨some k, ?_⟩
            rintro g' ⟨⟩
            exact ⟨k, rfl, hk⟩
  choose holder hholder using hchoice
  let inUse := (Finset.range slots.length).filter fun i => (slots[i]?.any Slot.inUse) = true
  have hslot {i : Nat} (hi : i ∈ inUse) : ∃ g, slots[i]? = some ⟨true, g⟩ := by
    have hany := (Finset.mem_filter.mp hi).2
    cases hs : slots[i]? with
    | none => simp [hs] at hany
    | some slot =>
        rw [hs] at hany
        exact ⟨slot.generation, by rw [← show slot.inUse = true from hany]⟩
  have hinj : ∀ i ∈ inUse, ∀ j ∈ inUse, holder i = holder j → i = j := by
    intro i hi j hj heq
    obtain ⟨g, hg⟩ := hslot hi
    obtain ⟨g', hg'⟩ := hslot hj
    obtain ⟨k, hk, hlease⟩ := hholder i g hg
    obtain ⟨k', hk', hlease'⟩ := hholder j g' hg'
    rw [hk, hk'] at heq
    cases heq
    rw [hlease] at hlease'
    cases hlease'
    rfl
  refine ⟨Finset.eraseNone (inUse.image holder), fun k => ?_, ?_⟩
  · rw [Finset.mem_eraseNone, Finset.mem_image]
    constructor
    · rintro ⟨i, hi, hk⟩
      obtain ⟨g, hg⟩ := hslot hi
      obtain ⟨k', hk', hlease⟩ := hholder i g hg
      rw [hk] at hk'
      cases hk'
      simp [hlease]
    · intro hne
      obtain ⟨⟨i, g⟩, hk⟩ := Option.ne_none_iff_exists'.mp hne
      have hat := h.held hk
      have hlt := (List.getElem?_eq_some_iff.mp hat).1
      obtain ⟨k', hk', hlease⟩ := hholder i g hat
      refine ⟨i, Finset.mem_filter.mpr ⟨Finset.mem_range.mpr hlt, by simp [hat]⟩, ?_⟩
      rw [hk', h.inj hlease hk]
  · have hnone : none ∉ inUse.image holder := by
      intro hmem
      obtain ⟨i, hi, hk⟩ := Finset.mem_image.mp hmem
      obtain ⟨g, hg⟩ := hslot hi
      obtain ⟨k', hk', -⟩ := hholder i g hg
      rw [hk] at hk'
      cases hk'
    rw [Finset.card_eraseNone_of_not_mem hnone, Finset.card_image_of_injOn hinj]
    exact card_inUse slots

end

/-! ## Generations -/

/-- The generations that a slot was claimed with. -/
def issuedOf (issued : List (Nat × Nat)) (index : Nat) : List Nat :=
  (issued.filter fun claim => decide (claim.1 = index)).map Prod.snd

/-- A slot that was claimed less than `limit` times counts its claims, so no generation comes twice. -/
structure Counts (limit : Nat) (slots : List Slot) (issued : List (Nat × Nat)) : Prop where
  generation : ∀ {i slot}, slots[i]? = some slot → (issuedOf issued i).length < limit →
    slot.generation = (issuedOf issued i).length
  nodup : ∀ i, (issuedOf issued i).length < limit → (issuedOf issued i).Nodup
  bounded : ∀ i, (issuedOf issued i).length < limit → ∀ g ∈ issuedOf issued i, g ≤ (issuedOf issued i).length

section

variable {limit : Nat} {issued : List (Nat × Nat)}

theorem Counts.nil (h : ∀ slot ∈ slots, slot.generation = 0) : Counts limit slots [] :=
  ⟨fun hat _ => h _ (List.mem_of_getElem? hat), fun _ _ => List.nodup_nil, fun _ _ _ hg => absurd hg List.not_mem_nil⟩

@[simp] theorem issuedOf_cons_self (issued : List (Nat × Nat)) (index generation : Nat) :
    issuedOf ((index, generation) :: issued) index = generation :: issuedOf issued index := by
  simp [issuedOf]

theorem issuedOf_cons_ne {i : Nat} (issued : List (Nat × Nat)) (generation : Nat) (h : index ≠ i) :
    issuedOf ((index, generation) :: issued) i = issuedOf issued i := by
  simp [issuedOf, h]

/-- A claim whose generation is the next one, unless the generations are used up. -/
theorem Counts.claim {old : Slot} (h : Counts limit slots issued) (hat : slots[index]? = some old)
    (hnext : old.generation + 1 < limit → generation = old.generation + 1) :
    Counts limit (slots.set index ⟨true, generation⟩) ((index, generation) :: issued) := by
  have hlt := (List.getElem?_eq_some_iff.mp hat).1
  have hsucc (hlen : (generation :: issuedOf issued index).length < limit) :
      generation = (issuedOf issued index).length + 1 := by
    rw [List.length_cons] at hlen
    have hold := h.generation hat (by omega)
    rw [hnext (by omega), hold]
  constructor
  · intro i slot hslot hlen
    by_cases hi : index = i
    · subst hi
      rw [issuedOf_cons_self] at hlen ⊢
      simp only [List.getElem?_set_self hlt, Option.some.injEq] at hslot
      rw [← hslot]
      exact hsucc hlen
    · rw [issuedOf_cons_ne issued generation hi] at hlen ⊢
      rw [List.getElem?_set_ne hi] at hslot
      exact h.generation hslot hlen
  · intro i hlen
    by_cases hi : index = i
    · subst hi
      rw [issuedOf_cons_self] at hlen ⊢
      have hnew := hsucc hlen
      rw [List.length_cons] at hlen
      refine List.nodup_cons.mpr ⟨fun hmem => ?_, h.nodup index (by omega)⟩
      have := h.bounded index (by omega) _ hmem
      omega
    · rw [issuedOf_cons_ne issued generation hi] at hlen ⊢
      exact h.nodup i hlen
  · intro i hlen g hg
    by_cases hi : index = i
    · subst hi
      rw [issuedOf_cons_self] at hlen hg ⊢
      have hnew := hsucc hlen
      rw [List.length_cons] at hlen ⊢
      rcases List.mem_cons.mp hg with rfl | hg
      · omega
      · have := h.bounded index (by omega) g hg
        omega
    · rw [issuedOf_cons_ne issued generation hi] at hlen hg ⊢
      exact h.bounded i hlen g hg

theorem Counts.give {inUse : Bool} (h : Counts limit slots issued) (hat : slots[index]? = some ⟨inUse, generation⟩) :
    Counts limit (slots.set index ⟨false, generation⟩) issued := by
  have hlt := (List.getElem?_eq_some_iff.mp hat).1
  refine ⟨fun {i slot} hslot hlen => ?_, h.nodup, h.bounded⟩
  by_cases hi : index = i
  · subst hi
    simp only [List.getElem?_set_self hlt, Option.some.injEq] at hslot
    rw [← hslot]
    have hgeneration := h.generation hat hlen
    exact hgeneration
  · rw [List.getElem?_set_ne hi] at hslot
    exact h.generation hslot hlen

end

/-! ## The books of a pool -/

section

variable {κ : Type*}

/-- A pool with what holds its slots and with the history of its claims and returns. -/
@[ext]
structure Ledger (κ : Type*) where
  slots : List Slot
  inUse : Nat
  holds : κ → Option (Nat × Nat)
  issued : List (Nat × Nat)
  released : Nat

variable [DecidableEq κ]

/-- What can happen to a slot. Below `limit` the generations of a slot count up by one. -/
inductive Ledger.Step (limit : Nat) (a : Ledger κ) : Ledger κ → Prop
  | quiet : Step limit a a
  | claim (k : κ) (index g generation : Nat) (hnone : a.holds k = none) (hfree : a.slots[index]? = some ⟨false, g⟩)
      (hnext : g + 1 < limit → generation = g + 1) :
      Step limit a ⟨a.slots.set index ⟨true, generation⟩, a.inUse + 1,
        Function.update a.holds k (some (index, generation)), (index, generation) :: a.issued, a.released⟩
  | pass (k k' : κ) (index generation : Nat) (hk : a.holds k = some (index, generation)) (hnone : a.holds k' = none) :
      Step limit a { a with
        holds := Function.update (Function.update a.holds k none) k' (some (index, generation)) }
  | give (k : κ) (index generation : Nat) (hk : a.holds k = some (index, generation)) :
      Step limit a ⟨a.slots.set index ⟨false, generation⟩, a.inUse - 1, Function.update a.holds k none, a.issued,
        a.released + 1⟩

/-- The books of a pool of `capacity` slots are right. -/
structure Ledger.Sound (limit capacity : Nat) (a : Ledger κ) : Prop where
  length : a.slots.length = capacity
  inUse : a.inUse = used a.slots
  exclusive : Exclusive a.slots a.holds
  counts : Counts limit a.slots a.issued
  balance : a.issued.length = a.released + a.inUse

namespace Ledger

variable {limit capacity : Nat} {a b : Ledger κ}

omit [DecidableEq κ] in
/-- A pool that nobody has used. -/
theorem sound_new (limit capacity : Nat) :
    Sound limit capacity (⟨List.replicate capacity ⟨false, 0⟩, 0, fun _ => none, [], 0⟩ : Ledger κ) := by
  have hslot : ∀ slot ∈ List.replicate capacity (⟨false, 0⟩ : Slot), slot = ⟨false, 0⟩ :=
    fun _ h => List.eq_of_mem_replicate h
  refine ⟨List.length_replicate, ?_, .empty fun slot h => by rw [hslot slot h], .nil fun slot h => by rw [hslot slot h],
    rfl⟩
  simp [used, List.countP_replicate]

theorem Step.sound (h : Step limit a b) (ha : Sound limit capacity a) : Sound limit capacity b := by
  obtain ⟨hlength, hinUse, hexclusive, hcounts, hbalance⟩ := ha
  cases h with
  | quiet => exact ⟨hlength, hinUse, hexclusive, hcounts, hbalance⟩
  | claim k index g generation hnone hfree hnext =>
      refine ⟨?_, ?_, hexclusive.claim generation hfree hnone, hcounts.claim hfree hnext, ?_⟩
      · rw [List.length_set, hlength]
      · simp only [used_claim hfree, hinUse]
      · simp only [List.length_cons, hbalance]
        rfl
  | pass k k' index generation hk hnone =>
      exact ⟨hlength, hinUse, hexclusive.pass hk hnone, hcounts, hbalance⟩
  | give k index generation hk =>
      have hat := hexclusive.held hk
      have hgive := used_give hat
      refine ⟨?_, ?_, hexclusive.give hk, hcounts.give hat, ?_⟩
      · rw [List.length_set, hlength]
      · simp only [hinUse, ← hgive, Nat.add_sub_cancel]
      · simp only [hbalance, hinUse, ← hgive, Nat.add_sub_cancel]
        rw [Nat.add_right_comm, Nat.add_assoc]

omit [DecidableEq κ] in
theorem Sound.inUse_le (h : Sound limit capacity a) : a.inUse ≤ capacity := by
  rw [h.inUse, ← h.length]
  exact used_le a.slots

omit [DecidableEq κ] in
theorem Sound.inUse_lt {index g : Nat} (h : Sound limit capacity a) (hfree : a.slots[index]? = some ⟨false, g⟩) :
    a.inUse < capacity := by
  have hclaim := used_claim hfree 0
  have hle := used_le (a.slots.set index ⟨true, 0⟩)
  rw [List.length_set, h.length] at hle
  rw [h.inUse]
  omega

omit [DecidableEq κ] in
theorem Sound.inUse_pos {k : κ} {index generation : Nat} (h : Sound limit capacity a)
    (hk : a.holds k = some (index, generation)) : 0 < a.inUse := by
  rw [h.inUse]
  exact used_pos (h.exclusive.held hk)

/-- A slot that was claimed less than `limit` times was claimed with greater generations each time. -/
def Ascending (limit : Nat) (issued : List (Nat × Nat)) : Prop :=
  ∀ i, (issuedOf issued i).length < limit → (issuedOf issued i).Pairwise (· > ·)

/-- What holds a slot holds it under the generation of its latest claim. -/
def Latest (a : Ledger κ) : Prop := ∀ {k i g}, a.holds k = some (i, g) → (issuedOf a.issued i).head? = some g

theorem Step.ascending (h : Step limit a b) (ha : Sound limit capacity a) (hascending : Ascending limit a.issued) :
    Ascending limit b.issued := by
  have hb := h.sound ha
  cases h with
  | quiet | pass | give => exact hascending
  | claim k index g generation hnone hfree hnext =>
      intro i hlen
      by_cases hi : index = i
      · subst hi
        have hlt := (List.getElem?_eq_some_iff.mp hfree).1
        have hat : (a.slots.set index ⟨true, generation⟩)[index]? = some ⟨true, generation⟩ := by simp [hlt]
        have hgeneration := hb.counts.generation hat hlen
        rw [issuedOf_cons_self] at hlen hgeneration ⊢
        rw [List.length_cons] at hlen hgeneration
        have hbefore := Nat.lt_of_succ_lt hlen
        refine List.pairwise_cons.mpr ⟨fun g' hg' => ?_, hascending index hbefore⟩
        have hle := ha.counts.bounded index hbefore g' hg'
        exact Nat.lt_of_le_of_lt hle (Nat.lt_of_lt_of_eq (Nat.lt_succ_self _) hgeneration.symm)
      · rw [issuedOf_cons_ne a.issued generation hi] at hlen ⊢
        exact hascending i hlen

theorem Step.latest (h : Step limit a b) (ha : Exclusive a.slots a.holds) (hlatest : a.Latest) : b.Latest := by
  cases h with
  | quiet => exact hlatest
  | claim k index g generation hnone hfree hnext =>
      intro k' i g' hk'
      by_cases hkk : k' = k
      · subst hkk
        simp only [Function.update_self, Option.some.injEq, Prod.mk.injEq] at hk'
        obtain ⟨rfl, rfl⟩ := hk'
        simp
      · simp only [Function.update_of_ne hkk] at hk'
        have hi : index ≠ i := by
          rintro rfl
          have hat := ha.held hk'
          rw [hfree] at hat
          cases hat
        simp only [issuedOf_cons_ne a.issued generation hi]
        exact hlatest hk'
  | pass k₁ k₂ index generation hk hnone =>
      intro k' i g' hk'
      by_cases hk₂ : k' = k₂
      · subst hk₂
        simp only [Function.update_self, Option.some.injEq, Prod.mk.injEq] at hk'
        obtain ⟨rfl, rfl⟩ := hk'
        exact hlatest hk
      · by_cases hk₁ : k' = k₁
        · simp [hk₁, Function.update_of_ne (hk₁ ▸ hk₂)] at hk'
        · simp only [Function.update_of_ne hk₂, Function.update_of_ne hk₁] at hk'
          exact hlatest hk'
  | give k index generation hk =>
      intro k' i g' hk'
      by_cases hkk : k' = k
      · simp [hkk] at hk'
      · simp only [Function.update_of_ne hkk] at hk'
        exact hlatest hk'

/-- A slot in use is not claimed. -/
theorem Step.issuedOf_of_inUse {index generation : Nat} (h : Step limit a b)
    (hat : a.slots[index]? = some ⟨true, generation⟩) : issuedOf b.issued index = issuedOf a.issued index := by
  cases h with
  | quiet | pass | give => rfl
  | claim k i g generation' hnone hfree hnext =>
      have hi : i ≠ index := by
        rintro rfl
        rw [hfree] at hat
        cases hat
      exact issuedOf_cons_ne a.issued generation' hi

/-- Only a claim changes the generation of a slot. -/
theorem Step.generation_eq {index : Nat} {old new : Slot} (h : Step limit a b) (ha : Exclusive a.slots a.holds)
    (hold : a.slots[index]? = some old) (hnew : b.slots[index]? = some new) :
    new.generation = old.generation ∨
      b.issued = (index, new.generation) :: a.issued ∧
        (old.generation + 1 < limit → new.generation = old.generation + 1) := by
  have hlt := (List.getElem?_eq_some_iff.mp hold).1
  cases h with
  | quiet | pass =>
      rw [hold] at hnew
      cases hnew
      exact .inl rfl
  | claim k i g generation hnone hfree hnext =>
      by_cases hi : i = index
      · subst hi
        rw [List.getElem?_set_self hlt] at hnew
        rw [hfree] at hold
        cases hnew
        cases hold
        exact .inr ⟨rfl, hnext⟩
      · rw [List.getElem?_set_ne hi, hold] at hnew
        cases hnew
        exact .inl rfl
  | give k i generation hk =>
      by_cases hi : i = index
      · subst hi
        rw [List.getElem?_set_self hlt] at hnew
        rw [ha.held hk] at hold
        cases hnew
        cases hold
        exact .inl rfl
      · rw [List.getElem?_set_ne hi, hold] at hnew
        cases hnew
        exact .inl rfl

end Ledger

end

end SlotPool
