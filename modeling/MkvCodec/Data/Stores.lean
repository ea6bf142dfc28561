import Mathlib.Logic.Function.Basic

/-!
# Stores to a memory

A list of stores and the memory behind it. Stores fill a region with given values when they go to its addresses and nowhere
else and leave these values there, in whatever order and however often.
-/

namespace Stores

variable {A B : Type*} [DecidableEq A] {stores stores' : List (A × B)} {memory : A → B} {region region' : A → Prop}
  {value : A → B} {a : A}

def after (memory : A → B) (stores : List (A × B)) : A → B :=
  stores.foldl (fun memory store => Function.update memory store.1 store.2) memory

@[simp] theorem after_nil : after memory [] = memory := rfl

@[simp] theorem after_cons (store : A × B) :
    after memory (store :: stores) = after (Function.update memory store.1 store.2) stores := rfl

theorem after_append : after memory (stores ++ stores') = after (after memory stores) stores' := List.foldl_append

theorem after_of_not_mem (h : ∀ b, (a, b) ∉ stores) : after memory stores a = memory a := by
  induction stores generalizing memory with
  | nil => rfl
  | cons store stores ih =>
      have hne : a ≠ store.1 := by
        rintro rfl
        exact h store.2 List.mem_cons_self
      rw [after_cons, ih fun b hb => h b (List.mem_cons_of_mem _ hb), Function.update_of_ne hne]

structure Fills (stores : List (A × B)) (region : A → Prop) (value : A → B) : Prop where
  mem_iff : ∀ a, (∃ b, (a, b) ∈ stores) ↔ region a
  after_eq : ∀ (memory : A → B) (a : A), region a → after memory stores a = value a

namespace Fills

theorem congr_region (h : Fills stores region value) (hiff : ∀ a, region a ↔ region' a) :
    Fills stores region' value :=
  ⟨fun a => (h.mem_iff a).trans (hiff a), fun memory a ha => h.after_eq memory a ((hiff a).mpr ha)⟩

theorem nil (h : ∀ a, ¬ region a) : Fills [] region value := ⟨by simp [h], fun _ a ha => absurd ha (h a)⟩

theorem singleton (a : A) (value : A → B) : Fills [(a, value a)] (· = a) value where
  mem_iff a' := by simp [Prod.ext_iff]
  after_eq memory a' h := by
    rw [h, after_cons, after_nil, Function.update_self]

theorem append (h : Fills stores region value) (h' : Fills stores' region' value) :
    Fills (stores ++ stores') (fun a => region a ∨ region' a) value where
  mem_iff a := by
    simp only [List.mem_append, exists_or, h.mem_iff, h'.mem_iff]
  after_eq memory a ha := by
    rw [after_append]
    by_cases ha' : region' a
    · exact h'.after_eq _ a ha'
    · rw [after_of_not_mem fun b hb => ha' ((h'.mem_iff a).mp ⟨b, hb⟩)]
      exact h.after_eq memory a (ha.resolve_right ha')

/-- Nothing else about the stores can be seen in the memory. -/
theorem after_unique (h : Fills stores region value) (h' : Fills stores' region value) (memory : A → B) :
    after memory stores = after memory stores' := by
  funext a
  by_cases ha : region a
  · rw [h.after_eq memory a ha, h'.after_eq memory a ha]
  · rw [after_of_not_mem fun b hb => ha ((h.mem_iff a).mp ⟨b, hb⟩),
      after_of_not_mem fun b hb => ha ((h'.mem_iff a).mp ⟨b, hb⟩)]

end Fills

end Stores
