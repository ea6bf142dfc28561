import Mathlib.Data.List.Basic

/-!
# Blocks written to a memory

A memory has a value at each address. Blocks that lie apart may be written in any order.
-/

namespace Block

variable {α ι : Type*}

/-- `values` written from `address` on. -/
def write (memory : Int → α) (address : Int) (values : List α) : Int → α := fun a =>
  if h : address ≤ a ∧ a < address + values.length then values.get ⟨(a - address).toNat, by omega⟩ else memory a

/-- The addresses of `n` values from `a` on, and of `m` values from `b` on, lie apart. -/
def Apart (a : Int) (n : Nat) (b : Int) (m : Nat) : Prop := a + n ≤ b ∨ b + m ≤ a

theorem write_outside {memory : Int → α} {address a : Int} {values : List α}
    (h : ¬ (address ≤ a ∧ a < address + values.length)) : write memory address values a = memory a := by
  rw [write, dif_neg h]

theorem write_inside {m m' : Int → α} {address a : Int} {values : List α}
    (h : address ≤ a ∧ a < address + values.length) : write m address values a = write m' address values a := by
  rw [write, write, dif_pos h, dif_pos h]

theorem write_comm {memory : Int → α} {a b : Int} {xs ys : List α} (h : Apart a xs.length b ys.length) :
    write (write memory a xs) b ys = write (write memory b ys) a xs := by
  funext c
  by_cases hx : a ≤ c ∧ c < a + xs.length
  · have hy : ¬ (b ≤ c ∧ c < b + ys.length) := by
      unfold Apart at h
      omega
    rw [write_outside hy]
    exact write_inside hx
  · rw [write_outside hx]
    by_cases hy : b ≤ c ∧ c < b + ys.length
    · exact write_inside hy
    · rw [write_outside hy, write_outside hy, write_outside hx]

/-- Each of `items` writes its block. -/
def writeAll (address : ι → Int) (values : ι → List α) (items : List ι) (memory : Int → α) : Int → α :=
  items.foldl (fun memory i => write memory (address i) (values i)) memory

theorem writeAll_flatMap {κ : Type*} (address : ι → Int) (values : ι → List α) (groups : List κ) (items : κ → List ι)
    (memory : Int → α) : writeAll address values (groups.flatMap items) memory =
      groups.foldl (fun memory g => writeAll address values (items g) memory) memory :=
  List.foldl_flatMap

/-- Blocks that lie apart leave the same memory in whatever order they are written. -/
theorem writeAll_perm {address : ι → Int} {values : ι → List α} {items items' : List ι} (hperm : items.Perm items')
    (hapart : ∀ i ∈ items, ∀ j ∈ items, i ≠ j → Apart (address i) (values i).length (address j) (values j).length)
    (memory : Int → α) : writeAll address values items memory = writeAll address values items' memory := by
  apply hperm.foldl_eq'
  intro i hi j hj memory
  by_cases hij : i = j
  · rw [hij]
  · exact write_comm (hapart i hi j hj hij)

end Block
