import Mathlib.Algebra.Order.Ring.Int

/-!
# Arithmetic in machine words

A computation with unsigned words is written over a monad, with `word` for the result of an operation of a number of bits whose
exact value is given. `wrapping` is what a machine does; `checked` stops at the first value that a word does not hold.
-/

namespace Words

variable {α β : Type}

/-- The exact value modulo the words. -/
def wrapping (bits : Nat) (x : Int) : Id Nat := pure (x % 2 ^ bits).toNat

/-- The exact value, where a word holds it. -/
def checked (bits : Nat) (x : Int) : Option Nat := if 0 ≤ x ∧ x < 2 ^ bits then some x.toNat else none

theorem checked_eq_some {bits n : Nat} {x : Int} : checked bits x = some n ↔ x = n ∧ n < 2 ^ bits := by
  unfold checked
  split
  case isTrue h =>
      have hn : (x.toNat < 2 ^ bits) := by
        rw [Int.toNat_lt h.1]
        exact_mod_cast h.2
      constructor
      · intro hx
        obtain rfl := Option.some.inj hx
        exact ⟨(Int.toNat_of_nonneg h.1).symm, hn⟩
      · rintro ⟨rfl, -⟩
        rfl
  case isFalse h =>
      constructor
      · intro hx
        cases hx
      · rintro ⟨rfl, hn⟩
        exact absurd ⟨Int.natCast_nonneg n, by exact_mod_cast hn⟩ h

theorem checked_natCast {bits n : Nat} (h : n < 2 ^ bits) : checked bits n = some n := checked_eq_some.mpr ⟨rfl, h⟩

/-- A computation that starts with a natural number goes on with it where the word holds it. -/
theorem checked_natCast_bind {bits n : Nat} (f : Nat → Option α) :
    (checked bits n >>= f) = if n < 2 ^ bits then f n else none := by
  split
  case isTrue h => rw [checked_natCast h]; rfl
  case isFalse h =>
      cases hn : checked bits n with
      | none => rfl
      | some k =>
          obtain ⟨hk, hlt⟩ := checked_eq_some.mp hn
          obtain rfl := Int.natCast_inj.mp hk
          exact absurd hlt h

/-- What a checked computation gives, the machine gives. -/
def Refines (x : Option α) (y : Id α) : Prop := ∀ a, x = some a → y = a

theorem refines_word (bits : Nat) (x : Int) : Refines (checked bits x) (wrapping bits x) := by
  intro n h
  obtain ⟨rfl, hn⟩ := checked_eq_some.mp h
  show ((n : Int) % 2 ^ bits).toNat = n
  rw [Int.emod_eq_of_lt (Int.natCast_nonneg n) (by exact_mod_cast hn), Int.toNat_natCast]

/-- The exact value in two's complement. -/
def wrappingInt (bits : Nat) (x : Int) : Id Int := pure (x.bmod (2 ^ bits))

/-- The exact value, where a signed word holds it. -/
def checkedInt (bits : Nat) (x : Int) : Option Int :=
  if -((2 ^ bits : Nat) / 2 : Int) ≤ x ∧ x < ((2 ^ bits + 1 : Nat) / 2 : Int) then some x else none

theorem checkedInt_eq_some {bits : Nat} {x y : Int} :
    checkedInt bits x = some y ↔ x = y ∧ -((2 ^ bits : Nat) / 2 : Int) ≤ x ∧ x < ((2 ^ bits + 1 : Nat) / 2 : Int) := by
  unfold checkedInt
  split
  case isTrue h => exact ⟨fun hx => ⟨Option.some.inj hx, h⟩, fun hx => congrArg some hx.1⟩
  case isFalse h => exact ⟨nofun, fun hx => absurd hx.2 h⟩

theorem refines_int (bits : Nat) (x : Int) : Refines (checkedInt bits x) (wrappingInt bits x) := by
  intro y h
  obtain ⟨rfl, hlow, hhigh⟩ := checkedInt_eq_some.mp h
  exact Int.bmod_eq_of_le (by omega) (by exact_mod_cast hhigh)

/-- The computation leaves no word, and the machine gives the value. -/
def Exact (x : Option α) (y : Id α) (a : α) : Prop := x = some a ∧ y = a

theorem Refines.exact {x : Option α} {y : Id α} (h : Refines x y) {a : α} : Exact x y a ↔ x = some a :=
  ⟨And.left, fun hx => ⟨hx, h a hx⟩⟩

theorem Refines.pure (a : α) : Refines (Pure.pure a) (Pure.pure a) := fun _ h => Option.some.inj h

theorem Refines.bind {x : Option α} {y : Id α} {f : α → Option β} {g : α → Id β} (hx : Refines x y)
    (hf : ∀ a, Refines (f a) (g a)) : Refines (x >>= f) (y >>= g) := by
  intro b h
  obtain ⟨a, ha, hb⟩ := Option.bind_eq_some_iff.mp h
  have hy : y = a := hx a ha
  show g y = b
  rw [hy]
  exact hf a b hb

theorem Refines.ite {c : Prop} [Decidable c] {x x' : Option α} {y y' : Id α} (ht : Refines x y) (hf : Refines x' y') :
    Refines (if c then x else x') (if c then y else y') := by
  split
  · exact ht
  · exact hf

end Words
