import Mathlib.Algebra.Ring.Int.Defs
import Mathlib.Algebra.Ring.Nat
import Mathlib.Data.Nat.Basic
import Mathlib.Order.Basic

/-!
# Counts in another unit

`rescale a b n` is a count of `n` units as a count of other units, of which `a / b` make up one, rounded down.
-/

namespace TimeBase

def rescale (a b n : Nat) : Nat := n * a / b

variable {a b m n : Nat}

@[simp] theorem rescale_zero : rescale a b 0 = 0 := by simp [rescale]

theorem rescale_mono (h : m ≤ n) : rescale a b m ≤ rescale a b n :=
  Nat.div_le_div_right (Nat.mul_le_mul_right a h)

theorem rescale_eq_iff {k : Nat} (hb : 0 < b) : rescale a b n = k ↔ k * b ≤ n * a ∧ n * a < k * b + b := by
  rw [rescale, Nat.div_eq_iff hb]
  have hadd := Nat.sub_one_add_one (Nat.ne_of_gt (Nat.add_pos_right (k * b) hb))
  omega

/-- Units that are not coarser keep different counts apart. -/
theorem rescale_lt (hb : 0 < b) (hab : b ≤ a) (h : m < n) : rescale a b m < rescale a b n := by
  have hstep : rescale a b (m + 1) ≤ rescale a b n := rescale_mono h
  have hsucc : rescale a b m + 1 ≤ rescale a b (m + 1) := by
    rw [rescale, rescale, Nat.le_div_iff_mul_le hb, Nat.add_mul, Nat.add_mul, Nat.one_mul, Nat.one_mul]
    exact Nat.add_le_add (Nat.div_mul_le_self _ _) hab
  omega

/-- A count goes into the other unit and back unchanged when it is a whole number of these. -/
theorem rescale_back (ha : 0 < a) : rescale b a (rescale a b n) = n ↔ b ∣ n * a := by
  have hle : rescale a b n * b ≤ n * a := Nat.div_mul_le_self _ _
  rw [rescale_eq_iff ha]
  constructor
  · rintro ⟨hge, -⟩
    exact ⟨rescale a b n, (Nat.le_antisymm hle hge).symm.trans (Nat.mul_comm _ _)⟩
  · intro hdvd
    have heq : rescale a b n * b = n * a := Nat.div_mul_cancel hdvd
    rw [heq]
    exact ⟨Nat.le_refl _, Nat.lt_add_of_pos_right ha⟩

theorem rescale_back_le : rescale b a (rescale a b n) ≤ n := by
  rcases Nat.eq_zero_or_pos a with rfl | ha
  · simp [rescale]
  · rw [rescale, Nat.div_le_iff_le_mul_add_pred ha]
    have : rescale a b n * b ≤ n * a := Nat.div_mul_le_self _ _
    rw [Nat.mul_comm a n]
    omega

/-- One unit more is one rounded unit more, as long as the parts that are cut off do not make up another. -/
theorem rescale_succ (hb : 0 < b) :
    rescale a b (n + 1) = rescale a b n + rescale a b 1 ↔ n * a % b + a % b < b := by
  rw [rescale, rescale, rescale, Nat.add_mul, Nat.one_mul, Nat.add_div hb]
  split
  · constructor
    · intro h; omega
    · intro h; omega
  · constructor
    · intro h; omega
    · intro h; omega

/-- In arithmetic modulo `m` the result is right only when the product does not wrap: a product that wraps has lost at
least `m`, and so at least one whole unit. -/
theorem rescale_mod_eq_iff {m : Nat} (hb : 0 < b) (hbm : b ≤ m) : n * a % m / b = rescale a b n ↔ n * a < m := by
  constructor
  · intro h
    by_contra hge
    have hadd : n * a % m + m * (n * a / m) = n * a := Nat.mod_add_div (n * a) m
    have hone : m * 1 ≤ m * (n * a / m) :=
      Nat.mul_le_mul_left m (Nat.div_pos (Nat.le_of_not_lt hge) (Nat.lt_of_lt_of_le hb hbm))
    have hstep : n * a % m / b + 1 ≤ n * a / b := by
      rw [Nat.le_div_iff_mul_le hb, Nat.add_mul, Nat.one_mul]
      have hle : n * a % m / b * b ≤ n * a % m := Nat.div_mul_le_self _ _
      omega
    rw [rescale] at h
    omega
  · intro h
    rw [Nat.mod_eq_of_lt h, rescale]

/-- Coarser units keep no count but zero. -/
theorem eq_zero_of_rescale_eq (hab : a < b) (h : rescale a b n = n) : n = 0 := by
  by_contra hn
  have hlt : n * a < n * b := Nat.mul_lt_mul_of_pos_left hab (Nat.pos_of_ne_zero hn)
  have hge := (rescale_eq_iff (Nat.zero_lt_of_lt hab)).mp h
  omega

end TimeBase
