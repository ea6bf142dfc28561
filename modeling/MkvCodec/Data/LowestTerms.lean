import Mathlib.Data.Nat.GCD.Basic
import Mathlib.Tactic.Ring

/-!
# Fractions in lowest terms

`lowest n d` is the fraction `n / d` in lowest terms, as a numerator and a denominator.
-/

namespace LowestTerms

def lowest (n d : Nat) : Nat × Nat := (n / Nat.gcd n d, d / Nat.gcd n d)

variable {n d n' d' : Nat}

theorem lowest_cross (n d : Nat) : (lowest n d).1 * d = n * (lowest n d).2 := by
  have hn : Nat.gcd n d ∣ n := Nat.gcd_dvd_left n d
  have hd : Nat.gcd n d ∣ d := Nat.gcd_dvd_right n d
  rw [lowest, Nat.div_mul_right_comm hn, Nat.mul_div_assoc n hd]

theorem lowest_coprime (hd : 0 < d) : Nat.Coprime (lowest n d).1 (lowest n d).2 :=
  Nat.coprime_div_gcd_div_gcd (Nat.gcd_pos_of_pos_right n hd)

theorem lowest_snd_pos (hd : 0 < d) : 0 < (lowest n d).2 :=
  Nat.div_pos (Nat.le_of_dvd hd (Nat.gcd_dvd_right n d)) (Nat.gcd_pos_of_pos_right n hd)

theorem lowest_fst_le (n d : Nat) : (lowest n d).1 ≤ n := Nat.div_le_self n _

theorem lowest_snd_le (n d : Nat) : (lowest n d).2 ≤ d := Nat.div_le_self d _

/-- A fraction has one form in lowest terms. -/
theorem eq_of_coprime (hc : Nat.Coprime n d) (hc' : Nat.Coprime n' d') (hd : 0 < d) (h : n * d' = n' * d) :
    n = n' ∧ d = d' := by
  have hdvd : d ∣ d' := hc.symm.dvd_of_dvd_mul_left ⟨n', by rw [h, Nat.mul_comm]⟩
  have hdvd' : d' ∣ d := hc'.symm.dvd_of_dvd_mul_left ⟨n, by rw [← h, Nat.mul_comm]⟩
  obtain rfl : d = d' := Nat.dvd_antisymm hdvd hdvd'
  exact ⟨Nat.eq_of_mul_eq_mul_right hd h, rfl⟩

/-- Two fractions are the same in lowest terms when they are equal across. -/
theorem lowest_eq_iff (hd : 0 < d) (hd' : 0 < d') : lowest n d = lowest n' d' ↔ n * d' = n' * d := by
  have hcross := lowest_cross n d
  have hcross' := lowest_cross n' d'
  have hpos := lowest_snd_pos (n := n) hd
  have hpos' := lowest_snd_pos (n := n') hd'
  constructor
  · intro h
    rw [h] at hcross hpos
    apply Nat.eq_of_mul_eq_mul_right hpos'
    calc n * d' * (lowest n' d').2 = n * (lowest n' d').2 * d' := Nat.mul_right_comm _ _ _
      _ = (lowest n' d').1 * d * d' := by rw [hcross]
      _ = (lowest n' d').1 * d' * d := Nat.mul_right_comm _ _ _
      _ = n' * (lowest n' d').2 * d := by rw [hcross']
      _ = n' * d * (lowest n' d').2 := Nat.mul_right_comm _ _ _
  · intro h
    have hlow : (lowest n d).1 * (lowest n' d').2 = (lowest n' d').1 * (lowest n d).2 := by
      apply Nat.eq_of_mul_eq_mul_right (Nat.mul_pos hd hd')
      calc (lowest n d).1 * (lowest n' d').2 * (d * d')
          = (lowest n d).1 * d * ((lowest n' d').2 * d') := Nat.mul_mul_mul_comm _ _ _ _
        _ = n * d' * ((lowest n d).2 * (lowest n' d').2) := by rw [hcross]; ring
        _ = n' * (lowest n' d').2 * ((lowest n d).2 * d) := by rw [h]; ring
        _ = (lowest n' d').1 * (lowest n d).2 * (d * d') := by rw [← hcross']; ring
    obtain ⟨hfst, hsnd⟩ := eq_of_coprime (lowest_coprime hd) (lowest_coprime hd') hpos hlow
    exact Prod.ext hfst hsnd

end LowestTerms
