import MkvCodec.Container.Ebml

/-!
# What `write_size` writes

A number below the reserved pattern of a field is written over the field, and nothing else changes.
-/

namespace MkvCodec.Container

open Prefixed

theorem writeBytes_eq {before old after : List UInt8} {width index : Nat} {value : UInt64}
    (hw : old.length + index = width) :
    writeBytes (before ++ (old ++ after)) before.length width old.length index value =
      before ++ (beBytes old.length value.toNat ++ after) := by
  induction old using List.reverseRecOn generalizing index value after with
  | nil => rfl
  | append_singleton old byte ih =>
      simp only [List.length_append, List.length_singleton] at hw ⊢
      have hset : (before ++ (old ++ [byte] ++ after)).set (before.length + width - 1 - index) (value &&& 0xFF).toUInt8 =
          before ++ (old ++ ((value &&& 0xFF).toUInt8 :: after)) := by
        rw [show before.length + width - 1 - index = before.length + old.length by omega, ← List.append_assoc,
          ← List.append_assoc, List.append_assoc, ← List.length_append, List.singleton_append]
        simp
      have hlow : (value &&& 0xFF).toUInt8 = UInt8.ofNat (value.toNat % 256) := by
        apply UInt8.toNat_inj.mp
        have hmask : (0xFF : UInt64).toNat = 2 ^ 8 - 1 := rfl
        rw [UInt64.toNat_toUInt8, UInt64.toNat_and, hmask, Nat.and_two_pow_sub_one_eq_mod, UInt8.toNat_ofNat']
      have hhigh : (value >>> 8).toNat = value.toNat / 256 := by
        rw [UInt64.toNat_shiftRight]
        simp [Nat.shiftRight_eq_div_pow]
      rw [writeBytes, hset, ih (by omega), hlow, hhigh, beBytes]
      simp

/-- The marker joins the first byte. -/
theorem marker_or {width first : Nat} (hw8 : width < 8) (hfirst : first < 2 ^ (7 - width)) :
    UInt8.ofNat first ||| 1 <<< UInt8.ofNat (8 - (width + 1)) = UInt8.ofNat (2 ^ (7 - width) + first) := by
  have hmarker : ∀ width < 8, (1 : UInt8) <<< UInt8.ofNat (8 - (width + 1)) = UInt8.ofNat (2 ^ (7 - width)) := by
    decide
  have hpow : 2 ^ (7 - width) ≤ 2 ^ 7 := Nat.pow_le_pow_right (by decide) (by omega)
  have hor := Nat.two_pow_add_eq_or_of_lt hfirst 1
  apply UInt8.toNat_inj.mp
  rw [hmarker width hw8, UInt8.toNat_or, UInt8.toNat_ofNat', UInt8.toNat_ofNat', UInt8.toNat_ofNat',
    Nat.mod_eq_of_lt (by omega), Nat.mod_eq_of_lt (by omega), Nat.mod_eq_of_lt (by omega), Nat.or_comm]
  simpa using hor.symm

theorem modify_behind (before after : List UInt8) (byte : UInt8) (f : UInt8 → UInt8) :
    (before ++ byte :: after).modify before.length f = before ++ f byte :: after := by
  induction before with
  | nil => rfl
  | cons b before ih => simpa using ih

theorem limit_toNat {width : Nat} (hw : 1 ≤ width) (hw8 : width < 8) :
    ((1 <<< UInt64.ofNat (7 * width)) - 1 : UInt64).toNat = 2 ^ (7 * width) - 1 := by
  have hall : ∀ width < 8, 1 ≤ width → ((1 <<< UInt64.ofNat (7 * width)) - 1 : UInt64).toNat = 2 ^ (7 * width) - 1 := by
    decide
  exact hall width hw8 hw

/-- A number below the reserved pattern is written. -/
theorem writeSize_ok (before old after : List UInt8) (value : UInt64) (hw : 1 ≤ old.length) (hw8 : old.length ≤ 8)
    (hvalue : value.toNat < 2 ^ (7 * old.length) - 1) :
    writeSize (before ++ (old ++ after)) before.length old.length value =
      some (before ++ (field old.length value.toNat ++ after)) := by
  have hlimit : ¬ (if old.length = 8 then 0xFFFFFFFFFFFFFFFF
      else (1 <<< UInt64.ofNat (7 * old.length)) - 1 : UInt64) ≤ value := by
    rw [UInt64.not_le, UInt64.lt_iff_toNat_lt]
    by_cases h8 : old.length = 8
    · rw [if_pos h8]
      rw [h8] at hvalue
      exact hvalue.trans (by decide)
    · rw [if_neg h8, limit_toNat hw (by omega)]
      exact hvalue
  obtain ⟨width, hwidth⟩ : ∃ width, old.length = width + 1 := ⟨old.length - 1, by omega⟩
  have hfirst : value.toNat / 256 ^ width < 2 ^ (7 - width) := by
    rw [Nat.div_lt_iff_lt_mul (Nat.pow_pos (by decide))]
    have hpow : 2 ^ (7 - width) * 256 ^ width = 2 ^ (7 * old.length) := by
      rw [hwidth, show 256 = 2 ^ 8 from rfl, ← pow_mul, ← pow_add]
      congr 1
      omega
    omega
  have hwidth8 : width < 8 := by omega
  simp only [writeSize, if_neg hlimit]
  rw [writeBytes_eq (by omega), hwidth, beBytes_succ, field_eq_cons (by omega)]
  simp only [List.cons_append, modify_behind, marker_or hwidth8 hfirst]

/-- A number that does not fit is refused. -/
theorem writeSize_none {data : List UInt8} {position width : Nat} {value : UInt64} (hw : 1 ≤ width) (hw8 : width < 8)
    (hvalue : 2 ^ (7 * width) - 1 ≤ value.toNat) : writeSize data position width value = none := by
  have hlimit : (1 <<< UInt64.ofNat (7 * width)) - 1 ≤ value := by
    rw [UInt64.le_iff_toNat_le, limit_toNat hw hw8]
    exact hvalue
  simp only [writeSize, if_neg (Nat.ne_of_lt hw8), if_pos hlimit]

end MkvCodec.Container
