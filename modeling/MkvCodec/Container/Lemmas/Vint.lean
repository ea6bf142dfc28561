import MkvCodec.Container.Ebml

/-!
# What `read_vint` reads

A call of `read_vint` either rejects or reads one field, and it reads every field that stands at its position.
-/

namespace MkvCodec.Container

open Prefixed

theorem byteAt_of_drop {data bytes : List UInt8} {position : Nat} {byte : UInt8} (h : data.drop position = byte :: bytes) :
    byteAt data position = .ok byte := by
  have hget : data[position]? = some byte := by
    have := congrArg List.head? h
    simpa using this
  simp [byteAt, hget]

theorem drop_add_of_drop {data bytes rest : List UInt8} {position : Nat} (h : data.drop position = bytes ++ rest) :
    data.drop (position + bytes.length) = rest := by
  rw [← List.drop_drop, h]
  simp

/-! ## The loops -/

theorem findMarker_eq {first : UInt8} {width : Nat} (hw : 1 ≤ width) (hw8 : width ≤ 8)
    (hlow : 2 ^ (8 - width) ≤ first.toNat) (hhigh : first.toNat < 2 ^ (9 - width)) :
    findMarker first 8 0x80 1 = some (UInt8.ofNat (2 ^ (8 - width)), width) ∧
      (first &&& ~~~UInt8.ofNat (2 ^ (8 - width))).toNat = first.toNat - 2 ^ (8 - width) := by
  have hmarker : ∀ width < 9, ∀ n < 256, 1 ≤ width ∧ 2 ^ (8 - width) ≤ n ∧ n < 2 ^ (9 - width) →
      findMarker (UInt8.ofNat n) 8 0x80 1 = some (UInt8.ofNat (2 ^ (8 - width)), width) := by
    decide +kernel
  have hclear : ∀ width < 9, ∀ n < 256, 1 ≤ width ∧ 2 ^ (8 - width) ≤ n ∧ n < 2 ^ (9 - width) →
      (UInt8.ofNat n &&& ~~~UInt8.ofNat (2 ^ (8 - width))).toNat = n - 2 ^ (8 - width) := by
    decide +kernel
  have hm := hmarker width (by omega) first.toNat first.toNat_lt ⟨hw, hlow, hhigh⟩
  have hc := hclear width (by omega) first.toNat first.toNat_lt ⟨hw, hlow, hhigh⟩
  rw [UInt8.ofNat_toNat] at hm hc
  exact ⟨hm, hc⟩

/-- The width that the first byte tells. -/
theorem width_of_first {first : UInt8} (h : first ≠ 0) :
    ∃ width, 1 ≤ width ∧ width ≤ 8 ∧ 2 ^ (8 - width) ≤ first.toNat ∧ first.toNat < 2 ^ (9 - width) := by
  have hne : first.toNat ≠ 0 := fun h0 => h (UInt8.toNat_inj.mp h0)
  have hlt : first.toNat < 2 ^ 8 := first.toNat_lt
  have hlog := (Nat.log2_lt hne).mpr hlt
  refine ⟨8 - Nat.log2 first.toNat, by omega, by omega, ?_, ?_⟩
  · rw [show 8 - (8 - Nat.log2 first.toNat) = Nat.log2 first.toNat by omega]
    exact Nat.log2_self_le hne
  · rw [show 9 - (8 - Nat.log2 first.toNat) = Nat.log2 first.toNat + 1 by omega]
    exact Nat.lt_log2_self

theorem shift_or {value : Nat} (byte : UInt8) (h : value < 2 ^ 56) :
    (UInt64.ofNat value <<< 8) ||| byte.toUInt64 = UInt64.ofNat (value * 256 + byte.toNat) := by
  apply UInt64.toNat_inj.mp
  have hbyte : byte.toNat < 2 ^ 8 := byte.toNat_lt
  have hshift : ((UInt64.ofNat value) <<< 8).toNat = 2 ^ 8 * value := by
    rw [UInt64.toNat_shiftLeft, UInt64.toNat_ofNat', Nat.shiftLeft_eq]
    have h8 : (8 : UInt64).toNat % 64 = 8 := rfl
    rw [h8]
    omega
  rw [UInt64.toNat_or, hshift, UInt8.toNat_toUInt64, ← Nat.two_pow_add_eq_or_of_lt hbyte, UInt64.toNat_ofNat']
  omega

theorem readTail_ok {data bytes rest : List UInt8} {position index value : Nat}
    (h : data.drop (position + index) = bytes ++ rest) (hlt : (value + 1) * 256 ^ bytes.length ≤ 2 ^ 64) :
    readTail data position bytes.length index (UInt64.ofNat value) =
      .ok (UInt64.ofNat (bytes.foldl (fun value byte => value * 256 + byte.toNat) value)) := by
  induction bytes generalizing index value with
  | nil => rfl
  | cons byte bytes ih =>
      have hbyte := byteAt_of_drop h
      have hpos : 0 < 256 ^ bytes.length := Nat.pow_pos (by decide)
      rw [List.length_cons, pow_succ] at hlt
      have hsmall : value < 2 ^ 56 := by
        have : (value + 1) * (1 * 256) ≤ (value + 1) * (256 ^ bytes.length * 256) :=
          Nat.mul_le_mul_left _ (Nat.mul_le_mul_right _ hpos)
        omega
      have hnext : (value * 256 + byte.toNat + 1) * 256 ^ bytes.length ≤ 2 ^ 64 := by
        have hb := byte.toNat_lt
        calc (value * 256 + byte.toNat + 1) * 256 ^ bytes.length
            ≤ ((value + 1) * 256) * 256 ^ bytes.length := Nat.mul_le_mul_right _ (by omega)
          _ = (value + 1) * (256 ^ bytes.length * 256) := by ring
          _ ≤ 2 ^ 64 := hlt
      have hdrop : data.drop (position + (index + 1)) = bytes ++ rest := by
        have htail : data.drop (position + index + [byte].length) = bytes ++ rest := drop_add_of_drop h
        simpa [Nat.add_assoc] using htail
      simp only [readTail, List.length_cons, hbyte, bind, Except.bind, shift_or byte hsmall, List.foldl_cons]
      exact ih hdrop hnext

/-! ## One field -/

/-- The number that is reported of a field. -/
def fieldValue (keepMarker : Bool) (width n : Nat) : Nat := if keepMarker then 2 ^ (7 * width) + n else n

theorem fieldValue_lt (keepMarker : Bool) {width n : Nat} (hw8 : width ≤ 8) (hn : n < 2 ^ (7 * width)) :
    fieldValue keepMarker width n < 2 ^ 64 := by
  have hpow : 2 ^ (7 * width) ≤ 2 ^ 56 := Nat.pow_le_pow_right (by decide) (by omega)
  rw [fieldValue]
  split <;> omega

/-- The value of a size is what its field says. -/
theorem toNat_fieldValue {width n : Nat} (hw8 : width ≤ 8) (hn : n < 2 ^ (7 * width)) :
    (UInt64.ofNat (fieldValue false width n)).toNat = n := UInt64.toNat_ofNat_of_lt' (fieldValue_lt false hw8 hn)

theorem readVint_complete (keepMarker : Bool) {data rest : List UInt8} {position width n : Nat} (hw : 1 ≤ width)
    (hw8 : width ≤ 8) (hn : n < 2 ^ (7 * width)) (h : data.drop position = field width n ++ rest) :
    readVint data position keepMarker =
      .ok ⟨UInt64.ofNat (fieldValue keepMarker width n), width, position + width⟩ := by
  obtain ⟨first, bytes, hfield, hlen, hlow, hhigh⟩ := field_cons hw hw8 hn
  have hvalue := beValue_field hn hw
  rw [hfield, beValue_cons] at hvalue
  rw [hfield, List.cons_append] at h
  have hdata : position + width ≤ data.length := by
    have := congrArg List.length h
    simp only [List.length_drop, List.length_cons, List.length_append] at this
    omega
  have hne : first ≠ 0 := by
    rintro rfl
    have hpos : 0 < 2 ^ (8 - width) := Nat.pow_pos (by decide)
    simp at hlow
  obtain ⟨hmarker, hclear⟩ := findMarker_eq hw hw8 hlow hhigh
  have hdrop : data.drop (position + 1) = bytes ++ rest := by
    have htail : data.drop (position + [first].length) = bytes ++ rest := drop_add_of_drop h
    simpa using htail
  obtain rfl : width = bytes.length + 1 := hlen.symm
  have hpow : (256 : Nat) ^ bytes.length * 2 ^ (8 - (bytes.length + 1)) = 2 ^ (7 * (bytes.length + 1)) := by
    rw [show 256 = 2 ^ 8 from rfl, ← pow_mul, ← pow_add]
    congr 1
    omega
  have hbyte := first.toNat_lt
  have htail {value : Nat} (hv : value < 2 ^ 8) :
      readTail data position bytes.length 1 (UInt64.ofNat value) =
        .ok (UInt64.ofNat (value * 256 ^ bytes.length + beValue bytes)) := by
    rw [readTail_ok hdrop, foldl_beValue]
    have hle : 256 ^ bytes.length ≤ 256 ^ 7 := Nat.pow_le_pow_right (by decide) (by omega)
    calc (value + 1) * 256 ^ bytes.length ≤ 2 ^ 8 * 256 ^ 7 := Nat.mul_le_mul hv hle
      _ = 2 ^ 64 := rfl
  have hread : readTail data position bytes.length 1
      (if keepMarker then first else first &&& ~~~UInt8.ofNat (2 ^ (8 - (bytes.length + 1)))).toUInt64 =
      .ok (UInt64.ofNat (fieldValue keepMarker (bytes.length + 1) n)) := by
    cases keepMarker with
    | true =>
        have hof : first.toUInt64 = UInt64.ofNat first.toNat := by simp
        rw [if_pos rfl, hof, htail hbyte, fieldValue, if_pos rfl, hvalue]
    | false =>
        have hof (b : UInt8) : b.toUInt64 = UInt64.ofNat b.toNat := by simp
        rw [if_neg (by simp), hof, hclear, htail ((Nat.sub_le _ _).trans_lt hbyte), fieldValue, if_neg (by simp), Nat.mul_comm, Nat.mul_sub,
          hpow]
        congr 2
        rw [Nat.mul_comm] at hvalue
        have : 2 ^ (7 * (bytes.length + 1)) ≤ 256 ^ bytes.length * first.toNat := by
          rw [← hpow]
          exact Nat.mul_le_mul_left _ hlow
        omega
  rw [readVint, if_neg (by omega)]
  simp only [byteAt_of_drop h, bind, Except.bind, if_neg hne, hmarker, if_neg (Nat.not_lt.mpr hdata),
    Nat.add_sub_cancel, hread]

theorem readVint_sound (data : List UInt8) (position : Nat) (keepMarker : Bool) :
    readVint data position keepMarker = .error .rejected ∨
      ∃ width n rest, 1 ≤ width ∧ width ≤ 8 ∧ n < 2 ^ (7 * width) ∧ data.drop position = field width n ++ rest ∧
        readVint data position keepMarker =
          .ok ⟨UInt64.ofNat (fieldValue keepMarker width n), width, position + width⟩ := by
  cases hd : data.drop position with
  | nil =>
      left
      rw [readVint, if_pos (List.drop_eq_nil_iff.mp hd)]
  | cons first bytes =>
      have hlen := congrArg List.length hd
      rw [List.length_drop, List.length_cons] at hlen
      by_cases hzero : first = 0
      · left
        rw [readVint, if_neg (by omega)]
        simp only [byteAt_of_drop hd, bind, Except.bind, if_pos hzero]
      · obtain ⟨width, hw, hw8, hlow, hhigh⟩ := width_of_first hzero
        by_cases hshort : data.length < position + width
        · left
          rw [readVint, if_neg (by omega)]
          simp only [byteAt_of_drop hd, bind, Except.bind, if_neg hzero, (findMarker_eq hw hw8 hlow hhigh).1,
            if_pos hshort]
        · right
          have htake : (bytes.take (width - 1)).length + 1 = width := by
            rw [List.length_take]
            omega
          obtain ⟨n, hn, hfield, -⟩ := eq_field hw hw8 htake hlow hhigh
          have hsplit : data.drop position = field width n ++ bytes.drop (width - 1) := by
            rw [← hfield, hd, List.cons_append, List.take_append_drop]
          exact ⟨width, n, _, hw, hw8, hn, by rw [← hd, hsplit], readVint_complete _ hw hw8 hn hsplit⟩

end MkvCodec.Container
