import MkvCodec.Container.Lemmas.Vint
import MkvCodec.Container.Lemmas.WriteSize

/-!
# Sizes that are written and read back

`write_size` against `read_vint`. The limit of `write_size` is the reserved pattern of a field, except at a width of eight
bytes, where it is the largest `uint64_t`.
-/

namespace MkvCodec.Container

/-- The number in the field of a reserved pattern, which stands for an unknown size. -/
def unknownSize (width : Nat) : Nat := 2 ^ (7 * width) - 1

/-- What is expected of a value and a width, wherever the field is. -/
structure RoundTrips (width : Nat) (value : UInt64) : Prop where
  reads : ∀ (data data' : List UInt8) (position : Nat), position + width ≤ data.length →
    writeSize data position width value = some data' →
    readVint data' position false = .ok ⟨value, width, position + width⟩
  refuses : ∀ (data : List UInt8) (position : Nat), position + width ≤ data.length →
    (writeSize data position width value = none ↔ ¬ value.toNat < 2 ^ (7 * width) ∨ value.toNat = unknownSize width)

variable {data : List UInt8} {position width : Nat} {value : UInt64}

/-- The data around a field. -/
theorem exists_field (h : position + width ≤ data.length) : ∃ before old after : List UInt8,
    data = before ++ (old ++ after) ∧ before.length = position ∧ old.length = width := by
  refine ⟨data.take position, (data.drop position).take width, (data.drop position).drop width, ?_, ?_, ?_⟩
  · rw [List.take_append_drop, List.take_append_drop]
  · rw [List.length_take]
    omega
  · rw [List.length_take, List.length_drop]
    omega

/-- A value below the reserved pattern is written and read back. -/
theorem readVint_writeSize (hw : 1 ≤ width) (hw8 : width ≤ 8) (hvalue : value.toNat < unknownSize width)
    (h : position + width ≤ data.length) : ∃ data', writeSize data position width value = some data' ∧
      readVint data' position false = .ok ⟨value, width, position + width⟩ := by
  obtain ⟨before, old, after, rfl, rfl, rfl⟩ := exists_field h
  refine ⟨_, writeSize_ok before old after value hw hw8 hvalue, ?_⟩
  have hfits : value.toNat < 2 ^ (7 * old.length) := hvalue.trans_le (Nat.sub_le _ _)
  have hread := readVint_complete false hw hw8 hfits
    (List.drop_left : (before ++ (Prefixed.field old.length value.toNat ++ after)).drop before.length = _)
  rw [hread, fieldValue, if_neg (by simp), UInt64.ofNat_toNat]

/-- At eight bytes every value but the largest is written. -/
theorem writeSize_eight : writeSize data position 8 value = none ↔ value = 0xFFFFFFFFFFFFFFFF := by
  have hlimit : 0xFFFFFFFFFFFFFFFF ≤ value ↔ value = 0xFFFFFFFFFFFFFFFF := by
    have hlt := value.toNat_lt
    rw [UInt64.le_iff_toNat_le, ← UInt64.toNat_inj]
    have hmax : (0xFFFFFFFFFFFFFFFF : UInt64).toNat = 2 ^ 64 - 1 := rfl
    omega
  rw [writeSize, if_pos rfl]
  simp only [hlimit]
  split <;> simp_all

theorem roundTrips_small (hw : 1 ≤ width) (hw8 : width ≤ 8) (hvalue : value.toNat < unknownSize width) :
    RoundTrips width value where
  reads data data' position h hwrite := by
    obtain ⟨data'', hwrite', hread⟩ := readVint_writeSize hw hw8 hvalue h
    rw [hwrite] at hwrite'
    cases hwrite'
    exact hread
  refuses data position h := by
    obtain ⟨data', hwrite, -⟩ := readVint_writeSize hw hw8 hvalue h
    rw [hwrite]
    rw [unknownSize] at hvalue ⊢
    exact iff_of_false nofun (by omega)

/-- A value that is refused, as it should be. -/
theorem roundTrips_refused (hvalue : unknownSize width ≤ value.toNat)
    (hnone : ∀ data position, writeSize data position width value = none) : RoundTrips width value where
  reads data data' position _ hwrite := by
    rw [hnone] at hwrite
    cases hwrite
  refuses data position _ := by
    rw [unknownSize] at hvalue ⊢
    exact iff_of_true (hnone data position) (by omega)

/-- A size comes back, and `write_size` refuses what does not fit and the reserved pattern, if and only if the field is
narrower than eight bytes, the value is below the reserved pattern of eight bytes or is the largest of all. -/
theorem roundTrips_iff (hw : 1 ≤ width) (hw8 : width ≤ 8) :
    RoundTrips width value ↔ width < 8 ∨ value.toNat < 2 ^ 56 - 1 ∨ value.toNat = 2 ^ 64 - 1 := by
  rcases Nat.lt_or_ge value.toNat (unknownSize width) with hsmall | hlarge
  · refine iff_of_true (roundTrips_small hw hw8 hsmall) ?_
    by_cases hwidth : width = 8
    · subst hwidth
      exact .inr (.inl hsmall)
    · exact .inl (by omega)
  · rcases Nat.lt_or_ge width 8 with hwidth | hwidth
    · refine iff_of_true (roundTrips_refused hlarge fun data position => ?_) (.inl hwidth)
      exact writeSize_none hw hwidth hlarge
    · obtain rfl : width = 8 := Nat.le_antisymm hw8 hwidth
      have hmax : value = 0xFFFFFFFFFFFFFFFF ↔ value.toNat = 2 ^ 64 - 1 := UInt64.toNat_inj.symm
      have hnot : ¬ value.toNat < 2 ^ 56 - 1 := Nat.not_lt.mpr hlarge
      simp only [Nat.lt_irrefl, hnot, false_or, ← hmax]
      constructor
      · intro h
        refine writeSize_eight.mp ((h.refuses (List.replicate 8 0) 0 (by simp)).mpr ?_)
        rw [unknownSize] at hlarge ⊢
        omega
      · intro hvalue
        exact roundTrips_refused hlarge fun data position => writeSize_eight.mpr hvalue

theorem roundTrips_two : RoundTrips 2 300 ↔ 2 < 8 ∨ (300 : UInt64).toNat < 2 ^ 56 - 1 ∨ (300 : UInt64).toNat = 2 ^ 64 - 1 :=
  roundTrips_iff (by decide) (by decide)

/-- Of 2 to the power of 56 the field keeps the marker alone, and it is read back as zero. -/
theorem writeSize_overflows : writeSize (List.replicate 8 0) 0 8 0x100000000000000 = some [1, 0, 0, 0, 0, 0, 0, 0] ∧
    readVint [1, 0, 0, 0, 0, 0, 0, 0] 0 false = .ok ⟨0, 8, 8⟩ ∧ ¬ RoundTrips 8 0x100000000000000 := by
  refine ⟨by decide, by decide, fun h => ?_⟩
  have hnone := (h.refuses (List.replicate 8 0) 0 (by decide)).mpr (.inl (by decide))
  exact absurd hnone (by decide)

end MkvCodec.Container
