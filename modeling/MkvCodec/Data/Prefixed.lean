import Mathlib.Data.List.Induction
import Mathlib.Tactic.Ring

/-!
# Length-prefixed integers

Numbers as big-endian bytes, and the fields of 1 to 8 bytes in which the first set bit of the first byte tells the
width: a field of `width` bytes has its marker at bit `7 * width` and its number below.
-/

namespace Prefixed

/-! ## Big-endian bytes -/

def beBytes : Nat → Nat → List UInt8
  | 0, _ => []
  | width + 1, n => beBytes width (n / 256) ++ [UInt8.ofNat (n % 256)]

def beValue (bytes : List UInt8) : Nat := bytes.foldl (fun value byte => value * 256 + byte.toNat) 0

@[simp] theorem length_beBytes (width n : Nat) : (beBytes width n).length = width := by
  induction width generalizing n with
  | zero => rfl
  | succ width ih => simp [beBytes, ih]

@[simp] theorem beValue_append_singleton (bytes : List UInt8) (byte : UInt8) :
    beValue (bytes ++ [byte]) = beValue bytes * 256 + byte.toNat := by
  simp [beValue]

theorem foldl_beValue (start : Nat) (bytes : List UInt8) :
    bytes.foldl (fun value byte => value * 256 + byte.toNat) start = start * 256 ^ bytes.length + beValue bytes := by
  induction bytes using List.reverseRecOn with
  | nil => simp [beValue]
  | append_singleton bytes byte ih =>
      simp only [List.foldl_append, List.foldl_cons, List.foldl_nil, ih, beValue_append_singleton, List.length_append,
        List.length_singleton, pow_succ]
      ring

theorem beValue_cons (byte : UInt8) (bytes : List UInt8) :
    beValue (byte :: bytes) = byte.toNat * 256 ^ bytes.length + beValue bytes := by
  have := foldl_beValue byte.toNat bytes
  simpa [beValue] using this

theorem beValue_lt (bytes : List UInt8) : beValue bytes < 256 ^ bytes.length := by
  induction bytes using List.reverseRecOn with
  | nil => simp [beValue]
  | append_singleton bytes byte ih =>
      have hbyte := byte.toNat_lt
      simp only [beValue_append_singleton, List.length_append, List.length_singleton, pow_succ]
      omega

theorem beValue_beBytes {width n : Nat} (h : n < 256 ^ width) : beValue (beBytes width n) = n := by
  induction width generalizing n with
  | zero => simpa [beBytes, beValue] using (Nat.lt_one_iff.mp h).symm
  | succ width ih =>
      have hdiv : n / 256 < 256 ^ width := by
        rw [pow_succ] at h
        omega
      rw [beBytes, beValue_append_singleton, ih hdiv, UInt8.toNat_ofNat']
      omega

theorem beBytes_beValue (bytes : List UInt8) : beBytes bytes.length (beValue bytes) = bytes := by
  induction bytes using List.reverseRecOn with
  | nil => rfl
  | append_singleton bytes byte ih =>
      have hbyte := byte.toNat_lt
      have hdiv : (beValue bytes * 256 + byte.toNat) / 256 = beValue bytes := by omega
      have hmod : (beValue bytes * 256 + byte.toNat) % 256 = byte.toNat := by omega
      simp only [List.length_append, List.length_singleton, beBytes, beValue_append_singleton, hdiv, hmod, ih]
      simp

/-- The most significant byte comes first. -/
theorem beBytes_succ (width n : Nat) : beBytes (width + 1) n = UInt8.ofNat (n / 256 ^ width) :: beBytes width n := by
  induction width generalizing n with
  | zero =>
      simp only [beBytes, pow_zero, Nat.div_one, List.nil_append, List.cons.injEq, and_true]
      apply UInt8.toNat_inj.mp
      simp
  | succ width ih =>
      rw [beBytes, ih, List.cons_append, Nat.div_div_eq_div_mul, ← pow_succ']
      rfl

theorem beBytes_add_mul (width n k : Nat) : beBytes width (n + k * 256 ^ width) = beBytes width n := by
  induction width generalizing n k with
  | zero => rfl
  | succ width ih =>
      have hdiv : (n + k * 256 ^ (width + 1)) / 256 = n / 256 + k * 256 ^ width := by
        rw [pow_succ, ← Nat.mul_assoc, Nat.add_mul_div_right _ _ (by decide)]
      have hmod : (n + k * 256 ^ (width + 1)) % 256 = n % 256 := by
        rw [pow_succ, ← Nat.mul_assoc, Nat.add_mul_mod_self_right]
      rw [beBytes, beBytes, hdiv, hmod, ih]

/-! ## Fields -/

/-- The field of `width` bytes with the number `n`. -/
def field (width n : Nat) : List UInt8 := beBytes width (2 ^ (7 * width) + n)

@[simp] theorem length_field (width n : Nat) : (field width n).length = width := length_beBytes _ _

theorem marker_lt {width n : Nat} (h : n < 2 ^ (7 * width)) (hw : 1 ≤ width) : 2 ^ (7 * width) + n < 256 ^ width := by
  have hdouble : 2 ^ (7 * width + 1) ≤ 2 ^ (8 * width) := Nat.pow_le_pow_right (by decide) (by omega)
  have hpow : (256 : Nat) ^ width = 2 ^ (8 * width) := by rw [show 256 = 2 ^ 8 from rfl, ← pow_mul]
  rw [pow_succ] at hdouble
  omega

theorem beValue_field {width n : Nat} (h : n < 2 ^ (7 * width)) (hw : 1 ≤ width) :
    beValue (field width n) = 2 ^ (7 * width) + n := beValue_beBytes (marker_lt h hw)

/-- A field is its number with the marker in the first byte. -/
theorem field_eq_cons {width n : Nat} (hw8 : width < 8) :
    field (width + 1) n = UInt8.ofNat (2 ^ (7 - width) + n / 256 ^ width) :: beBytes width n := by
  have hmarker : 2 ^ (7 * (width + 1)) = 2 ^ (7 - width) * 256 ^ width := by
    rw [show 256 = 2 ^ 8 from rfl, ← pow_mul, ← pow_add]
    congr 1
    omega
  rw [field, beBytes_succ, hmarker, Nat.add_comm, beBytes_add_mul, Nat.add_mul_div_right _ _ (Nat.pow_pos (by decide)),
    Nat.add_comm]

/-- The first byte of a field tells its width. -/
theorem head_bounds (byte : UInt8) {bytes : List UInt8} {width : Nat} (hw : 1 ≤ width) (hw8 : width ≤ 8)
    (hlen : bytes.length + 1 = width) :
    2 ^ (8 - width) ≤ byte.toNat ∧ byte.toNat < 2 ^ (9 - width) ↔
      2 ^ (7 * width) ≤ beValue (byte :: bytes) ∧ beValue (byte :: bytes) < 2 ^ (7 * width + 1) := by
  obtain ⟨k, rfl⟩ : ∃ k, width = k + 1 := ⟨width - 1, by omega⟩
  obtain rfl : bytes.length = k := by omega
  have hpow : (256 : Nat) ^ bytes.length = 2 ^ (8 * bytes.length) := by rw [show 256 = 2 ^ 8 from rfl, ← pow_mul]
  have hlow : 2 ^ (7 * (bytes.length + 1)) = 2 ^ (8 - (bytes.length + 1)) * 256 ^ bytes.length := by
    rw [hpow, ← pow_add]; congr 1; omega
  have hhigh : 2 ^ (7 * (bytes.length + 1) + 1) = 2 ^ (9 - (bytes.length + 1)) * 256 ^ bytes.length := by
    rw [hpow, ← pow_add]; congr 1; omega
  have hpos : 0 < 256 ^ bytes.length := Nat.pow_pos (by decide)
  have hrest := beValue_lt bytes
  rw [hlow, hhigh, beValue_cons]
  constructor
  · rintro ⟨hl, hh⟩
    have hl' := Nat.mul_le_mul_right (256 ^ bytes.length) hl
    have hh' := Nat.mul_le_mul_right (256 ^ bytes.length) (Nat.succ_le_of_lt hh)
    rw [Nat.succ_mul] at hh'
    omega
  · rintro ⟨hl, hh⟩
    constructor
    · by_contra hlt
      have := Nat.mul_le_mul_right (256 ^ bytes.length) (Nat.succ_le_of_lt (not_le.mp hlt))
      rw [Nat.succ_mul] at this
      omega
    · by_contra hge
      have := Nat.mul_le_mul_right (256 ^ bytes.length) (not_lt.mp hge)
      omega

/-- Bytes whose first one tells their number are a field. -/
theorem eq_field {byte : UInt8} {bytes : List UInt8} {width : Nat} (hw : 1 ≤ width) (hw8 : width ≤ 8)
    (hlen : bytes.length + 1 = width) (hlow : 2 ^ (8 - width) ≤ byte.toNat) (hhigh : byte.toNat < 2 ^ (9 - width)) :
    ∃ n < 2 ^ (7 * width), byte :: bytes = field width n ∧ beValue (byte :: bytes) = 2 ^ (7 * width) + n := by
  obtain ⟨hl, hh⟩ := (head_bounds _ hw hw8 hlen).mp ⟨hlow, hhigh⟩
  refine ⟨beValue (byte :: bytes) - 2 ^ (7 * width), ?_, ?_, by omega⟩
  · rw [pow_succ] at hh
    omega
  · rw [field, Nat.add_sub_cancel' hl, ← hlen]
    exact (beBytes_beValue (byte :: bytes)).symm

theorem field_cons {width n : Nat} (hw : 1 ≤ width) (hw8 : width ≤ 8) (h : n < 2 ^ (7 * width)) :
    ∃ byte bytes, field width n = byte :: bytes ∧ bytes.length + 1 = width ∧ 2 ^ (8 - width) ≤ byte.toNat ∧
      byte.toNat < 2 ^ (9 - width) := by
  cases hf : field width n with
  | nil =>
      have := length_field width n
      rw [hf] at this
      simp only [List.length_nil] at this
      omega
  | cons byte bytes =>
      have hlen : bytes.length + 1 = width := by
        have := length_field width n
        rwa [hf] at this
      have hvalue := beValue_field h hw
      rw [hf] at hvalue
      have hbounds := (head_bounds byte hw hw8 hlen).mpr (by rw [hvalue, pow_succ]; omega)
      exact ⟨byte, bytes, rfl, hlen, hbounds⟩

/-- The marker and the number tell the width. -/
theorem marker_inj {width width' n n' : Nat} (h : n < 2 ^ (7 * width)) (h' : n' < 2 ^ (7 * width'))
    (heq : 2 ^ (7 * width) + n = 2 ^ (7 * width') + n') : width = width' ∧ n = n' := by
  have hlt {a b m k : Nat} (hm : m < 2 ^ (7 * a)) (hab : a < b) : 2 ^ (7 * a) + m < 2 ^ (7 * b) + k := by
    have hpow : 2 ^ (7 * a + 1) ≤ 2 ^ (7 * b) := Nat.pow_le_pow_right (by decide) (by omega)
    rw [pow_succ] at hpow
    omega
  rcases Nat.lt_trichotomy width width' with hw | rfl | hw
  · exact absurd heq (hlt h hw).ne
  · exact ⟨rfl, by omega⟩
  · exact absurd heq (hlt h' hw).ne'

/-- A field can be told from what follows it. -/
theorem field_append_inj {width width' n n' : Nat} {rest rest' : List UInt8} (hw : 1 ≤ width) (hw8 : width ≤ 8)
    (h : n < 2 ^ (7 * width)) (hw' : 1 ≤ width') (hw8' : width' ≤ 8) (h' : n' < 2 ^ (7 * width'))
    (heq : field width n ++ rest = field width' n' ++ rest') : width = width' ∧ n = n' ∧ rest = rest' := by
  obtain ⟨byte, bytes, hf, -, hlow, hhigh⟩ := field_cons hw hw8 h
  obtain ⟨byte', bytes', hf', -, hlow', hhigh'⟩ := field_cons hw' hw8' h'
  have hbyte : byte = byte' := by
    rw [hf, hf'] at heq
    exact List.head_eq_of_cons_eq heq
  subst hbyte
  have hwidth : width = width' := by
    have h₁ := (Nat.pow_lt_pow_iff_right (by decide)).mp (hlow.trans_lt hhigh')
    have h₂ := (Nat.pow_lt_pow_iff_right (by decide)).mp (hlow'.trans_lt hhigh)
    omega
  subst hwidth
  obtain ⟨hfield, hrest⟩ := List.append_inj heq (by simp)
  have := congrArg beValue hfield
  rw [beValue_field h hw, beValue_field h' hw] at this
  exact ⟨rfl, by omega, hrest⟩

end Prefixed
