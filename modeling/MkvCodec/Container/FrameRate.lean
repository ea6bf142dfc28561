import Mathlib.Algebra.Order.Floor.Semifield
import Mathlib.Data.Rat.Floor
import Mathlib.Tactic.FieldSimp
import MkvCodec.Data.LowestTerms

/-!
# The frame rate of a track

What `WebmMuxer::create` stores of a frame rate, and what `probe_input_video` makes of it. The stored rate is the exact
quotient, without the rounding of a `double`.
-/

namespace MkvCodec.Container

open LowestTerms

/-- The part of a video track that tells its frame rate. -/
structure RatedTrack where
  frameRate : ℚ
  defaultDuration : Nat

/-- The part of `mkvc_video_info` that tells the frame rate. -/
structure FrameRateInfo where
  fpsNum : Nat
  fpsDen : Nat
  fpsKnown : Nat
  deriving DecidableEq

/-- The end of `WebmMuxer::create`. -/
def WebmMuxer.track (fpsNum fpsDen : Nat) : RatedTrack :=
  ⟨(fpsNum : ℚ) / fpsDen, fpsDen * 1000000000 % 2 ^ 64 / fpsNum⟩

/-- `std::llround` of a number that is not negative. -/
def llround (x : ℚ) : Nat := ⌊x + 1 / 2⌋₊

def kScale : Nat := 1000000

/-- A fraction in lowest terms, if both have 32 bits. The denominator of a rate has, being at most `kScale`. -/
def reported (numerator denominator : Nat) : Option FrameRateInfo :=
  let fps := lowest numerator denominator
  if fps.1 < 2 ^ 32 ∧ fps.2 < 2 ^ 32 then some ⟨fps.1, fps.2, 1⟩ else none

/-- `set_frame_rate` from the stored rate. -/
def fromFrameRate (rate : ℚ) : Option FrameRateInfo :=
  if 0 < rate ∧ llround (rate * kScale) ≠ 0 then reported (llround (rate * kScale)) kScale else none

/-- `set_frame_rate` from the stored duration of a frame, in nanoseconds. -/
def fromDuration (duration : Nat) : Option FrameRateInfo := if duration ≠ 0 then reported 1000000000 duration else none

/-- `set_frame_rate`. -/
def setFrameRate (track : RatedTrack) (info : FrameRateInfo) : FrameRateInfo :=
  ((fromFrameRate track.frameRate).or (fromDuration track.defaultDuration)).getD info

/-- What `probe_input_video` tells of the frame rate of a track. -/
def probeFrameRate (track : RatedTrack) : FrameRateInfo := setFrameRate track ⟨0, 0, 0⟩

/-! ## The frame rate in millionths -/

/-- A rate in millionths, rounded. -/
def millionths (fpsNum fpsDen : Nat) : Nat := (2 * (fpsNum * kScale) + fpsDen) / (2 * fpsDen)

variable {fpsNum fpsDen : Nat}

theorem llround_rate (hden : 0 < fpsDen) : llround ((fpsNum : ℚ) / fpsDen * kScale) = millionths fpsNum fpsDen := by
  have hne : (fpsDen : ℚ) ≠ 0 := Nat.cast_ne_zero.mpr (Nat.ne_of_gt hden)
  have hsum : (fpsNum : ℚ) / fpsDen * kScale + 1 / 2 = ((2 * (fpsNum * kScale) + fpsDen : Nat) : ℚ) / (2 * fpsDen : Nat) := by
    push_cast
    field_simp
  rw [llround, hsum, Nat.floor_div_eq_div, millionths]

theorem millionths_eq_iff (hden : 0 < fpsDen) :
    millionths fpsNum fpsDen * fpsDen = fpsNum * kScale ↔ fpsDen ∣ fpsNum * kScale := by
  constructor
  · intro h
    exact ⟨millionths fpsNum fpsDen, by rw [← h, Nat.mul_comm]⟩
  · rintro ⟨k, hk⟩
    have hround : millionths fpsNum fpsDen = k := by
      rw [millionths, hk, Nat.div_eq_iff (by omega)]
      have hcomm : 2 * (fpsDen * k) = k * (2 * fpsDen) := by ring
      omega
    rw [hround, hk, Nat.mul_comm]

/-! ## When the rate comes back -/

theorem reported_eq_iff {n d : Nat} (hd : 0 < d) (hden : 0 < fpsDen) (hnum : fpsNum < 2 ^ 32) (hlt : fpsDen < 2 ^ 32) :
    reported n d = some ⟨(lowest fpsNum fpsDen).1, (lowest fpsNum fpsDen).2, 1⟩ ↔ n * fpsDen = fpsNum * d := by
  rw [← lowest_eq_iff hd hden, reported]
  constructor
  · intro h
    split at h
    · simp only [Option.some.injEq, FrameRateInfo.mk.injEq, and_true] at h
      exact Prod.ext h.1 h.2
    · cases h
  · intro h
    have hfst := lowest_fst_le fpsNum fpsDen
    have hsnd := lowest_snd_le fpsNum fpsDen
    simp only [h]
    rw [if_pos ⟨by omega, by omega⟩]

/-- The rate in millionths is used when it is not zero and, in lowest terms, has 32 bits. -/
def UsesMillionths (fpsNum fpsDen : Nat) : Prop :=
  millionths fpsNum fpsDen ≠ 0 ∧ (lowest (millionths fpsNum fpsDen) kScale).1 < 2 ^ 32

instance : Decidable (UsesMillionths fpsNum fpsDen) := inferInstanceAs (Decidable (_ ∧ _))

theorem fromFrameRate_eq (hnum : 0 < fpsNum) (hden : 0 < fpsDen) :
    fromFrameRate ((fpsNum : ℚ) / fpsDen) =
      if UsesMillionths fpsNum fpsDen then reported (millionths fpsNum fpsDen) kScale else none := by
  have hpos : (0 : ℚ) < (fpsNum : ℚ) / fpsDen := div_pos (Nat.cast_pos.mpr hnum) (Nat.cast_pos.mpr hden)
  have hsnd : (lowest (millionths fpsNum fpsDen) kScale).2 < 2 ^ 32 :=
    Nat.lt_of_le_of_lt (lowest_snd_le _ _) (by decide)
  rw [fromFrameRate, llround_rate hden]
  by_cases hzero : millionths fpsNum fpsDen = 0
  · simp [UsesMillionths, hzero]
  · simp only [hpos, hzero, UsesMillionths, ne_eq, not_false_eq_true, true_and, if_true]
    by_cases hlt : (lowest (millionths fpsNum fpsDen) kScale).1 < 2 ^ 32
    · rw [if_pos hlt]
    · rw [if_neg hlt, reported, if_neg (fun h => hlt h.1)]

/-- A rate that is a whole number of millionths is reported through them. -/
theorem UsesMillionths.of_dvd (hnum : 0 < fpsNum ∧ fpsNum < 2 ^ 32) (hden : 0 < fpsDen)
    (hdvd : fpsDen ∣ fpsNum * kScale) : UsesMillionths fpsNum fpsDen := by
  have hexact := (millionths_eq_iff hden).mpr hdvd
  have hlow : lowest (millionths fpsNum fpsDen) kScale = lowest fpsNum fpsDen :=
    (lowest_eq_iff (by decide) hden).mpr hexact
  constructor
  · intro hzero
    rw [hzero, Nat.zero_mul] at hexact
    exact Nat.ne_of_gt (Nat.mul_pos hnum.1 (by decide)) hexact.symm
  · rw [hlow]
    exact Nat.lt_of_le_of_lt (lowest_fst_le fpsNum fpsDen) hnum.2

theorem UsesMillionths.reported (h : UsesMillionths fpsNum fpsDen) :
    ∃ info, Container.reported (millionths fpsNum fpsDen) kScale = some info := by
  have hsnd : (lowest (millionths fpsNum fpsDen) kScale).2 < 2 ^ 32 :=
    Nat.lt_of_le_of_lt (lowest_snd_le _ _) (by decide)
  exact ⟨_, if_pos ⟨h.2, hsnd⟩⟩

/-- The stored duration gives the rate back when it is exact. -/
theorem fromDuration_eq_iff (hnum : 0 < fpsNum ∧ fpsNum < 2 ^ 32) (hden : 0 < fpsDen ∧ fpsDen < 2 ^ 32) :
    (fromDuration (fpsDen * 1000000000 / fpsNum)).getD ⟨0, 0, 0⟩ = ⟨(lowest fpsNum fpsDen).1, (lowest fpsNum fpsDen).2, 1⟩ ↔
      fpsNum ∣ fpsDen * 1000000000 := by
  rw [fromDuration]
  by_cases hzero : fpsDen * 1000000000 / fpsNum = 0
  · have hlt : fpsDen * 1000000000 < fpsNum := (Nat.div_eq_zero_iff.mp hzero).resolve_left (Nat.ne_of_gt hnum.1)
    simp only [hzero, ne_eq, not_true_eq_false, if_false, Option.getD_none, FrameRateInfo.mk.injEq, Nat.zero_ne_one, and_false,
      false_iff]
    exact fun hdvd => absurd (Nat.le_of_dvd (by omega) hdvd) (Nat.not_le_of_lt hlt)
  · rw [if_pos hzero]
    have hpos : 0 < fpsDen * 1000000000 / fpsNum := Nat.pos_of_ne_zero hzero
    have hiff := reported_eq_iff (n := 1000000000) hpos hden.1 hnum.2 hden.2
    constructor
    · intro h
      cases hr : reported 1000000000 (fpsDen * 1000000000 / fpsNum) with
      | none => simp [hr] at h
      | some info =>
          rw [hr, Option.getD_some] at h
          rw [hr, h] at hiff
          have hexact := hiff.mp rfl
          exact ⟨fpsDen * 1000000000 / fpsNum, by rw [← hexact, Nat.mul_comm]⟩
    · intro hdvd
      rw [hiff.mpr (by rw [Nat.mul_div_cancel' hdvd, Nat.mul_comm]), Option.getD_some]

/-- A rate comes back in lowest terms when it is a whole number of millionths, or, where the millionths are not used, when
its frames last a whole number of nanoseconds; and only then. -/
theorem probe_frameRate_iff (fpsNum fpsDen : Nat) (hnum : 0 < fpsNum ∧ fpsNum < 2 ^ 32) (hden : 0 < fpsDen ∧ fpsDen < 2 ^ 32) :
    probeFrameRate (WebmMuxer.track fpsNum fpsDen) = ⟨(lowest fpsNum fpsDen).1, (lowest fpsNum fpsDen).2, 1⟩ ↔
      fpsDen ∣ fpsNum * 1000000 ∨ ¬ UsesMillionths fpsNum fpsDen ∧ fpsNum ∣ fpsDen * 1000000000 := by
  have hmod : fpsDen * 1000000000 % 2 ^ 64 = fpsDen * 1000000000 := Nat.mod_eq_of_lt (by omega)
  have hscale : 1000000 = kScale := rfl
  simp only [probeFrameRate, setFrameRate, WebmMuxer.track, fromFrameRate_eq hnum.1 hden.1, hmod]
  rw [hscale]
  by_cases huses : UsesMillionths fpsNum fpsDen
  · obtain ⟨info, hinfo⟩ := huses.reported
    have hiff := reported_eq_iff (n := millionths fpsNum fpsDen) (d := kScale) (by decide) hden.1 hnum.2 hden.2
    rw [hinfo, Option.some.injEq, millionths_eq_iff hden.1] at hiff
    simp only [huses, if_true, hinfo, Option.some_or, Option.getD_some, not_true_eq_false, false_and, or_false]
    exact hiff
  · have hnot : ¬ fpsDen ∣ fpsNum * kScale := fun hdvd => huses (.of_dvd hnum hden.1 hdvd)
    rw [if_neg huses, Option.none_or]
    simp only [huses, hnot, false_or, not_false_eq_true, true_and]
    exact fromDuration_eq_iff hnum hden

/-- 25 frames a second, and a rate of a billion frames in seven seconds, which only the duration tells. -/
theorem probe_frameRate_small : probeFrameRate (WebmMuxer.track 50 2) = ⟨25, 1, 1⟩ ∧
    probeFrameRate (WebmMuxer.track 1000000000 7) = ⟨1000000000, 7, 1⟩ :=
  ⟨(probe_frameRate_iff 50 2 (by decide) (by decide)).mpr (by decide),
    (probe_frameRate_iff 1000000000 7 (by decide) (by decide)).mpr (by decide)⟩

/-- 30000 frames in 1001 seconds come back as 2997003 in 100000. -/
theorem frameRate_rounded : probeFrameRate (WebmMuxer.track 30000 1001) = ⟨2997003, 100000, 1⟩ ∧
    probeFrameRate (WebmMuxer.track 30000 1001) ≠ ⟨(lowest 30000 1001).1, (lowest 30000 1001).2, 1⟩ := by
  have huses : UsesMillionths 30000 1001 := by decide
  have hrate := @fromFrameRate_eq 30000 1001 (by decide) (by decide)
  rw [if_pos huses] at hrate
  have hprobe : probeFrameRate (WebmMuxer.track 30000 1001) = ⟨2997003, 100000, 1⟩ := by
    simp only [probeFrameRate, setFrameRate, WebmMuxer.track, hrate]
    decide
  refine ⟨hprobe, ?_⟩
  rw [hprobe]
  decide

end MkvCodec.Container
