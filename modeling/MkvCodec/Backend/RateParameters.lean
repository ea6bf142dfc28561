import MkvCodec.Backend.CpuInput
import MkvCodec.Data.Words

/-!
# Codec parameters from the frame rate

The bit rate of the VP9 encoder and the key frame intervals of the four encoders, as `initialize_codec` of the CPU
encoders, `NvidiaWebmEncoder::create` and `set_encode_parameters` compute them. Each is written over the arithmetic of
words, so that what a machine computes and whether it leaves the words is one definition.
-/

namespace MkvCodec.Backend

section parameters

variable {m : Type → Type} [Monad m] (word : Nat → Int → m Nat) (int : Nat → Int → m Int) (cfg : Config)

/-- `kf_max_dist` of the VP9 encoder. -/
def vp9KfMaxDist : m Nat := do
  if cfg.keyframeIntervalFrames = 0 then
    let product ← word 32 (cfg.fpsNum * 4 : Nat)
    return product / cfg.fpsDen
  else
    return cfg.keyframeIntervalFrames

/-- `rc_target_bitrate` of the VP9 encoder, in kilobits. -/
def vp9TargetBitrate : m Nat := do
  let pixels ← word 32 (cfg.width * cfg.height : Nat)
  let rate ← word 32 (pixels * cfg.fpsNum : Nat)
  return max 1 (rate / cfg.fpsDen / 1000)

/-- `intra_period_length` of the AV1 encoder, an `int32_t`. -/
def av1IntraPeriodLength : m Int := do
  if cfg.keyframeIntervalFrames = 0 then
    let product ← word 32 (cfg.fpsNum * 4 : Nat)
    let interval ← int 32 (product / cfg.fpsDen : Nat)
    int 32 (interval - 1)
  else
    let interval ← int 32 cfg.keyframeIntervalFrames
    int 32 (interval - 1)

/-- `keyframe_interval` of the NVENC encoder, its `gopLength`. -/
def nvencKeyframeInterval : m Nat := do
  if cfg.keyframeIntervalFrames = 0 then
    let product ← word 32 (4 * cfg.fpsNum : Nat)
    return max 1 (product / cfg.fpsDen)
  else
    return cfg.keyframeIntervalFrames

/-- `GopPicSize` of the oneVPL encoders, an `mfxU16`. -/
def vplGopPicSize : m Nat := do
  let product ← word 64 (cfg.fpsNum * 4 : Nat)
  let defaultGop := max 1 (product / cfg.fpsDen)
  word 16 (min (if cfg.keyframeIntervalFrames = 0 then defaultGop else cfg.keyframeIntervalFrames) 65535 : Nat)

end parameters

open Words

variable {cfg : Config}

theorem vp9KfMaxDist_refines : Refines (vp9KfMaxDist checked cfg) (vp9KfMaxDist wrapping cfg) :=
  .ite (.bind (refines_word _ _) fun _ => .pure _) (.pure _)

theorem vp9TargetBitrate_refines : Refines (vp9TargetBitrate checked cfg) (vp9TargetBitrate wrapping cfg) :=
  .bind (refines_word _ _) fun _ => .bind (refines_word _ _) fun _ => .pure _

theorem av1IntraPeriodLength_refines :
    Refines (av1IntraPeriodLength checked checkedInt cfg) (av1IntraPeriodLength wrapping wrappingInt cfg) :=
  .ite (.bind (refines_word _ _) fun _ => .bind (refines_int _ _) fun _ => refines_int _ _)
    (.bind (refines_int _ _) fun _ => refines_int _ _)

theorem nvencKeyframeInterval_refines :
    Refines (nvencKeyframeInterval checked cfg) (nvencKeyframeInterval wrapping cfg) :=
  .ite (.bind (refines_word _ _) fun _ => .pure _) (.pure _)

theorem vplGopPicSize_refines : Refines (vplGopPicSize checked cfg) (vplGopPicSize wrapping cfg) :=
  .bind (refines_word _ _) fun _ => refines_word _ _

/-! ## Which configurations stay in the words -/

theorem vp9TargetBitrate_checked : vp9TargetBitrate checked cfg =
    if cfg.width * cfg.height * cfg.fpsNum < 2 ^ 32 then
      some (max 1 (cfg.width * cfg.height * cfg.fpsNum / cfg.fpsDen / 1000))
    else none := by
  unfold vp9TargetBitrate
  rw [checked_natCast_bind, checked_natCast_bind]
  split
  case isTrue => rfl
  case isFalse hpixels =>
      -- the frame rate is at least one, so the rate is no word either
      have := Nat.le_mul_of_pos_right (cfg.width * cfg.height) cfg.fpsNum_pos
      rw [if_neg (by omega)]

theorem vp9KfMaxDist_checked (hdefault : cfg.keyframeIntervalFrames = 0) : vp9KfMaxDist checked cfg =
    if cfg.fpsNum * 4 < 2 ^ 32 then some (cfg.fpsNum * 4 / cfg.fpsDen) else none := by
  unfold vp9KfMaxDist
  rw [if_pos hdefault]
  exact checked_natCast_bind _

theorem nvencKeyframeInterval_checked (hdefault : cfg.keyframeIntervalFrames = 0) : nvencKeyframeInterval checked cfg =
    if 4 * cfg.fpsNum < 2 ^ 32 then some (max 1 (4 * cfg.fpsNum / cfg.fpsDen)) else none := by
  unfold nvencKeyframeInterval
  rw [if_pos hdefault]
  exact checked_natCast_bind _

/-- An `int32_t` holds a natural number of fewer than `2 ^ 31`, and the number before it. -/
theorem checkedInt_pred (n : Nat) : (checkedInt 32 n >>= fun interval => checkedInt 32 (interval - 1)) =
    if n < 2 ^ 31 then some ((n : Int) - 1) else none := by
  split
  case isTrue h =>
      rw [checkedInt_eq_some.mpr ⟨rfl, by omega, by omega⟩]
      exact checkedInt_eq_some.mpr ⟨rfl, by omega, by omega⟩
  case isFalse h =>
      cases hn : checkedInt 32 n with
      | none => rfl
      | some k =>
          have := (checkedInt_eq_some.mp hn).2.2
          omega

theorem av1IntraPeriodLength_checked (hdefault : cfg.keyframeIntervalFrames = 0) :
    av1IntraPeriodLength checked checkedInt cfg =
      if cfg.fpsNum * 4 < 2 ^ 32 ∧ cfg.fpsNum * 4 / cfg.fpsDen < 2 ^ 31 then
        some ((cfg.fpsNum * 4 / cfg.fpsDen : Nat) - 1 : Int)
      else none := by
  unfold av1IntraPeriodLength
  rw [if_pos hdefault, checked_natCast_bind]
  split
  case isTrue h =>
      rw [checkedInt_pred]
      simp only [h, true_and]
  case isFalse h => simp only [h, false_and, if_false]

theorem vplGopPicSize_checked (hdefault : cfg.keyframeIntervalFrames = 0) :
    vplGopPicSize checked cfg = some (min (max 1 (cfg.fpsNum * 4 / cfg.fpsDen)) 65535) := by
  have hnum := cfg.fpsNum_lt
  unfold vplGopPicSize
  rw [checked_natCast_bind, if_pos (by omega)]
  simp only [if_pos hdefault]
  exact checked_natCast (by omega)

/-- The bit rate, and the key frame intervals where none is configured, are the exact values, and no operation on the way
leaves its words. -/
structure RatesExact (cfg : Config) : Prop where
  vp9Bitrate : Exact (vp9TargetBitrate checked cfg) (vp9TargetBitrate wrapping cfg)
    (max 1 (cfg.width * cfg.height * cfg.fpsNum / cfg.fpsDen / 1000))
  vp9Interval : cfg.keyframeIntervalFrames = 0 →
    Exact (vp9KfMaxDist checked cfg) (vp9KfMaxDist wrapping cfg) (4 * cfg.fpsNum / cfg.fpsDen)
  av1Interval : cfg.keyframeIntervalFrames = 0 →
    Exact (av1IntraPeriodLength checked checkedInt cfg) (av1IntraPeriodLength wrapping wrappingInt cfg)
      ((4 * cfg.fpsNum / cfg.fpsDen : Nat) - 1)
  nvencInterval : cfg.keyframeIntervalFrames = 0 →
    Exact (nvencKeyframeInterval checked cfg) (nvencKeyframeInterval wrapping cfg) (max 1 (4 * cfg.fpsNum / cfg.fpsDen))
  vplInterval : cfg.keyframeIntervalFrames = 0 →
    Exact (vplGopPicSize checked cfg) (vplGopPicSize wrapping cfg) (min (max 1 (4 * cfg.fpsNum / cfg.fpsDen)) 65535)

theorem vp9TargetBitrate_exact :
    Exact (vp9TargetBitrate checked cfg) (vp9TargetBitrate wrapping cfg)
        (max 1 (cfg.width * cfg.height * cfg.fpsNum / cfg.fpsDen / 1000)) ↔
      cfg.width * cfg.height * cfg.fpsNum < 2 ^ 32 := by
  rw [vp9TargetBitrate_refines.exact, vp9TargetBitrate_checked]
  exact Option.ite_none_right_eq_some.trans (and_iff_left rfl)

theorem vp9KfMaxDist_exact (hdefault : cfg.keyframeIntervalFrames = 0) :
    Exact (vp9KfMaxDist checked cfg) (vp9KfMaxDist wrapping cfg) (4 * cfg.fpsNum / cfg.fpsDen) ↔
      4 * cfg.fpsNum < 2 ^ 32 := by
  rw [vp9KfMaxDist_refines.exact, vp9KfMaxDist_checked hdefault, Nat.mul_comm 4]
  exact Option.ite_none_right_eq_some.trans (and_iff_left rfl)

theorem av1IntraPeriodLength_exact (hdefault : cfg.keyframeIntervalFrames = 0) :
    Exact (av1IntraPeriodLength checked checkedInt cfg) (av1IntraPeriodLength wrapping wrappingInt cfg)
        ((4 * cfg.fpsNum / cfg.fpsDen : Nat) - 1) ↔
      4 * cfg.fpsNum < 2 ^ 32 ∧ 4 * cfg.fpsNum / cfg.fpsDen < 2 ^ 31 := by
  rw [av1IntraPeriodLength_refines.exact, av1IntraPeriodLength_checked hdefault, Nat.mul_comm 4]
  exact Option.ite_none_right_eq_some.trans (and_iff_left rfl)

theorem nvencKeyframeInterval_exact (hdefault : cfg.keyframeIntervalFrames = 0) :
    Exact (nvencKeyframeInterval checked cfg) (nvencKeyframeInterval wrapping cfg)
        (max 1 (4 * cfg.fpsNum / cfg.fpsDen)) ↔
      4 * cfg.fpsNum < 2 ^ 32 := by
  rw [nvencKeyframeInterval_refines.exact, nvencKeyframeInterval_checked hdefault]
  exact Option.ite_none_right_eq_some.trans (and_iff_left rfl)

theorem vplGopPicSize_exact (hdefault : cfg.keyframeIntervalFrames = 0) :
    Exact (vplGopPicSize checked cfg) (vplGopPicSize wrapping cfg)
      (min (max 1 (4 * cfg.fpsNum / cfg.fpsDen)) 65535) := by
  rw [vplGopPicSize_refines.exact, vplGopPicSize_checked hdefault, Nat.mul_comm 4]

/-- The pixels of a second are counted in 32 bits. A frame has four pixels or more, so that where they are, four times the
frame rate is too. -/
theorem ratesExact_iff (cfg : Config) : RatesExact cfg ↔
    cfg.width * cfg.height * cfg.fpsNum < 2 ^ 32 ∧
      (cfg.keyframeIntervalFrames = 0 → 4 * cfg.fpsNum / cfg.fpsDen < 2 ^ 31) := by
  constructor
  · intro h
    exact ⟨vp9TargetBitrate_exact.mp h.vp9Bitrate,
      fun hdefault => ((av1IntraPeriodLength_exact hdefault).mp (h.av1Interval hdefault)).2⟩
  · rintro ⟨hrate, hinterval⟩
    have hwidth : 2 ≤ cfg.width := by
      have := cfg.width_pos
      have := cfg.width_even
      omega
    have hheight : 2 ≤ cfg.height := by
      have := cfg.height_pos
      have := cfg.height_even
      omega
    have hnum : 4 * cfg.fpsNum < 2 ^ 32 :=
      calc 4 * cfg.fpsNum = 2 * 2 * cfg.fpsNum := rfl
        _ ≤ cfg.width * cfg.height * cfg.fpsNum := Nat.mul_le_mul_right _ (Nat.mul_le_mul hwidth hheight)
        _ < 2 ^ 32 := hrate
    exact ⟨vp9TargetBitrate_exact.mpr hrate, fun hdefault => (vp9KfMaxDist_exact hdefault).mpr hnum,
      fun hdefault => (av1IntraPeriodLength_exact hdefault).mpr ⟨hnum, hinterval hdefault⟩,
      fun hdefault => (nvencKeyframeInterval_exact hdefault).mpr hnum, vplGopPicSize_exact⟩

/-- Full high definition at 30000 / 1001 frames a second. -/
def fullHd : Config :=
  { codec := .vp9, width := 1920, height := 1080, fpsNum := 30000, fpsDen := 1001, quality := 32
    keyframeIntervalFrames := 0, width_pos := by decide, height_pos := by decide, width_even := by decide
    height_even := by decide, width_le := by decide, height_le := by decide, fpsNum_pos := by decide
    fpsDen_pos := by decide, fpsNum_lt := by decide, fpsDen_lt := by decide, quality_le := Config.middleQuality_le
    keyframeIntervalFrames_lt := Config.noInterval_lt }

/-- The VP9 encoder is given 2076 instead of 62145 kilobits. A frame rate in units of half a nanosecond wraps the
intervals too. -/
theorem rates_wrap :
    ¬ RatesExact fullHd ∧ vp9TargetBitrate wrapping fullHd = 2076 ∧
      fullHd.width * fullHd.height * fullHd.fpsNum / fullHd.fpsDen / 1000 = 62145 ∧
    ¬ RatesExact (.small .av1 2000000000 66733333 (by decide) (by decide)) ∧
      vp9KfMaxDist wrapping (.small .av1 2000000000 66733333 (by decide) (by decide)) = 55 ∧
      4 * 2000000000 / 66733333 = 119 :=
  ⟨fun h => absurd (vp9TargetBitrate_exact.mp h.vp9Bitrate) (by decide), rfl, rfl,
    fun h => absurd ((vp9KfMaxDist_exact rfl).mp (h.vp9Interval rfl)) (by decide), rfl, rfl⟩

end MkvCodec.Backend
