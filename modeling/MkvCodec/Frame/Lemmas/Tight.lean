import MkvCodec.Frame.Processor

/-!
# Tightly packed frames

The frames of `allocate_i420`, and what their planes show after libyuv has written them.
-/

namespace MkvCodec

open Decoder (DecodedFrame)

variable {frame : DecodedFrame} {size : Size} {i j : Fin 3}

theorem evenNonzero_iff {n : Nat} : evenNonzero n = true ↔ n ≠ 0 ∧ n % 2 = 0 := by simp [evenNonzero]

theorem allocatable_iff : allocatable size = true ↔
    (size.width ≠ 0 ∧ size.width % 2 = 0) ∧ (size.height ≠ 0 ∧ size.height % 2 = 0) ∧ size.width < 2 ^ 31 ∧ size.height < 2 ^ 31 := by
  simp only [allocatable, Bool.and_eq_true, evenNonzero_iff, decide_eq_true_eq, and_assoc]

theorem subsampled_zero (n : Nat) : subsampled 0 n = n := rfl

theorem subsampled_even {n : Nat} (hn : n % 2 = 0) (hi : i ≠ 0) : subsampled i n = n / 2 := by
  rw [subsampled, if_neg hi]
  omega

/-- A frame without gaps, as `allocate_i420` lays it out. -/
structure Tight (frame : DecodedFrame) (size : Size) : Prop where
  size_eq : DecodedFrame.size frame = size
  allocatable : allocatable size = true
  stride : ∀ i, frame.strides i = subsampled i size.width
  offset₀ : frame.offsets 0 = 0
  offset₁ : frame.offsets 1 = size.width * size.height
  offset₂ : frame.offsets 2 = size.width * size.height + subsampled 1 size.width * subsampled 1 size.height
  length : frame.pixels.length = size.width * size.height + 2 * (subsampled 1 size.width * subsampled 1 size.height)

theorem allocateI420_isSome (h : allocatable size = true) (ptsNs : Int) : ∃ frame, allocateI420 size ptsNs = some frame :=
  ⟨_, if_pos h⟩

theorem allocatable_of_some {ptsNs : Int} (h : allocateI420 size ptsNs = some frame) : allocatable size = true := by
  unfold allocateI420 at h
  split at h
  case isTrue hsize => exact hsize
  case isFalse => cases h

theorem tight_of_allocate {ptsNs : Int} (h : allocateI420 size ptsNs = some frame) : Tight frame size ∧ frame.ptsNs = ptsNs := by
  have hsize := allocatable_of_some h
  have heven := allocatable_iff.mp hsize
  rw [allocateI420, if_pos hsize] at h
  obtain rfl := Option.some.inj h
  have hwidth : subsampled 1 size.width = size.width / 2 := subsampled_even heven.1.2 (by decide)
  have hheight : subsampled 1 size.height = size.height / 2 := subsampled_even heven.2.1.2 (by decide)
  refine ⟨⟨rfl, hsize, fun i => ?_, rfl, rfl, ?_, ?_⟩, rfl⟩
  · match i with
    | 0 => rfl
    | 1 | 2 => exact congrArg Nat.cast hwidth.symm
  · rw [hwidth, hheight]
    rfl
  · rw [hwidth, hheight, List.length_replicate]

/-! ## Writing -/

@[simp] theorem writePlane_pixels (frame : DecodedFrame) (i : Fin 3) (offset : Nat) (image : Raster UInt8) :
    (DecodedFrame.writePlane frame i offset image).pixels =
      Raster.writeTo frame.pixels (frame.offsets i + offset) (frame.strides i).toNat image := rfl

theorem Tight.writePlane (h : Tight frame size) (i : Fin 3) (offset : Nat) (image : Raster UInt8) :
    Tight (DecodedFrame.writePlane frame i offset image) size where
  size_eq := h.size_eq
  allocatable := h.allocatable
  stride := h.stride
  offset₀ := h.offset₀
  offset₁ := h.offset₁
  offset₂ := h.offset₂
  length := by rw [writePlane_pixels, Raster.length_writeTo, h.length]

theorem Tight.writePlanes (h : Tight frame size) (offset : Fin 3 → Nat) (image : Fin 3 → Raster UInt8) :
    Tight (DecodedFrame.writePlanes frame offset image) size :=
  ((h.writePlane 0 _ _).writePlane 1 _ _).writePlane 2 _ _

/-- Where the pixels of plane `i` end. -/
def planeEnd (frame : DecodedFrame) (size : Size) (i : Fin 3) : Nat :=
  frame.offsets i + subsampled i size.height * subsampled i size.width

theorem Tight.planeEnd_le (h : Tight frame size) (i : Fin 3) : planeEnd frame size i ≤ frame.pixels.length := by
  have hcomm : ∀ i : Fin 3, subsampled i size.height * subsampled i size.width = subsampled i size.width * subsampled i size.height :=
    fun i => Nat.mul_comm _ _
  rw [planeEnd, h.length, hcomm]
  match i with
  | 0 =>
      rw [h.offset₀, subsampled_zero, subsampled_zero]
      omega
  | 1 =>
      rw [h.offset₁]
      omega
  | 2 =>
      rw [h.offset₂]
      show size.width * size.height + subsampled 1 size.width * subsampled 1 size.height +
        subsampled 1 size.width * subsampled 1 size.height ≤ _
      omega

/-- The planes lie one behind the other. -/
theorem Tight.planeEnd_le_offset (h : Tight frame size) (hij : i < j) : planeEnd frame size i ≤ frame.offsets j := by
  have hcomm : ∀ i : Fin 3, subsampled i size.height * subsampled i size.width = subsampled i size.width * subsampled i size.height :=
    fun i => Nat.mul_comm _ _
  rw [planeEnd, hcomm]
  have hcases : ∀ i j : Fin 3, i < j → i = 0 ∧ j = 1 ∨ i = 0 ∧ j = 2 ∨ i = 1 ∧ j = 2 := by decide
  rcases hcases i j hij with ⟨rfl, rfl⟩ | ⟨rfl, rfl⟩ | ⟨rfl, rfl⟩
  · rw [h.offset₀, h.offset₁, subsampled_zero, subsampled_zero]
    omega
  · rw [h.offset₀, h.offset₂, subsampled_zero, subsampled_zero]
    omega
  · rw [h.offset₁, h.offset₂]

theorem pixel_lt {row column width height : Nat} (hr : row < height) (hc : column < width) :
    row * width + column < height * width := by
  have hmul : (row + 1) * width ≤ height * width := Nat.mul_le_mul_right _ hr
  rw [Nat.add_mul] at hmul
  omega

theorem Tight.stride_toNat (h : Tight frame size) (i : Fin 3) : (frame.strides i).toNat = subsampled i size.width := by
  rw [h.stride, Int.toNat_natCast]

theorem Tight.width_eq (h : Tight frame size) : frame.width = size.width := congrArg Size.width h.size_eq

theorem Tight.height_eq (h : Tight frame size) : frame.height = size.height := congrArg Size.height h.size_eq

/-- `image` fills plane `i` of a frame of that size. -/
def Fills (size : Size) (i : Fin 3) (image : Raster UInt8) : Prop :=
  image.width = subsampled i size.width ∧ image.height = subsampled i size.height

theorem Tight.raster_writePlane_self (h : Tight frame size) {image : Raster UInt8} (hfills : Fills size i image) :
    Raster.Agree (DecodedFrame.raster (DecodedFrame.writePlane frame i 0 image) i) image where
  width := by
    show subsampled i frame.width = _
    rw [h.width_eq, hfills.1]
  height := by
    show subsampled i frame.height = _
    rw [h.height_eq, hfills.2]
  pixel row hr column hc := by
    have hr' : row < image.height := by rwa [hfills.2, ← h.height_eq]
    have hc' : column < image.width := by rwa [hfills.1, ← h.width_eq]
    have hlt := pixel_lt hr' hc'
    have hend := h.planeEnd_le i
    rw [hfills.1, hfills.2] at hlt
    simp only [planeEnd] at hend
    show (Raster.writeTo _ (frame.offsets i + 0) (frame.strides i).toNat image).getD _ 0 = _
    rw [Nat.add_zero, h.stride_toNat, ← hfills.1]
    have hindex : frame.offsets i + (row * image.width + column) = frame.offsets i + row * image.width + column := by omega
    show (Raster.writeTo _ _ _ image).getD (frame.offsets i + (row * (frame.strides i).toNat + column)) 0 = _
    rw [h.stride_toNat, ← hfills.1, hindex]
    refine Raster.writeTo_inside 0 hr' hc' (Nat.le_refl _) ?_
    rw [hfills.1]
    omega

theorem Tight.raster_writePlane_other (h : Tight frame size) {image : Raster UInt8} (hfills : Fills size i image) (hij : j ≠ i) :
    Raster.Agree (DecodedFrame.raster (DecodedFrame.writePlane frame i 0 image) j) (DecodedFrame.raster frame j) where
  width := rfl
  height := rfl
  pixel row hr column hc := by
    have hr' : row < subsampled j size.height := by rw [← h.height_eq]; exact hr
    have hc' : column < subsampled j size.width := by rw [← h.width_eq]; exact hc
    have hlt := pixel_lt hr' hc'
    show (Raster.writeTo _ (frame.offsets i + 0) (frame.strides i).toNat image).getD
      (frame.offsets j + (row * (frame.strides j).toNat + column)) 0 = _
    rw [Nat.add_zero, Raster.writeTo_outside 0 (by rw [h.stride_toNat, hfills.1])]
    · rfl
    · rw [h.stride_toNat, h.stride_toNat, hfills.2]
      rcases lt_or_gt_of_ne hij with hlt' | hlt'
      · have := h.planeEnd_le_offset hlt'
        simp only [planeEnd] at this
        omega
      · have := h.planeEnd_le_offset hlt'
        simp only [planeEnd] at this
        omega

/-- Written planes show what was written. -/
theorem Tight.raster_writePlanes (h : Tight frame size) {image : Fin 3 → Raster UInt8} (hfills : ∀ i, Fills size i (image i))
    (i : Fin 3) : Raster.Agree (DecodedFrame.raster (DecodedFrame.writePlanes frame (fun _ => 0) image) i) (image i) := by
  have h₀ := h.writePlane 0 0 (image 0)
  have h₁ := h₀.writePlane 1 0 (image 1)
  match i with
  | 0 =>
      exact (h₁.raster_writePlane_other (hfills 2) (by decide)).trans
        ((h₀.raster_writePlane_other (hfills 1) (by decide)).trans (h.raster_writePlane_self (hfills 0)))
  | 1 => exact (h₁.raster_writePlane_other (hfills 2) (by decide)).trans (h₀.raster_writePlane_self (hfills 1))
  | 2 => exact h₁.raster_writePlane_self (hfills 2)

/-! ## Turning and mirroring -/

/-- A tight frame of a time stamp and the pictures in its planes. -/
structure Shows (frame : DecodedFrame) (size : Size) (ptsNs : Int) (image : Fin 3 → Raster UInt8) : Prop where
  tight : Tight frame size
  ptsNs : frame.ptsNs = ptsNs
  raster : ∀ i, Raster.Agree (DecodedFrame.raster frame i) (image i)

variable {ptsNs : Int} {image : Fin 3 → Raster UInt8}

theorem Shows.congr (h : Shows frame size ptsNs image) {image' : Fin 3 → Raster UInt8}
    (hagree : ∀ i, Raster.Agree (image i) (image' i)) : Shows frame size ptsNs image' :=
  ⟨h.tight, h.ptsNs, fun i => (h.raster i).trans (hagree i)⟩

/-- A frame that has been filled. -/
theorem Tight.shows_written (h : Tight frame size) (hfills : ∀ i, Fills size i (image i)) :
    Shows (DecodedFrame.writePlanes frame (fun _ => 0) image) size frame.ptsNs image :=
  ⟨h.writePlanes _ _, rfl, h.raster_writePlanes hfills⟩

/-- A fresh frame that libyuv has filled. -/
theorem shows_of_written {result : DecodedFrame} (h : allocateI420 size ptsNs = some result)
    (hfills : ∀ i, Fills size i (image i)) :
    Shows (DecodedFrame.writePlanes result (fun _ => 0) image) size ptsNs image :=
  ⟨(tight_of_allocate h).1.writePlanes _ _, (tight_of_allocate h).2, (tight_of_allocate h).1.raster_writePlanes hfills⟩

/-- The size of a picture after a rotation. -/
def Size.rotated (size : Size) (rotation : FrameRotation) : Size :=
  if rotation.swaps then ⟨size.height, size.width⟩ else size

theorem allocatable_rotated (h : allocatable size = true) (rotation : FrameRotation) : allocatable (size.rotated rotation) = true := by
  unfold Size.rotated
  split
  · obtain ⟨hw, hh, hw', hh'⟩ := allocatable_iff.mp h
    exact allocatable_iff.mpr ⟨hh, hw, hh', hw'⟩
  · exact h

theorem Tight.raster_fills (h : Tight frame size) (i : Fin 3) : Fills size i (DecodedFrame.raster frame i) :=
  ⟨congrArg (subsampled i) h.width_eq, congrArg (subsampled i) h.height_eq⟩

theorem Tight.mirror_fills (h : Tight frame size) (i : Fin 3) : Fills size i (DecodedFrame.raster frame i).mirror :=
  h.raster_fills i

theorem Fills.turn {a : Raster UInt8} (h : Fills size i a) (rotation : FrameRotation) :
    Fills (size.rotated rotation) i (a.turn rotation.turns) := by
  cases rotation with
  | rotate0 | rotate180 | unknown => exact h
  | rotate90 | rotate270 => exact ⟨h.2, h.1⟩

theorem Shows.rotate (h : Shows frame size ptsNs image) (rotation : FrameRotation) :
    ∃ turned, rotateFrame frame rotation = some turned ∧
      Shows turned (size.rotated rotation) ptsNs fun i => (image i).turn rotation.turns := by
  obtain ⟨result, hresult⟩ := allocateI420_isSome (allocatable_rotated h.tight.allocatable rotation) frame.ptsNs
  have hsize : (if rotation.swaps then (⟨frame.height, frame.width⟩ : Size) else ⟨frame.width, frame.height⟩) = size.rotated rotation := by
    rw [h.tight.width_eq, h.tight.height_eq, Size.rotated]
  refine ⟨DecodedFrame.writePlanes result (fun _ => 0) fun i => (DecodedFrame.raster frame i).turn rotation.turns, ?_, ?_⟩
  · simp only [rotateFrame, hsize, hresult, Option.map_some]
  · rw [← h.ptsNs]
    exact (shows_of_written hresult fun i => (h.tight.raster_fills i).turn rotation).congr fun i => (h.raster i).turn _

theorem Shows.mirror (h : Shows frame size ptsNs image) :
    ∃ mirrored, mirrorFrame frame = some mirrored ∧ Shows mirrored size ptsNs fun i => (image i).mirror := by
  obtain ⟨result, hresult⟩ := allocateI420_isSome h.tight.allocatable frame.ptsNs
  refine ⟨DecodedFrame.writePlanes result (fun _ => 0) fun i => (DecodedFrame.raster frame i).mirror, ?_, ?_⟩
  · simp only [mirrorFrame, h.tight.size_eq, hresult, Option.map_some]
  · rw [← h.ptsNs]
    exact (shows_of_written hresult h.tight.mirror_fills).congr fun i => (h.raster i).mirror

/-- What a plan makes of a picture: it is turned clockwise, then mirrored, then put upside down. -/
def FrameProcessConfig.turned (config : FrameProcessConfig) (a : Raster UInt8) : Raster UInt8 :=
  let a := a.turn config.rotation.turns
  let a := if config.flipHorizontal then a.mirror else a
  if config.flipVertical then a.flip else a

/-- A stage that is left out changes nothing, and one that is asked for does what its operation does. -/
theorem shows_stage {asked : Bool} {error : String} {operation : DecodedFrame → Option DecodedFrame} {size' : Size}
    {image' : Fin 3 → Raster UInt8} (hout : asked = false → Shows frame size' ptsNs image')
    (hasked : asked = true → ∃ result, operation frame = some result ∧ Shows result size' ptsNs image') :
    ∃ result, stage asked error operation frame = .ok result ∧ Shows result size' ptsNs image' := by
  cases asked with
  | false => exact ⟨frame, rfl, hout rfl⟩
  | true =>
      obtain ⟨result, hresult, hshows⟩ := hasked rfl
      refine ⟨result, ?_, hshows⟩
      rw [stage, if_pos rfl, hresult]
      rfl

theorem Shows.turn (h : Shows frame size ptsNs image) (config : FrameProcessConfig) :
    ∃ turned, turnFrame config frame = .ok turned ∧
      Shows turned (size.rotated config.rotation) ptsNs fun i => config.turned (image i) := by
  obtain ⟨rotated, hrotated, hshows⟩ : ∃ rotated,
      stage (config.rotation ≠ .rotate0) "rotation failed" (rotateFrame · config.rotation) frame = .ok rotated ∧
      Shows rotated (size.rotated config.rotation) ptsNs fun i => (image i).turn config.rotation.turns := by
    refine shows_stage (fun hzero => ?_) fun _ => h.rotate config.rotation
    have hrotation : config.rotation = .rotate0 := by simpa using hzero
    rw [hrotation]
    exact h
  obtain ⟨mirrored, hmirrored, hshows'⟩ : ∃ mirrored,
      stage config.flipHorizontal "horizontal flip failed" mirrorFrame rotated = .ok mirrored ∧
      Shows mirrored (size.rotated config.rotation) ptsNs fun i =>
        if config.flipHorizontal then ((image i).turn config.rotation.turns).mirror else (image i).turn config.rotation.turns := by
    refine shows_stage (fun hout => ?_) fun hasked => ?_
    · simp only [hout]
      exact hshows
    · simp only [hasked]
      exact hshows.mirror
  obtain ⟨flipped, hflipped, hshows''⟩ : ∃ flipped,
      stage config.flipVertical "vertical flip failed" (fun frame => (rotateFrame frame .rotate180).bind mirrorFrame) mirrored =
        .ok flipped ∧
      Shows flipped (size.rotated config.rotation) ptsNs fun i => config.turned (image i) := by
    refine shows_stage (fun hout => ?_) fun hasked => ?_
    · simp only [FrameProcessConfig.turned, hout]
      exact hshows'
    · obtain ⟨half, hhalf, hshowsHalf⟩ := hshows'.rotate .rotate180
      obtain ⟨flipped, hflipped, hshowsFlipped⟩ := hshowsHalf.mirror
      refine ⟨flipped, by rw [hhalf, Option.bind_some, hflipped], hshowsFlipped.congr fun i => ?_⟩
      simp only [FrameProcessConfig.turned, hasked, if_true]
      exact Raster.mirror_half_turn _
  refine ⟨flipped, ?_, hshows''⟩
  rw [turnFrame, hrotated]
  show (stage config.flipHorizontal "horizontal flip failed" mirrorFrame rotated >>= _) = _
  rw [hmirrored]
  exact hflipped

end MkvCodec
