import MkvCodec.Frame.Lemmas.Tight

/-!
# The geometry of frame processing

Sizes and offsets that stay in their words, and rectangles that stay in their planes. Three products do not stay below 2³² for all
accepted plans; where they do, the geometry is right.
-/

namespace MkvCodec

open Decoder (DecodedFrame)

variable {frame source destination : DecodedFrame} {i : Fin 3}

/-! ## Words -/

theorem checked_sub {bits a b : Nat} (h : b ≤ a) (ha : a < 2 ^ bits) : Words.checked bits (a - b) = some (a - b) := by
  rw [← Int.ofNat_sub h]
  exact Words.checked_natCast (by omega)

theorem checked_mul {a b : Nat} (ha : a < 2 ^ 32) (hb : b < 2 ^ 32) : Words.checked 64 (a * b) = some (a * b) := by
  rw [← Int.natCast_mul]
  refine Words.checked_natCast ?_
  calc a * b < 2 ^ 32 * 2 ^ 32 := Nat.mul_lt_mul_of_lt_of_lt ha hb
    _ = 2 ^ 64 := by decide

theorem evenFloor_checked {value n : Nat} : evenFloor Words.checked value = some n ↔ n = value / 2 * 2 ∧ n < 2 ^ 32 := by
  rw [evenFloor, Words.checked_eq_some]
  omega

/-- Half of what a size exceeds another by, rounded to an even number. -/
def centre (larger smaller : Nat) : Nat := (larger - smaller) / 2 / 2 * 2

theorem centred_checked {larger smaller : Nat} (h : smaller ≤ larger) (hlarger : larger < 2 ^ 32) :
    centred Words.checked larger smaller = some (centre larger smaller) := by
  have hlt : centre larger smaller < 2 ^ 32 := by
    unfold centre
    omega
  rw [centred, checked_sub h hlarger, Option.bind_eq_bind, Option.bind_some, evenFloor_checked]
  exact ⟨rfl, hlt⟩

/-! ## Offsets -/

/-- The products in the offsets of row `y` are below 2³². -/
def OffsetsFit (frame : DecodedFrame) (y : Nat) : Prop := ∀ i, halved i y * frame.strides i < 2 ^ 32

/-- A frame with the dimensions that the processor handles. -/
structure Framed (frame : DecodedFrame) : Prop where
  width_lt : frame.width < 2 ^ 31
  height_lt : frame.height < 2 ^ 31
  stride_nonneg : ∀ i, 0 ≤ frame.strides i

theorem planeOffsets_of_fit {x y : Nat} (hstride : ∀ i, 0 ≤ frame.strides i) (h : OffsetsFit frame y) :
    ∃ offset, planeOffsets Words.checked frame x y = some offset ∧
      ∀ i, (offset i : Int) = halved i y * frame.strides i + halved i x := by
  have hword : ∀ i, ∃ n : Nat, Words.checked 32 (halved i y * frame.strides i) = some n ∧ (n : Int) = halved i y * frame.strides i := by
    intro i
    have hnonneg : 0 ≤ (halved i y : Int) * frame.strides i := Int.mul_nonneg (Int.natCast_nonneg _) (hstride i)
    obtain ⟨n, hn⟩ := Int.eq_ofNat_of_zero_le hnonneg
    have hlt := h i
    rw [hn] at hlt ⊢
    exact ⟨n, Words.checked_natCast (by exact_mod_cast hlt), rfl⟩
  obtain ⟨n₀, hword₀, hn₀⟩ := hword 0
  obtain ⟨n₁, hword₁, hn₁⟩ := hword 1
  obtain ⟨n₂, hword₂, hn₂⟩ := hword 2
  refine ⟨![n₀ + x, n₁ + x / 2, n₂ + x / 2], ?_, fun i => ?_⟩
  · show (Words.checked 32 (halved 0 y * frame.strides 0) >>= fun y0 => Words.checked 32 (halved 1 y * frame.strides 1) >>= fun y1 =>
      Words.checked 32 (halved 2 y * frame.strides 2) >>= fun y2 => some ![y0 + x, y1 + x / 2, y2 + x / 2]) = _
    rw [hword₀, hword₁, hword₂]
    rfl
  · match i with
    | 0 => exact congrArg (· + (x : Int)) hn₀
    | 1 => exact congrArg (· + ((x / 2 : Nat) : Int)) hn₁
    | 2 => exact congrArg (· + ((x / 2 : Nat) : Int)) hn₂

theorem fit_of_planeOffsets {x y : Nat} {offset : Fin 3 → Nat} (h : planeOffsets Words.checked frame x y = some offset) :
    OffsetsFit frame y := by
  simp only [planeOffsets, Option.bind_eq_bind, Option.bind_eq_some_iff] at h
  obtain ⟨n₀, hn₀, n₁, hn₁, n₂, hn₂, -⟩ := h
  have hlt : ∀ {n : Nat} {a : Int}, Words.checked 32 a = some n → a < 2 ^ 32 := by
    intro n a hn
    obtain ⟨rfl, hbound⟩ := Words.checked_eq_some.mp hn
    exact_mod_cast hbound
  intro i
  match i with
  | 0 => exact hlt hn₀
  | 1 => exact hlt hn₁
  | 2 => exact hlt hn₂

theorem Tight.size_lt {size : Size} (h : Tight frame size) : size.width < 2 ^ 31 ∧ size.height < 2 ^ 31 :=
  (allocatable_iff.mp h.allocatable).2.2

theorem Tight.framed {size : Size} (h : Tight frame size) : Framed frame where
  width_lt := by
    rw [h.width_eq]
    exact h.size_lt.1
  height_lt := by
    rw [h.height_eq]
    exact h.size_lt.2
  stride_nonneg i := by
    rw [h.stride]
    exact Int.natCast_nonneg _

/-- In a tight frame the product of the first plane is the largest. -/
theorem Tight.offsetsFit_iff {size : Size} (h : Tight frame size) (y : Nat) : OffsetsFit frame y ↔ y * size.width < 2 ^ 32 := by
  constructor
  · intro hfit
    have hzero := hfit 0
    rw [h.stride, subsampled_zero] at hzero
    exact_mod_cast hzero
  · intro hlt i
    have hle : halved i y * subsampled i size.width ≤ y * size.width := by
      refine Nat.mul_le_mul ?_ ?_
      · unfold halved
        split <;> omega
      · unfold subsampled
        split <;> omega
    rw [h.stride]
    exact_mod_cast lt_of_le_of_lt hle hlt

/-! ## Copies -/

/-- A rectangle lies in plane `i`, and its offset is that of its first pixel. -/
structure RectInside (frame : DecodedFrame) (i : Fin 3) (x y width height offset : Nat) : Prop where
  columns : halved i x + subsampled i width ≤ subsampled i frame.width
  rows : halved i y + subsampled i height ≤ subsampled i frame.height
  offset_eq : (offset : Int) = halved i y * frame.strides i + halved i x

/-- A copy reads a rectangle of its source and writes one of its destination. -/
structure FrameCopy.Inside (copy : FrameCopy) : Prop where
  source : ∀ i, RectInside copy.source i copy.srcX copy.srcY copy.width copy.height (copy.sourceOffset i)
  destination : ∀ i, RectInside copy.destination i copy.dstX copy.dstY copy.width copy.height (copy.destinationOffset i)

/-- A position at which a rectangle may begin. -/
structure Position (frame : DecodedFrame) (x y : Nat) : Prop where
  x_le : x ≤ frame.width
  y_le : y ≤ frame.height
  x_even : x % 2 = 0
  y_even : y % 2 = 0

theorem Position.origin (frame : DecodedFrame) : Position frame 0 0 := ⟨Nat.zero_le _, Nat.zero_le _, rfl, rfl⟩

theorem halved_zero (i : Fin 3) : halved i 0 = 0 := by
  unfold halved
  split <;> rfl

theorem offsetsFit_zero (frame : DecodedFrame) : OffsetsFit frame 0 := by
  intro i
  rw [halved_zero, Int.natCast_zero, Int.zero_mul]
  decide

theorem halved_add_subsampled {x n total : Nat} (hx : x % 2 = 0) (h : x + n ≤ total) (i : Fin 3) :
    halved i x + subsampled i n ≤ subsampled i total := by
  unfold halved subsampled
  split <;> omega

/-- Where the offsets fit, a copy is that of the rectangle it should be. -/
theorem frameCopy_of_fit {srcX srcY dstX dstY : Nat} (hsource : Framed source) (hdestination : Framed destination)
    (hsrc : Position source srcX srcY) (hdst : Position destination dstX dstY) (hsrcFit : OffsetsFit source srcY)
    (hdstFit : OffsetsFit destination dstY) :
    ∃ copy, frameCopy Words.checked source destination srcX srcY dstX dstY = some copy ∧ copy.Inside ∧ copy.source = source ∧
      copy.destination = destination ∧ copy.width = min (source.width - srcX) (destination.width - dstX) ∧
      copy.height = min (source.height - srcY) (destination.height - dstY) ∧ copy.srcX = srcX ∧ copy.srcY = srcY ∧
      copy.dstX = dstX ∧ copy.dstY = dstY := by
  obtain ⟨sourceOffset, hs, hsourceOffset⟩ := planeOffsets_of_fit (x := srcX) hsource.stride_nonneg hsrcFit
  obtain ⟨destinationOffset, hd, hdestinationOffset⟩ := planeOffsets_of_fit (x := dstX) hdestination.stride_nonneg hdstFit
  have hx₁ := hsrc.x_le
  have hy₁ := hsrc.y_le
  have hx₂ := hdst.x_le
  have hy₂ := hdst.y_le
  have hright₁ : srcX + min (source.width - srcX) (destination.width - dstX) ≤ source.width := by omega
  have hbottom₁ : srcY + min (source.height - srcY) (destination.height - dstY) ≤ source.height := by omega
  have hright₂ : dstX + min (source.width - srcX) (destination.width - dstX) ≤ destination.width := by omega
  have hbottom₂ : dstY + min (source.height - srcY) (destination.height - dstY) ≤ destination.height := by omega
  refine ⟨{ source, destination, srcX, srcY, dstX, dstY, sourceOffset, destinationOffset
            width := min (source.width - srcX) (destination.width - dstX)
            height := min (source.height - srcY) (destination.height - dstY) }, ?_, ⟨fun i => ?_, fun i => ?_⟩, rfl, rfl, rfl, rfl,
    rfl, rfl, rfl, rfl⟩
  · rw [frameCopy, checked_sub hx₁ (by have := hsource.width_lt; omega), checked_sub hx₂ (by have := hdestination.width_lt; omega),
      checked_sub hy₁ (by have := hsource.height_lt; omega), checked_sub hy₂ (by have := hdestination.height_lt; omega), hs, hd]
    rfl
  · exact ⟨halved_add_subsampled hsrc.x_even hright₁ i, halved_add_subsampled hsrc.y_even hbottom₁ i, hsourceOffset i⟩
  · exact ⟨halved_add_subsampled hdst.x_even hright₂ i, halved_add_subsampled hdst.y_even hbottom₂ i, hdestinationOffset i⟩

theorem fit_of_frameCopy {srcX srcY dstX dstY : Nat} {copy : FrameCopy}
    (h : frameCopy Words.checked source destination srcX srcY dstX dstY = some copy) :
    OffsetsFit source srcY ∧ OffsetsFit destination dstY := by
  simp only [frameCopy, Option.bind_eq_bind, Option.bind_eq_some_iff] at h
  obtain ⟨_, -, _, -, _, -, _, -, _, hs, _, hd, -⟩ := h
  exact ⟨fit_of_planeOffsets hs, fit_of_planeOffsets hd⟩

/-! ## The crop -/

theorem asInt32_pos {n : Nat} (hpos : 0 < n) (hlt : n < 2 ^ 31) : ¬ asInt32 n ≤ 0 := by
  rw [asInt32_of_lt hlt]
  omega

/-- A crop rectangle in a frame. -/
structure CropInside (source : DecodedFrame) (x y : Nat) (crop : Size) : Prop where
  width : evenNonzero crop.width = true
  height : evenNonzero crop.height = true
  x_even : x % 2 = 0
  y_even : y % 2 = 0
  right : x + crop.width ≤ source.width
  bottom : y + crop.height ≤ source.height

theorem CropInside.allocatable {x y : Nat} {crop : Size} (h : CropInside source x y crop) (hsource : Framed source) :
    allocatable crop = true := by
  have := hsource.width_lt
  have := hsource.height_lt
  have := h.right
  have := h.bottom
  exact allocatable_iff.mpr ⟨evenNonzero_iff.mp h.width, evenNonzero_iff.mp h.height, by omega, by omega⟩

/-- Plane `i` of the cropped picture. -/
def cropped (source : DecodedFrame) (x y : Nat) (crop : Size) (i : Fin 3) : Raster UInt8 :=
  (DecodedFrame.raster source i).crop (halved i x) (halved i y) (subsampled i crop.width) (subsampled i crop.height)

/-- What is copied from an offset is the picture behind it. -/
theorem FrameCopy.image_agree {copy : FrameCopy} {x y : Nat} {crop : Size} (hstride : ∀ i, 0 ≤ copy.source.strides i)
    (hoffset : ∀ i, (copy.sourceOffset i : Int) = halved i y * copy.source.strides i + halved i x)
    (hwidth : copy.width = crop.width) (hheight : copy.height = crop.height) (i : Fin 3) :
    Raster.Agree (copy.image i) (cropped copy.source x y crop i) where
  width := congrArg (subsampled i) hwidth
  height := congrArg (subsampled i) hheight
  pixel row _ column _ := by
    obtain ⟨stride, hs⟩ := Int.eq_ofNat_of_zero_le (hstride i)
    have hbase : copy.sourceOffset i = halved i y * stride + halved i x := by
      have := hoffset i
      rw [hs] at this
      exact_mod_cast this
    show DecodedFrame.byte copy.source i (copy.sourceOffset i + row * (copy.source.strides i).toNat + column) =
      DecodedFrame.byte copy.source i ((halved i y + row) * (copy.source.strides i).toNat + (halved i x + column))
    rw [hs, Int.toNat_natCast, hbase, Nat.add_mul]
    congr 1
    omega

/-- A copy that fills its destination shows what it reads. -/
theorem FrameCopy.copied_shows {copy : FrameCopy} {size : Size} (hdestination : Tight copy.destination size)
    (hwidth : copy.width = size.width) (hheight : copy.height = size.height) (hzero : copy.destinationOffset = fun _ => 0) :
    ∃ frame, copy.copied = some frame ∧ Shows frame size copy.destination.ptsNs copy.image := by
  obtain ⟨hw, hh, hlt, -⟩ := allocatable_iff.mp hdestination.allocatable
  refine ⟨DecodedFrame.writePlanes copy.destination (fun _ => 0) copy.image, ?_,
    hdestination.shows_written fun i => ⟨congrArg (subsampled i) hwidth, congrArg (subsampled i) hheight⟩⟩
  rw [FrameCopy.copied, hwidth, hheight, if_neg, hzero]
  exact not_or.mpr ⟨asInt32_pos (by omega) hlt, hh.1⟩

/-- A rectangle copied into a frame of its size. -/
theorem copied_of_fit {x y : Nat} {size : Size} (hsource : Framed source) (hdestination : Tight destination size)
    (hcrop : CropInside source x y size) (hfit : OffsetsFit source y) :
    ∃ copy, frameCopy Words.checked source destination x y 0 0 = some copy ∧ copy.Inside ∧
      ∃ frame, copy.copied = some frame ∧ Shows frame size destination.ptsNs (cropped source x y size) := by
  have hright := hcrop.right
  have hbottom := hcrop.bottom
  have hw := hdestination.width_eq
  have hh := hdestination.height_eq
  obtain ⟨copy, hcopy, hinside, rfl, rfl, hcopyWidth, hcopyHeight, rfl, rfl, hdstX, hdstY⟩ := frameCopy_of_fit hsource
    hdestination.framed ⟨by omega, by omega, hcrop.x_even, hcrop.y_even⟩ (.origin destination) hfit (offsetsFit_zero destination)
  have hwidth : copy.width = size.width := by omega
  have hheight : copy.height = size.height := by omega
  have hzero : copy.destinationOffset = fun _ => 0 := by
    funext i
    have hoffset := (hinside.destination i).offset_eq
    rw [hdstX, hdstY, halved_zero, Int.natCast_zero, Int.zero_mul] at hoffset
    exact_mod_cast hoffset
  obtain ⟨frame, hframe, hshows⟩ := FrameCopy.copied_shows hdestination hwidth hheight hzero
  exact ⟨copy, hcopy, hinside, frame, hframe, hshows.congr
    (FrameCopy.image_agree hsource.stride_nonneg (fun i => (hinside.source i).offset_eq) hwidth hheight)⟩

theorem cropFrame_of_fit {x y : Nat} {crop : Size} (hsource : Framed source) (hcrop : CropInside source x y crop)
    (hfit : OffsetsFit source y) :
    ∃ frame copy, cropFrame Words.checked source x y crop = some (some frame, [copy]) ∧ copy.Inside ∧
      Shows frame crop source.ptsNs (cropped source x y crop) := by
  obtain ⟨result, hresult⟩ := allocateI420_isSome (hcrop.allocatable hsource) source.ptsNs
  obtain ⟨htight, hpts⟩ := tight_of_allocate hresult
  obtain ⟨copy, hcopy, hinside, frame, hframe, hshows⟩ := copied_of_fit hsource htight hcrop hfit
  refine ⟨frame, copy, ?_, hinside, hpts ▸ hshows⟩
  rw [cropFrame, hresult]
  dsimp only
  rw [hcopy, Option.bind_eq_bind, Option.bind_some, hframe]
  rfl

theorem fit_of_cropFrame {x y : Nat} {crop : Size} {result : Option DecodedFrame × List FrameCopy}
    (hcrop : allocatable crop = true) (h : cropFrame Words.checked source x y crop = some result) : OffsetsFit source y := by
  obtain ⟨fresh, hfresh⟩ := allocateI420_isSome hcrop source.ptsNs
  rw [cropFrame, hfresh] at h
  obtain ⟨copy, hcopy, -⟩ := Option.bind_eq_some_iff.mp h
  exact (fit_of_frameCopy hcopy).1

/-! ## The resize -/

/-- The size to which a picture is fitted, in exact arithmetic: the output in one dimension, in the other the picture's share of it,
rounded to an even number. -/
def fittedSize (contain : Bool) (current out : Size) : Size :=
  if (contain ∧ out.width * current.height ≤ out.height * current.width) ∨
      (¬ contain ∧ out.height * current.width ≤ out.width * current.height) then
    ⟨out.width, max 2 (current.height * out.width / current.width / 2 * 2)⟩
  else ⟨max 2 (current.width * out.height / current.height / 2 * 2), out.height⟩

/-- An even size that is not zero. -/
def Size.Even (size : Size) : Prop := evenNonzero size.width = true ∧ evenNonzero size.height = true

theorem Size.Even.accepted {size : Size} (h : size.Even) :
    (!evenNonzero size.width || !evenNonzero size.height) = false := by
  rw [h.1, h.2]
  rfl

variable {contain : Bool} {current out scaledSize : Size}

theorem fittedSize_even (hout : out.Even) (contain : Bool) (current : Size) : (fittedSize contain current out).Even := by
  unfold fittedSize
  split
  · refine ⟨hout.1, evenNonzero_iff.mpr ?_⟩
    dsimp only
    omega
  · refine ⟨evenNonzero_iff.mpr ?_, hout.2⟩
    dsimp only
    omega

/-- A contained picture is at most as large as the output. -/
theorem fittedSize_contain (hout : out.Even) : (fittedSize true current out).width ≤ out.width ∧
    (fittedSize true current out).height ≤ out.height := by
  have hw := evenNonzero_iff.mp hout.1
  have hh := evenNonzero_iff.mp hout.2
  unfold fittedSize
  split
  case isTrue h =>
      have hle : out.width * current.height ≤ out.height * current.width := by simpa using h
      have hdiv : current.height * out.width / current.width ≤ out.height := by
        refine Nat.div_le_of_le_mul ?_
        rw [Nat.mul_comm current.height, Nat.mul_comm current.width]
        exact hle
      dsimp only
      omega
  case isFalse h =>
      have hlt : out.height * current.width < out.width * current.height := by simpa using h
      have hdiv : current.width * out.height / current.height ≤ out.width := by
        refine Nat.div_le_of_le_mul ?_
        rw [Nat.mul_comm current.width, Nat.mul_comm current.height]
        exact Nat.le_of_lt hlt
      dsimp only
      omega

/-- A covering picture is at least as large as the output. -/
theorem fittedSize_cover (hcurrent : current.Even) (hout : out.Even) : out.width ≤ (fittedSize false current out).width ∧
    out.height ≤ (fittedSize false current out).height := by
  have hw := evenNonzero_iff.mp hout.1
  have hh := evenNonzero_iff.mp hout.2
  have hcw := evenNonzero_iff.mp hcurrent.1
  have hch := evenNonzero_iff.mp hcurrent.2
  unfold fittedSize
  split
  case isTrue h =>
      have hle : out.height * current.width ≤ out.width * current.height := by simpa using h
      have hdiv : out.height ≤ current.height * out.width / current.width := by
        rw [Nat.le_div_iff_mul_le (by omega), Nat.mul_comm current.height]
        exact hle
      dsimp only
      omega
  case isFalse h =>
      have hlt : out.width * current.height < out.height * current.width := by simpa using h
      have hdiv : out.width ≤ current.width * out.height / current.height := by
        rw [Nat.le_div_iff_mul_le (by omega), Nat.mul_comm current.width]
        exact Nat.le_of_lt hlt
      dsimp only
      omega

theorem bind_evenFloor {value : Nat} {f : Nat → Size} : (evenFloor Words.checked value).bind (fun n => some (f n)) = some scaledSize ↔
    value / 2 * 2 < 2 ^ 32 ∧ scaledSize = f (value / 2 * 2) := by
  rw [Option.bind_eq_some_iff]
  constructor
  · rintro ⟨n, hn, hs⟩
    obtain ⟨rfl, hlt⟩ := evenFloor_checked.mp hn
    exact ⟨hlt, (Option.some.inj hs).symm⟩
  · rintro ⟨hlt, rfl⟩
    exact ⟨_, evenFloor_checked.mpr ⟨rfl, hlt⟩, rfl⟩

theorem max_two_lt {n : Nat} : max 2 n < 2 ^ 32 ↔ n < 2 ^ 32 := by omega

theorem max_two_eq {n : Nat} (h : evenNonzero n = true) : max 2 n = n := by
  have := evenNonzero_iff.mp h
  omega

theorem fitSize_checked (hcurrent : current.width < 2 ^ 32 ∧ current.height < 2 ^ 32) (hout : out.Even)
    (hlt : out.width < 2 ^ 32 ∧ out.height < 2 ^ 32) : fitSize Words.checked contain current out = some scaledSize ↔
      scaledSize = fittedSize contain current out ∧ scaledSize.width < 2 ^ 32 ∧ scaledSize.height < 2 ^ 32 := by
  rw [fitSize, checked_mul hlt.1 hcurrent.2, checked_mul hlt.2 hcurrent.1, checked_mul hcurrent.2 hlt.1, checked_mul hcurrent.1 hlt.2,
    max_two_eq hout.1, max_two_eq hout.2, Option.bind_eq_bind, Option.bind_some, Option.bind_some, fittedSize]
  split
  · rw [Option.bind_some]
    refine bind_evenFloor.trans ⟨?_, ?_⟩
    · rintro ⟨hbound, rfl⟩
      exact ⟨rfl, hlt.1, max_two_lt.mpr hbound⟩
    · rintro ⟨rfl, -, hbound⟩
      exact ⟨max_two_lt.mp hbound, rfl⟩
  · rw [Option.bind_some]
    refine bind_evenFloor.trans ⟨?_, ?_⟩
    · rintro ⟨hbound, rfl⟩
      exact ⟨rfl, max_two_lt.mpr hbound, hlt.2⟩
    · rintro ⟨rfl, hbound, -⟩
      exact ⟨max_two_lt.mp hbound, rfl⟩

theorem scaleFrame_some {libyuv : Scaler} {scaled : DecodedFrame} (h : scaleFrame libyuv frame scaledSize = some scaled) :
    Tight scaled scaledSize ∧ libyuv.accepts (DecodedFrame.size frame) scaledSize = true := by
  unfold scaleFrame at h
  split at h
  · cases h
  rename_i result hresult
  split at h
  · rename_i haccepts
    obtain rfl := Option.some.inj h
    exact ⟨(tight_of_allocate hresult).1.writePlanes _ _, haccepts⟩
  · cases h

variable (frame) in
theorem scaleFrame_isSome {libyuv : Scaler} (hsize : allocatable scaledSize = true)
    (haccepts : libyuv.accepts (DecodedFrame.size frame) scaledSize = true) : ∃ scaled, scaleFrame libyuv frame scaledSize = some scaled := by
  obtain ⟨result, hresult⟩ := allocateI420_isSome hsize frame.ptsNs
  exact ⟨_, by rw [scaleFrame, hresult]; exact if_pos haccepts⟩

theorem centre_le (larger smaller : Nat) : centre larger smaller ≤ larger := by
  unfold centre
  omega

theorem Position.centre {size : Size} (h : Tight frame size) (other : Size) :
    Position frame (centre size.width other.width) (MkvCodec.centre size.height other.height) where
  x_le := h.width_eq ▸ centre_le _ _
  y_le := h.height_eq ▸ centre_le _ _
  x_even := Nat.mul_mod_left _ _
  y_even := Nat.mul_mod_left _ _

/-- The resize gets as far as copying the scaled picture. -/
def Composes (libyuv : Scaler) (current scaled out : Size) : Prop :=
  allocatable scaled = true ∧ libyuv.accepts current scaled = true ∧ allocatable out = true

/-- The row offset at which a contained picture is put into the output, or from which a covering one is taken. -/
def fitOffset (contain : Bool) (scaled out : Size) : Nat :=
  if contain then centre out.height scaled.height * out.width else centre scaled.height out.height * scaled.width

theorem fitOffset_contain (scaled out : Size) : fitOffset true scaled out = centre out.height scaled.height * out.width := rfl

theorem fitOffset_cover (scaled out : Size) : fitOffset false scaled out = centre scaled.height out.height * scaled.width := rfl

/-- What has to stay below 2³² in a resize that keeps the aspect ratio: the fitted size, and the row offset of the copy. -/
structure FitFits (libyuv : Scaler) (contain : Bool) (current out : Size) : Prop where
  size : (fittedSize contain current out).width < 2 ^ 32 ∧ (fittedSize contain current out).height < 2 ^ 32
  offset : Composes libyuv current (fittedSize contain current out) out → fitOffset contain (fittedSize contain current out) out < 2 ^ 32

/-- What a run should leave: fitted sizes that are even and on the right side of the output, and copies within their planes. -/
structure ProcessRun.Safe (run : ProcessRun) (config : FrameProcessConfig) : Prop where
  fitted : ∀ scaled out, run.fitted = some (scaled, out) → scaled.Even ∧
    (config.fit = .contain → scaled.width ≤ out.width ∧ scaled.height ≤ out.height) ∧
    (config.fit = .cover → out.width ≤ scaled.width ∧ out.height ≤ scaled.height)
  inside : ∀ copy ∈ run.copies, copy.Inside

variable {libyuv : Scaler} {config : FrameProcessConfig} {copies : List FrameCopy} {ptsNs : Int}

theorem finished_copies (output : Option DecodedFrame) (copies : List FrameCopy) (fitted : Option (Size × Size)) :
    (ProcessRun.finished output copies fitted).copies = copies ∧ (ProcessRun.finished output copies fitted).fitted = fitted := by
  cases output with
  | none => exact ⟨rfl, rfl⟩
  | some => exact ⟨rfl, rfl⟩

theorem safe_of_parts {run : ProcessRun} (hcopies : ∀ copy ∈ run.copies, copy.Inside) (hfitted : run.fitted = some (scaledSize, out))
    (heven : scaledSize.Even) (hcontain : config.fit = .contain → scaledSize.width ≤ out.width ∧ scaledSize.height ≤ out.height)
    (hcover : config.fit = .cover → out.width ≤ scaledSize.width ∧ out.height ≤ scaledSize.height) : run.Safe config where
  fitted scaled out' h := by
    rw [hfitted] at h
    cases h
    exact ⟨heven, hcontain, hcover⟩
  inside := hcopies

theorem inside_snoc {copy : FrameCopy} (h : ∀ c ∈ copies, c.Inside) (hcopy : copy.Inside) : ∀ c ∈ copies ++ [copy], c.Inside := by
  intro c hc
  rcases List.mem_append.mp hc with hc | hc
  · exact h c hc
  · rw [List.mem_singleton.mp hc]
    exact hcopy

theorem tight_fillBackground {output : DecodedFrame} (h : Tight output out) (contain : Bool) (rgba : Nat) :
    Tight (if contain then fillBackground output rgba else output) out := by
  split
  · unfold fillBackground
    exact h.writePlanes _ _
  · exact h

theorem fitCopy_contain {scaled output : DecodedFrame} (houtput : Tight output out)
    (hle : scaledSize.width ≤ out.width ∧ scaledSize.height ≤ out.height) :
    fitCopy Words.checked true scaled output scaledSize out = frameCopy Words.checked scaled output 0 0
      (centre out.width scaledSize.width) (centre out.height scaledSize.height) := by
  have hlt := houtput.size_lt
  rw [fitCopy, if_pos rfl, centred_checked hle.1 (by omega), centred_checked hle.2 (by omega), Option.bind_eq_bind, Option.bind_some,
    Option.bind_some]

theorem fitCopy_cover {scaled output : DecodedFrame} (hscaled : Tight scaled scaledSize)
    (hge : out.width ≤ scaledSize.width ∧ out.height ≤ scaledSize.height) :
    fitCopy Words.checked false scaled output scaledSize out = frameCopy Words.checked scaled output
      (centre scaledSize.width out.width) (centre scaledSize.height out.height) 0 0 := by
  have hlt := hscaled.size_lt
  rw [fitCopy, if_neg Bool.false_ne_true, centred_checked hge.1 (by omega), centred_checked hge.2 (by omega), Option.bind_eq_bind,
    Option.bind_some, Option.bind_some]

/-- The last copy stays in its planes if and only if its row offset fits. -/
theorem fitCopy_of_fit {scaled output : DecodedFrame} (hscaled : Tight scaled scaledSize) (houtput : Tight output out)
    (hle : contain = true → scaledSize.width ≤ out.width ∧ scaledSize.height ≤ out.height)
    (hge : contain = false → out.width ≤ scaledSize.width ∧ out.height ≤ scaledSize.height)
    (hfit : fitOffset contain scaledSize out < 2 ^ 32) :
    ∃ copy, fitCopy Words.checked contain scaled output scaledSize out = some copy ∧ copy.Inside := by
  cases contain with
  | true =>
      rw [fitOffset_contain] at hfit
      obtain ⟨copy, hcopy, hinside, -⟩ := frameCopy_of_fit hscaled.framed houtput.framed (.origin scaled)
        (.centre houtput scaledSize) (offsetsFit_zero scaled) ((houtput.offsetsFit_iff _).mpr hfit)
      exact ⟨copy, by rw [fitCopy_contain houtput (hle rfl), hcopy], hinside⟩
  | false =>
      rw [fitOffset_cover] at hfit
      obtain ⟨copy, hcopy, hinside, -⟩ := frameCopy_of_fit hscaled.framed houtput.framed (.centre hscaled out)
        (.origin output) ((hscaled.offsetsFit_iff _).mpr hfit) (offsetsFit_zero output)
      exact ⟨copy, by rw [fitCopy_cover hscaled (hge rfl), hcopy], hinside⟩

theorem fit_of_fitCopy {scaled output : DecodedFrame} {copy : FrameCopy} (hscaled : Tight scaled scaledSize)
    (houtput : Tight output out) (hle : contain = true → scaledSize.width ≤ out.width ∧ scaledSize.height ≤ out.height)
    (hge : contain = false → out.width ≤ scaledSize.width ∧ out.height ≤ scaledSize.height)
    (h : fitCopy Words.checked contain scaled output scaledSize out = some copy) : fitOffset contain scaledSize out < 2 ^ 32 := by
  cases contain with
  | true =>
      rw [fitCopy_contain houtput (hle rfl)] at h
      rw [fitOffset_contain]
      exact (houtput.offsetsFit_iff _).mp (fit_of_frameCopy h).2
  | false =>
      rw [fitCopy_cover hscaled (hge rfl)] at h
      rw [fitOffset_cover]
      exact (hscaled.offsetsFit_iff _).mp (fit_of_frameCopy h).1

/-- The size that a picture is fitted to is on the right side of the output. -/
theorem fittedSize_bounds (hcurrent : current.Even) (hout : out.Even) (contain : Bool) :
    (contain = true → (fittedSize contain current out).width ≤ out.width ∧ (fittedSize contain current out).height ≤ out.height) ∧
    (contain = false → out.width ≤ (fittedSize contain current out).width ∧ out.height ≤ (fittedSize contain current out).height) := by
  constructor
  · rintro rfl
    exact fittedSize_contain hout
  · rintro rfl
    exact fittedSize_cover hcurrent hout

theorem Tight.size_even {size : Size} (h : Tight frame size) : size.Even := by
  obtain ⟨hw, hh, -⟩ := allocatable_iff.mp h.allocatable
  exact ⟨evenNonzero_iff.mpr hw, evenNonzero_iff.mpr hh⟩

variable {rgba : Nat}

variable (contain) in
theorem fitSize_tight (hframe : Tight frame current) (hout : out.Even) (hlt : out.width < 2 ^ 32 ∧ out.height < 2 ^ 32) :
    fitSize Words.checked contain (DecodedFrame.size frame) out = some scaledSize ↔
      scaledSize = fittedSize contain current out ∧ scaledSize.width < 2 ^ 32 ∧ scaledSize.height < 2 ^ 32 := by
  rw [hframe.size_eq]
  have hsize := hframe.size_lt
  exact fitSize_checked ⟨by omega, by omega⟩ hout hlt

variable (ptsNs rgba) in
theorem fitFrame_of_fits (hframe : Tight frame current) (hout : out.Even) (hlt : out.width < 2 ^ 32 ∧ out.height < 2 ^ 32)
    (hcopies : ∀ c ∈ copies, c.Inside) (h : FitFits libyuv contain current out) :
    ∃ run, fitFrame Words.checked libyuv contain rgba ptsNs frame out copies = some run ∧
      run.fitted = some (fittedSize contain current out, out) ∧ ∀ c ∈ run.copies, c.Inside := by
  obtain ⟨hle, hge⟩ := fittedSize_bounds hframe.size_even hout contain
  have hsize := (fitSize_tight contain hframe hout hlt).mpr ⟨rfl, h.size⟩
  rw [fitFrame, hsize, Option.bind_eq_bind, Option.bind_some]
  cases hscaled : scaleFrame libyuv frame (fittedSize contain current out) with
  | none => exact ⟨_, rfl, rfl, hcopies⟩
  | some scaled =>
      cases houtput : allocateI420 out ptsNs with
      | none => exact ⟨_, rfl, rfl, hcopies⟩
      | some output =>
          obtain ⟨htight, haccepts⟩ := scaleFrame_some hscaled
          have hcomposes : Composes libyuv current (fittedSize contain current out) out :=
            ⟨htight.allocatable, hframe.size_eq ▸ haccepts, allocatable_of_some houtput⟩
          obtain ⟨copy, hcopy, hinside⟩ := fitCopy_of_fit htight
            (tight_fillBackground (tight_of_allocate houtput).1 contain rgba) hle hge (h.offset hcomposes)
          obtain ⟨hrunCopies, hrunFitted⟩ := finished_copies copy.copied (copies ++ [copy]) (some (fittedSize contain current out, out))
          refine ⟨.finished copy.copied (copies ++ [copy]) (some (fittedSize contain current out, out)), ?_, hrunFitted, ?_⟩
          · dsimp only
            rw [hcopy]
            rfl
          · rw [hrunCopies]
            exact inside_snoc hcopies hinside

theorem fits_of_fitFrame {run : ProcessRun} (hframe : Tight frame current) (hout : out.Even)
    (hlt : out.width < 2 ^ 32 ∧ out.height < 2 ^ 32)
    (h : fitFrame Words.checked libyuv contain rgba ptsNs frame out copies = some run) : FitFits libyuv contain current out := by
  obtain ⟨hle, hge⟩ := fittedSize_bounds hframe.size_even hout contain
  rw [fitFrame, Option.bind_eq_bind, Option.bind_eq_some_iff] at h
  obtain ⟨scaledSize, hsize, h⟩ := h
  obtain ⟨rfl, hbound⟩ := (fitSize_tight contain hframe hout hlt).mp hsize
  refine ⟨hbound, fun hcomposes => ?_⟩
  obtain ⟨scaled, hscaled⟩ := scaleFrame_isSome frame hcomposes.1 (by rw [hframe.size_eq]; exact hcomposes.2.1)
  obtain ⟨output, houtput⟩ := allocateI420_isSome hcomposes.2.2 ptsNs
  rw [hscaled, houtput] at h
  dsimp only at h
  obtain ⟨copy, hcopy, -⟩ := Option.bind_eq_some_iff.mp h
  exact fit_of_fitCopy (scaleFrame_some hscaled).1 (tight_fillBackground (tight_of_allocate houtput).1 contain rgba) hle hge hcopy

/-! ## The plans that are accepted -/

/-- A plan passes the checks of the processor. -/
structure FrameProcessConfig.Accepted (config : FrameProcessConfig) (source : DecodedFrame) : Prop where
  backend : config.backend = .cpu
  rotation : config.rotation.isUnknown = false
  fit : config.fit.isUnknown = false
  crop : CropInside source config.cropX config.cropY (cropSize source config)
  outputWidth : config.outputWidth % 2 = 0 ∧ config.outputWidth < 2 ^ 32
  outputHeight : config.outputHeight % 2 = 0 ∧ config.outputHeight < 2 ^ 32

/-- The check of the crop rectangle leaves no word, and finds whether the rectangle is in the frame. -/
theorem cropFits_checked (hsource : Framed source) (x y : Nat) (crop : Size) :
    ∃ fits, cropFits Words.checked source x y crop = some fits ∧ (fits = true ↔ CropInside source x y crop) := by
  have hwidth := hsource.width_lt
  have hheight := hsource.height_lt
  rw [cropFits, checked_sub (Nat.min_le_left _ _) (by omega), checked_sub (Nat.min_le_left _ _) (by omega), Option.bind_eq_bind,
    Option.bind_some, Option.bind_some]
  split
  case isTrue h =>
      refine ⟨false, rfl, fun hfalse => absurd hfalse (by decide), fun hinside => ?_⟩
      have hright := hinside.right
      have hbottom := hinside.bottom
      rw [hinside.width, hinside.height] at h
      simp only [Bool.not_true, Bool.false_or, Bool.or_eq_true, decide_eq_true_eq, hinside.x_even, hinside.y_even] at h
      omega
  case isFalse h =>
      simp only [Bool.or_eq_true, Bool.not_eq_true', decide_eq_true_eq, not_or, Bool.not_eq_false, ne_eq, not_not, not_lt] at h
      obtain ⟨⟨⟨⟨⟨hw, hh⟩, hx⟩, hy⟩, hlimitX⟩, hlimitY⟩ := h
      rw [checked_sub (by omega) (by omega), checked_sub (by omega) (by omega), Option.bind_some, Option.bind_some]
      refine ⟨_, rfl, ?_⟩
      rw [Bool.and_eq_true, decide_eq_true_eq, decide_eq_true_eq]
      constructor
      · rintro ⟨hright, hbottom⟩
        exact ⟨hw, hh, hx, hy, by omega, by omega⟩
      · intro hinside
        have hright := hinside.right
        have hbottom := hinside.bottom
        omega

theorem processFrameCpu_accepted (hsource : Framed source) (h : config.Accepted source) :
    processFrameCpu Words.checked libyuv source config = processCropped Words.checked libyuv source config (cropSize source config) := by
  obtain ⟨fits, hfits, hiff⟩ := cropFits_checked hsource config.cropX config.cropY (cropSize source config)
  have hbackend : ¬ config.backend ≠ .cpu := fun hne => hne h.backend
  have hknown : (config.rotation.isUnknown || config.fit.isUnknown) = false := by rw [h.rotation, h.fit, Bool.or_false]
  rw [processFrameCpu, if_neg hbackend, hknown, if_neg Bool.false_ne_true, hfits, hiff.mpr h.crop, Option.bind_eq_bind, Option.bind_some,
    if_pos rfl]

theorem outSize_even (h : config.Accepted source) (hcurrent : current.Even) : (config.outSize current).Even := by
  have hw := h.outputWidth
  have hh := h.outputHeight
  refine ⟨?_, ?_⟩
  · unfold FrameProcessConfig.outSize
    dsimp only
    split
    · exact hcurrent.1
    · exact evenNonzero_iff.mpr ⟨‹_›, hw.1⟩
  · unfold FrameProcessConfig.outSize
    dsimp only
    split
    · exact hcurrent.2
    · exact evenNonzero_iff.mpr ⟨‹_›, hh.1⟩

/-- The size of the picture after crop and rotation. -/
def pictureSize (source : DecodedFrame) (config : FrameProcessConfig) : Size := (cropSize source config).rotated config.rotation

/-- The plane pictures after crop, rotation and flips. -/
def picture (source : DecodedFrame) (config : FrameProcessConfig) (i : Fin 3) : Raster UInt8 :=
  config.turned (cropped source config.cropX config.cropY (cropSize source config) i)

variable (libyuv) in
/-- Where the offsets of the crop fit, the resize gets the picture after crop, rotation and flips. -/
theorem processCropped_of_fit (hsource : Framed source) (h : config.Accepted source) (hfit : OffsetsFit source config.cropY) :
    ∃ turned copy, processCropped Words.checked libyuv source config (cropSize source config) =
        composeFrame Words.checked libyuv config source.ptsNs turned [copy] ∧ copy.Inside ∧
      Shows turned (pictureSize source config) source.ptsNs (picture source config) := by
  obtain ⟨frame, copy, hcrop, hinside, hshows⟩ := cropFrame_of_fit hsource h.crop hfit
  obtain ⟨turned, hturned, hshows'⟩ := hshows.turn config
  refine ⟨turned, copy, ?_, hinside, hshows'⟩
  rw [processCropped, hcrop, Option.bind_eq_bind, Option.bind_some]
  dsimp only
  rw [hturned]

theorem composeFrame_eq_fitFrame (hframe : Tight frame current) (hout : (config.outSize current).Even) (hfit : config.fit ≠ .stretch) :
    composeFrame Words.checked libyuv config ptsNs frame copies =
      fitFrame Words.checked libyuv (config.fit = .contain) config.backgroundRgba ptsNs frame (config.outSize current) copies := by
  rw [composeFrame, hframe.size_eq, hout.accepted, if_neg Bool.false_ne_true, if_neg hfit]

theorem composeFrame_stretch (hframe : Tight frame current) (hout : (config.outSize current).Even) (hfit : config.fit = .stretch) :
    composeFrame Words.checked libyuv config ptsNs frame copies =
      some (.finished (if current = config.outSize current then some frame else scaleFrame libyuv frame (config.outSize current))
        copies none) := by
  rw [composeFrame, hframe.size_eq, hout.accepted, if_neg Bool.false_ne_true, if_pos hfit]
  rfl

theorem outSize_lt (h : config.Accepted source) (hcurrent : current.width < 2 ^ 31 ∧ current.height < 2 ^ 31) :
    (config.outSize current).width < 2 ^ 32 ∧ (config.outSize current).height < 2 ^ 32 := by
  have hw := h.outputWidth.2
  have hh := h.outputHeight.2
  unfold FrameProcessConfig.outSize
  dsimp only
  constructor
  · split <;> omega
  · split <;> omega

/-- All that has to stay below 2³²: the row offset of the crop in each plane, and, in a resize that keeps the aspect ratio, the fitted
size and the row offset of the last copy. -/
structure GeometryFits (libyuv : Scaler) (source : DecodedFrame) (config : FrameProcessConfig) : Prop where
  crop : OffsetsFit source config.cropY
  fit : config.fit ≠ .stretch →
    FitFits libyuv (config.fit = .contain) (pictureSize source config) (config.outSize (pictureSize source config))

theorem fits_of_run {run : ProcessRun} (hsource : Framed source) (h : config.Accepted source)
    (hrun : processFrameCpu Words.checked libyuv source config = some run) : GeometryFits libyuv source config := by
  rw [processFrameCpu_accepted hsource h] at hrun
  have hcrop : OffsetsFit source config.cropY := by
    rw [processCropped, Option.bind_eq_bind, Option.bind_eq_some_iff] at hrun
    obtain ⟨result, hresult, -⟩ := hrun
    exact fit_of_cropFrame (h.crop.allocatable hsource) hresult
  refine ⟨hcrop, fun hfit => ?_⟩
  obtain ⟨turned, copy, hcompose, -, hshows⟩ := processCropped_of_fit libyuv hsource h hcrop
  have hout := outSize_even h hshows.tight.size_even
  rw [hcompose, composeFrame_eq_fitFrame hshows.tight hout hfit] at hrun
  exact fits_of_fitFrame hshows.tight hout (outSize_lt h hshows.tight.size_lt) hrun

theorem safe_of_fits (hsource : Framed source) (h : config.Accepted source) (hfits : GeometryFits libyuv source config) :
    ∃ run, processFrameCpu Words.checked libyuv source config = some run ∧ run.Safe config := by
  obtain ⟨turned, copy, hcompose, hinside, hshows⟩ := processCropped_of_fit libyuv hsource h hfits.crop
  have hout := outSize_even h hshows.tight.size_even
  have hcopies : ∀ c ∈ [copy], c.Inside := fun c hc => List.mem_singleton.mp hc ▸ hinside
  rw [processFrameCpu_accepted hsource h, hcompose]
  by_cases hfit : config.fit = .stretch
  · rw [composeFrame_stretch hshows.tight hout hfit]
    refine ⟨_, rfl, ?_⟩
    obtain ⟨hrunCopies, hrunFitted⟩ := finished_copies
      (if pictureSize source config = config.outSize (pictureSize source config) then some turned
        else scaleFrame libyuv turned (config.outSize (pictureSize source config))) [copy] none
    refine ⟨fun scaled out hfitted => ?_, ?_⟩
    · rw [hrunFitted] at hfitted
      cases hfitted
    · rw [hrunCopies]
      exact hcopies
  · rw [composeFrame_eq_fitFrame hshows.tight hout hfit]
    obtain ⟨run, hrun, hfitted, hrunCopies⟩ := fitFrame_of_fits source.ptsNs config.backgroundRgba hshows.tight hout
      (outSize_lt h hshows.tight.size_lt) hcopies (hfits.fit hfit)
    obtain ⟨hle, hge⟩ := fittedSize_bounds hshows.tight.size_even hout (config.fit = .contain)
    refine ⟨run, hrun, safe_of_parts hrunCopies hfitted (fittedSize_even hout _ _) (fun hcontain => ?_) fun hcover => ?_⟩
    · exact hle (decide_eq_true hcontain)
    · exact hge (decide_eq_false (by rw [hcover]; decide))

/-- The geometry of an accepted plan is safe if and only if a few values stay below 2³². -/
theorem geometry_safe_iff (libyuv : Scaler) (source : DecodedFrame) (config : FrameProcessConfig) (hsource : Framed source)
    (hconfig : config.Accepted source) :
    (∃ run, processFrameCpu Words.checked libyuv source config = some run ∧ run.Safe config) ↔ GeometryFits libyuv source config := by
  constructor
  · rintro ⟨run, hrun, -⟩
    exact fits_of_run hsource hconfig hrun
  · exact safe_of_fits hsource hconfig

/-- A frame whose pixels are all zero. -/
def blankFrame (size : Size) : DecodedFrame where
  width := size.width
  height := size.height
  ptsNs := 0
  pixels := List.replicate (size.width * size.height + 2 * (size.width / 2 * (size.height / 2))) 0
  offsets := ![0, size.width * size.height, size.width * size.height + size.width / 2 * (size.height / 2)]
  strides := ![size.width, (size.width / 2 : Nat), (size.width / 2 : Nat)]

/-- A scaler that takes all sizes and leaves the planes black. -/
def blackScaler : Scaler := ⟨fun _ _ => true, fun _ _ _ _ _ _ => 0⟩

/-- The lower half of a frame of four rows, turned and put into the middle of a wider one. -/
def containPlan : FrameProcessConfig where
  backend := .cpu
  cropX := 0
  cropY := 2
  cropWidth := 0
  cropHeight := 2
  outputWidth := 8
  outputHeight := 4
  fit := .contain
  rotation := .rotate90
  flipHorizontal := true
  flipVertical := false
  backgroundRgba := 0

/-- A whole frame that is to cover a flat output. -/
def coverPlan (output : Size) : FrameProcessConfig where
  backend := .cpu
  cropX := 0
  cropY := 0
  cropWidth := 0
  cropHeight := 0
  outputWidth := output.width
  outputHeight := output.height
  fit := .cover
  rotation := .rotate0
  flipHorizontal := false
  flipVertical := false
  backgroundRgba := 0

theorem geometry_safe_small : ∃ run, processFrameCpu Words.checked blackScaler (blankFrame ⟨4, 4⟩) containPlan = some run ∧
    run.Safe containPlan :=
  (geometry_safe_iff blackScaler (blankFrame ⟨4, 4⟩) containPlan ⟨by decide, by decide, by decide⟩
    ⟨rfl, rfl, rfl, ⟨by decide, by decide, by decide, by decide, by decide, by decide⟩, by decide, by decide⟩).mpr
    ⟨fun i => by revert i; decide, fun _ => ⟨by decide, fun _ => by decide⟩⟩

/-- A frame of 2 by 1024 pixels that is to cover 8388608 by 4 is scaled to a height of 2³², which becomes 0 and then 2; the offset of
its middle row in the output wraps. -/
theorem cover_wraps : (coverPlan ⟨8388608, 4⟩).Accepted (blankFrame ⟨2, 1024⟩) ∧
    fitSize Words.wrapping false ⟨2, 1024⟩ ⟨8388608, 4⟩ = (⟨8388608, 2⟩ : Size) ∧ centred Words.wrapping 2 4 = (2147483646 : Nat) ∧
    ¬ ∃ run, processFrameCpu Words.checked blackScaler (blankFrame ⟨2, 1024⟩) (coverPlan ⟨8388608, 4⟩) = some run ∧
      run.Safe (coverPlan ⟨8388608, 4⟩) := by
  have hsource : Framed (blankFrame ⟨2, 1024⟩) := ⟨by decide, by decide, by decide⟩
  have haccepted : (coverPlan ⟨8388608, 4⟩).Accepted (blankFrame ⟨2, 1024⟩) :=
    ⟨rfl, rfl, rfl, ⟨by decide, by decide, by decide, by decide, by decide, by decide⟩, by decide, by decide⟩
  refine ⟨haccepted, rfl, rfl, ?_⟩
  rintro ⟨run, hrun, -⟩
  have hlt := ((fits_of_run hsource haccepted hrun).fit (by decide)).size.2
  exact absurd hlt (by decide)

/-! ## The checked arithmetic and the machine's -/

open Words (Refines refines_word)

theorem refines_planeOffsets (frame : DecodedFrame) (x y : Nat) :
    Refines (planeOffsets Words.checked frame x y) (planeOffsets Words.wrapping frame x y) :=
  (refines_word _ _).bind fun _ => (refines_word _ _).bind fun _ => (refines_word _ _).bind fun _ => .pure _

theorem refines_frameCopy (source destination : DecodedFrame) (srcX srcY dstX dstY : Nat) :
    Refines (frameCopy Words.checked source destination srcX srcY dstX dstY)
      (frameCopy Words.wrapping source destination srcX srcY dstX dstY) :=
  (refines_word _ _).bind fun _ => (refines_word _ _).bind fun _ => (refines_word _ _).bind fun _ => (refines_word _ _).bind fun _ =>
    (refines_planeOffsets _ _ _).bind fun _ => (refines_planeOffsets _ _ _).bind fun _ => .pure _

theorem refines_cropFrame (source : DecodedFrame) (x y : Nat) (crop : Size) :
    Refines (cropFrame Words.checked source x y crop) (cropFrame Words.wrapping source x y crop) := by
  unfold cropFrame
  cases allocateI420 crop source.ptsNs with
  | none => exact .pure _
  | some result => exact (refines_frameCopy _ _ _ _ _ _).bind fun _ => .pure _

theorem refines_centred (larger smaller : Nat) :
    Refines (centred Words.checked larger smaller) (centred Words.wrapping larger smaller) :=
  (refines_word _ _).bind fun _ => refines_word _ _

theorem refines_fitSize (contain : Bool) (current out : Size) :
    Refines (fitSize Words.checked contain current out) (fitSize Words.wrapping contain current out) :=
  (refines_word _ _).bind fun _ => (refines_word _ _).bind fun _ => .ite
    ((refines_word _ _).bind fun _ => (refines_word _ _).bind fun _ => .pure _)
    ((refines_word _ _).bind fun _ => (refines_word _ _).bind fun _ => .pure _)

theorem refines_fitCopy (contain : Bool) (scaled output : DecodedFrame) (scaledSize out : Size) :
    Refines (fitCopy Words.checked contain scaled output scaledSize out) (fitCopy Words.wrapping contain scaled output scaledSize out) :=
  .ite ((refines_centred _ _).bind fun _ => (refines_centred _ _).bind fun _ => refines_frameCopy _ _ _ _ _ _)
    ((refines_centred _ _).bind fun _ => (refines_centred _ _).bind fun _ => refines_frameCopy _ _ _ _ _ _)

theorem refines_fitFrame (libyuv : Scaler) (contain : Bool) (rgba : Nat) (ptsNs : Int) (current : DecodedFrame) (out : Size)
    (copies : List FrameCopy) : Refines (fitFrame Words.checked libyuv contain rgba ptsNs current out copies)
      (fitFrame Words.wrapping libyuv contain rgba ptsNs current out copies) := by
  refine (refines_fitSize _ _ _).bind fun scaledSize => ?_
  cases scaleFrame libyuv current scaledSize with
  | none => exact .pure _
  | some scaled =>
      cases allocateI420 out ptsNs with
      | none => exact .pure _
      | some output => exact (refines_fitCopy _ _ _ _ _).bind fun _ => .pure _

theorem refines_composeFrame (libyuv : Scaler) (config : FrameProcessConfig) (ptsNs : Int) (current : DecodedFrame)
    (copies : List FrameCopy) : Refines (composeFrame Words.checked libyuv config ptsNs current copies)
      (composeFrame Words.wrapping libyuv config ptsNs current copies) :=
  .ite (.pure _) (.ite (.pure _) (refines_fitFrame _ _ _ _ _ _ _))

theorem refines_processCropped (libyuv : Scaler) (source : DecodedFrame) (config : FrameProcessConfig) (crop : Size) :
    Refines (processCropped Words.checked libyuv source config crop) (processCropped Words.wrapping libyuv source config crop) := by
  refine (refines_cropFrame _ _ _ _).bind fun result => ?_
  obtain ⟨cropped, copies⟩ := result
  cases cropped with
  | none => exact .pure _
  | some current =>
      dsimp only
      cases turnFrame config current with
      | error => exact .pure _
      | ok current => exact refines_composeFrame _ _ _ _ _

theorem refines_cropFits (source : DecodedFrame) (x y : Nat) (crop : Size) :
    Refines (cropFits Words.checked source x y crop) (cropFits Words.wrapping source x y crop) :=
  (refines_word _ _).bind fun _ => (refines_word _ _).bind fun _ => .ite (.pure _)
    ((refines_word _ _).bind fun _ => (refines_word _ _).bind fun _ => .pure _)

/-- What the checked arithmetic gives is what the machine computes. -/
theorem refines_processFrameCpu (libyuv : Scaler) (source : DecodedFrame) (config : FrameProcessConfig) :
    Refines (processFrameCpu Words.checked libyuv source config) (processFrameCpu Words.wrapping libyuv source config) :=
  .ite (.pure _) (.ite (.pure _) ((refines_cropFits _ _ _ _).bind fun _ => .ite (refines_processCropped _ _ _ _) (.pure _)))

end MkvCodec
