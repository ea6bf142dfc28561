import MkvCodec.Frame.Geometry

/-!
# Crop, rotation and flips

What the machine makes of a plan without an output size. The picture is the cropped source, turned, mirrored and put upside down,
in all planes, unless a row offset of the crop wraps or libyuv does not take the size of the picture.
-/

namespace MkvCodec

open Decoder (DecodedFrame)

variable {frame source destination : DecodedFrame} {config : FrameProcessConfig} {libyuv : Scaler} {current size crop : Size}
  {ptsNs : Int} {image : Fin 3 → Raster UInt8} {copies : List FrameCopy} {i : Fin 3}

/-! ## The crop of the machine -/

/-- The offset of a position as the machine computes it. -/
def machineOffset (frame : DecodedFrame) (x y : Nat) (i : Fin 3) : Nat :=
  (halved i y * frame.strides i % 2 ^ 32 : Int).toNat + halved i x

theorem planeOffsets_wrapping (frame : DecodedFrame) (x y : Nat) :
    planeOffsets Words.wrapping frame x y = (machineOffset frame x y : Fin 3 → Nat) := by
  funext i
  match i with
  | 0 => rfl
  | 1 => rfl
  | 2 => rfl

/-- Plane `i` of what the machine crops. -/
def machineCrop (source : DecodedFrame) (x y : Nat) (crop : Size) (i : Fin 3) : Raster UInt8 where
  width := subsampled i crop.width
  height := subsampled i crop.height
  pixel row column := DecodedFrame.byte source i (machineOffset source x y i + row * (source.strides i).toNat + column)

theorem wrapping_sub {a b : Nat} (h : b ≤ a) (ha : a < 2 ^ 32) : Words.wrapping 32 (a - b) = (a - b : Nat) :=
  Words.refines_word 32 _ _ (checked_sub h ha)

theorem frameCopy_wrapping {x y : Nat} (hsource : Framed source) (hdestination : Tight destination crop)
    (hcrop : CropInside source x y crop) :
    (frameCopy Words.wrapping source destination x y 0 0 : FrameCopy) =
      { source, destination, srcX := x, srcY := y, dstX := 0, dstY := 0, width := crop.width, height := crop.height
        sourceOffset := machineOffset source x y, destinationOffset := machineOffset destination 0 0 } := by
  have hright := hcrop.right
  have hbottom := hcrop.bottom
  have hwidth := hsource.width_lt
  have hheight := hsource.height_lt
  have hlt := hdestination.size_lt
  have hrestX : Words.wrapping 32 (source.width - x) = (source.width - x : Nat) := wrapping_sub (by omega) (by omega)
  have hrestY : Words.wrapping 32 (source.height - y) = (source.height - y : Nat) := wrapping_sub (by omega) (by omega)
  have hroomX : Words.wrapping 32 (destination.width - (0 : Nat)) = (crop.width : Nat) := by
    rw [hdestination.width_eq]
    exact wrapping_sub (Nat.zero_le _) (by omega)
  have hroomY : Words.wrapping 32 (destination.height - (0 : Nat)) = (crop.height : Nat) := by
    rw [hdestination.height_eq]
    exact wrapping_sub (Nat.zero_le _) (by omega)
  show FrameCopy.mk _ _ _ _ _ _ (min (Words.wrapping 32 (source.width - x)) (Words.wrapping 32 (destination.width - (0 : Nat))))
    (min (Words.wrapping 32 (source.height - y)) (Words.wrapping 32 (destination.height - (0 : Nat))))
    (planeOffsets Words.wrapping source x y) (planeOffsets Words.wrapping destination 0 0) = _
  have hminX : min (source.width - x) crop.width = crop.width := by omega
  have hminY : min (source.height - y) crop.height = crop.height := by omega
  rw [hrestX, hrestY, hroomX, hroomY, hminX, hminY, planeOffsets_wrapping, planeOffsets_wrapping]

theorem machineOffset_zero (frame : DecodedFrame) : machineOffset frame 0 0 = fun _ => 0 := by
  funext i
  rw [machineOffset, halved_zero, Int.natCast_zero, Int.zero_mul]
  rfl

/-- The machine's crop always succeeds; what it shows begins at the offset that the machine computes. -/
theorem cropFrame_wrapping {x y : Nat} (hsource : Framed source) (hcrop : CropInside source x y crop) :
    ∃ frame copy, cropFrame Words.wrapping source x y crop = ((some frame, [copy]) : Option DecodedFrame × List FrameCopy) ∧
      Shows frame crop source.ptsNs (machineCrop source x y crop) := by
  obtain ⟨result, hresult⟩ := allocateI420_isSome (hcrop.allocatable hsource) source.ptsNs
  obtain ⟨htight, hpts⟩ := tight_of_allocate hresult
  have hcopy := frameCopy_wrapping hsource htight hcrop
  generalize hc : (frameCopy Words.wrapping source result x y 0 0 : FrameCopy) = copy at hcopy
  obtain ⟨frame, hframe, hshows⟩ := FrameCopy.copied_shows (show Tight copy.destination crop by rw [hcopy]; exact htight)
    (by rw [hcopy]) (by rw [hcopy]) (by rw [hcopy]; exact machineOffset_zero result)
  refine ⟨frame, copy, ?_, ?_⟩
  · rw [cropFrame, hresult]
    show ((frameCopy Words.wrapping source result x y 0 0 : FrameCopy).copied, [(frameCopy Words.wrapping source result x y 0 0 : FrameCopy)]) = _
    rw [hc, hframe]
  · rw [hcopy] at hshows
    rw [← hpts]
    exact hshows

/-! ## When the machine's crop is right -/

/-- The pixels of the planes are in the buffer. -/
def Held (frame : DecodedFrame) : Prop := ∀ i, ∀ row < subsampled i frame.height, ∀ column < subsampled i frame.width,
  frame.offsets i + (row * (frame.strides i).toNat + column) < frame.pixels.length

theorem machineOffset_of_fit {x y : Nat} (hstride : ∀ i, 0 ≤ frame.strides i) (hfit : OffsetsFit frame y) (i : Fin 3) :
    machineOffset frame x y i = halved i y * (frame.strides i).toNat + halved i x := by
  obtain ⟨stride, hs⟩ := Int.eq_ofNat_of_zero_le (hstride i)
  have hlt := hfit i
  rw [machineOffset, hs] at *
  rw [Int.emod_eq_of_lt (Int.mul_nonneg (Int.natCast_nonneg _) (Int.natCast_nonneg _)) hlt, ← Int.natCast_mul, Int.toNat_natCast,
    Int.toNat_natCast]

theorem machineCrop_agree {x y : Nat} (hstride : ∀ i, 0 ≤ source.strides i) (hfit : OffsetsFit source y) (i : Fin 3) :
    Raster.Agree (machineCrop source x y crop i) (cropped source x y crop i) where
  width := rfl
  height := rfl
  pixel row _ column _ := by
    show DecodedFrame.byte source i (machineOffset source x y i + row * (source.strides i).toNat + column) =
      DecodedFrame.byte source i ((halved i y + row) * (source.strides i).toNat + (halved i x + column))
    rw [machineOffset_of_fit hstride hfit, Nat.add_mul]
    congr 1
    omega

theorem halved_lt_subsampled {x n total : Nat} (hn : n ≠ 0) (hx : x % 2 = 0) (h : x + n ≤ total) (i : Fin 3) :
    halved i x < subsampled i total := by
  unfold halved subsampled
  split <;> omega

theorem subsampled_pos {n : Nat} (hn : n ≠ 0) (i : Fin 3) : 0 < subsampled i n := by
  unfold subsampled
  split <;> omega

/-- Where an offset wraps, a picture with one white pixel is cropped wrongly. -/
theorem machineCrop_wraps {x y : Nat} (hsource : Framed source) (hheld : Held source) (hcrop : CropInside source x y crop)
    (hfit : ¬ OffsetsFit source y) : ∃ pixels : List UInt8, pixels.length = source.pixels.length ∧
      ∃ i, ¬ Raster.Agree (machineCrop { source with pixels } x y crop i) (cropped { source with pixels } x y crop i) := by
  obtain ⟨i, hi⟩ := not_forall.mp hfit
  obtain ⟨stride, hs⟩ := Int.eq_ofNat_of_zero_le (hsource.stride_nonneg i)
  have hw := evenNonzero_iff.mp hcrop.width
  have hh := evenNonzero_iff.mp hcrop.height
  have hin := hheld i (halved i y) (halved_lt_subsampled hh.1 hcrop.y_even hcrop.bottom i) (halved i x)
    (halved_lt_subsampled hw.1 hcrop.x_even hcrop.right i)
  rw [hs] at hi hin
  rw [Int.toNat_natCast] at hin
  -- the machine reads the first pixel of the crop too early
  have hearly : machineOffset source x y i < halved i y * stride + halved i x := by
    have hlt : (halved i y * stride : Int) % 2 ^ 32 < 2 ^ 32 := Int.emod_lt_of_pos _ (by decide)
    have hpos : 0 ≤ (halved i y * stride : Int) % 2 ^ 32 := Int.emod_nonneg _ (by decide)
    rw [machineOffset, hs]
    have hcast : ((halved i y * stride : Nat) : Int) = (halved i y : Int) * stride := Int.natCast_mul _ _
    omega
  obtain ⟨pixels, hpixels⟩ : ∃ pixels, pixels =
      (List.replicate source.pixels.length (0 : UInt8)).set (source.offsets i + (halved i y * stride + halved i x)) 1 := ⟨_, rfl⟩
  refine ⟨pixels, by simp [hpixels], i, fun hagree => ?_⟩
  have hpixel := hagree.pixel 0 (subsampled_pos hh.1 i) 0 (subsampled_pos hw.1 i)
  have hread : pixels.getD (source.offsets i + machineOffset source x y i) 0 = 0 := by
    rw [hpixels, List.getD_eq_getElem?_getD, List.getElem?_set_ne (by omega), List.getElem?_replicate_of_lt (by omega)]
    rfl
  have hwhite : pixels.getD (source.offsets i + (halved i y * stride + halved i x)) 0 = 1 := by
    rw [hpixels, List.getD_eq_getElem?_getD, List.getElem?_set_self (by rw [List.length_replicate]; exact hin)]
    rfl
  have hrow : (halved i y + 0) * (source.strides i).toNat + (halved i x + 0) = halved i y * stride + halved i x := by
    rw [hs, Int.toNat_natCast]
    rfl
  have hfirst : machineOffset source x y i + 0 * (source.strides i).toNat + 0 = machineOffset source x y i := by
    rw [Nat.zero_mul]
    rfl
  change pixels.getD (source.offsets i + (machineOffset source x y i + 0 * (source.strides i).toNat + 0)) 0 =
    pixels.getD (source.offsets i + ((halved i y + 0) * (source.strides i).toNat + (halved i x + 0))) 0 at hpixel
  rw [hfirst, hrow, hread, hwhite] at hpixel
  exact absurd hpixel (by decide)

/-! ## The resize to the same size -/

/-- A scaler that copies a picture that it scales to its own size, as libyuv does. -/
def Scaler.Copies (libyuv : Scaler) : Prop := ∀ size planes i, ∀ row < subsampled i size.height, ∀ column < subsampled i size.width,
  libyuv.accepts size size = true → libyuv.pixel size size planes i row column = (planes i).pixel row column

theorem fittedSize_same (hcurrent : current.Even) (contain : Bool) : fittedSize contain current current = current := by
  have hw := evenNonzero_iff.mp hcurrent.1
  have hh := evenNonzero_iff.mp hcurrent.2
  have hcomm : current.width * current.height = current.height * current.width := Nat.mul_comm _ _
  have hcondition : (contain ∧ current.width * current.height ≤ current.height * current.width) ∨
      (¬ contain ∧ current.height * current.width ≤ current.width * current.height) := by
    rw [hcomm]
    cases contain with
    | true => exact .inl ⟨rfl, Nat.le_refl _⟩
    | false => exact .inr ⟨Bool.false_ne_true, Nat.le_refl _⟩
  rw [fittedSize, if_pos hcondition, Nat.mul_div_cancel _ (by omega)]
  have heven : max 2 (current.height / 2 * 2) = current.height := by omega
  rw [heven]

theorem Shows.scale (h : Shows frame size ptsNs image) (hcopies : libyuv.Copies) (haccepts : libyuv.accepts size size = true) :
    ∃ scaled, scaleFrame libyuv frame size = some scaled ∧ Shows scaled size ptsNs image := by
  obtain ⟨result, hresult⟩ := allocateI420_isSome h.tight.allocatable frame.ptsNs
  refine ⟨_, by rw [scaleFrame, hresult, h.tight.size_eq]; exact if_pos haccepts, ?_⟩
  rw [← h.ptsNs]
  refine (shows_of_written hresult fun i => ⟨rfl, rfl⟩).congr fun i => .trans ⟨?_, ?_, ?_⟩ (h.raster i)
  · exact (h.tight.raster_fills i).1.symm
  · exact (h.tight.raster_fills i).2.symm
  · intro row hr column hc
    exact hcopies size _ i row hr column hc haccepts

theorem cropped_whole (h : Tight frame size) (i : Fin 3) : Raster.Agree (cropped frame 0 0 size i) (DecodedFrame.raster frame i) where
  width := (h.raster_fills i).1.symm
  height := (h.raster_fills i).2.symm
  pixel row _ column _ := by
    show DecodedFrame.byte frame i ((halved i 0 + row) * _ + (halved i 0 + column)) = DecodedFrame.byte frame i (row * _ + column)
    rw [halved_zero, Nat.zero_add, Nat.zero_add]

theorem cropInside_whole (h : Tight frame size) : CropInside frame 0 0 size where
  width := h.size_even.1
  height := h.size_even.2
  x_even := rfl
  y_even := rfl
  right := by rw [Nat.zero_add, h.width_eq]
  bottom := by rw [Nat.zero_add, h.height_eq]

theorem centre_self (n : Nat) : centre n n = 0 := by rw [centre, Nat.sub_self]

/-- Between frames of one size the last copy takes the whole picture. -/
theorem fitCopy_same {scaled output : DecodedFrame} (hscaled : Shows scaled size ptsNs image) (houtput : Tight output size)
    (contain : Bool) : ∃ copy, fitCopy Words.checked contain scaled output size size = some copy ∧
      ∃ frame, copy.copied = some frame ∧ Shows frame size output.ptsNs image := by
  obtain ⟨copy, hcopy, -, frame, hframe, hshows⟩ := copied_of_fit hscaled.tight.framed houtput (cropInside_whole hscaled.tight)
    (offsetsFit_zero scaled)
  refine ⟨copy, ?_, frame, hframe, hshows.congr fun i => (cropped_whole hscaled.tight i).trans (hscaled.raster i)⟩
  cases contain with
  | true =>
      rw [fitCopy_contain houtput ⟨Nat.le_refl _, Nat.le_refl _⟩, centre_self, centre_self]
      exact hcopy
  | false =>
      rw [fitCopy_cover hscaled.tight ⟨Nat.le_refl _, Nat.le_refl _⟩, centre_self, centre_self]
      exact hcopy

/-! ## Plans without an output size -/

/-- A plan that is valid but for its crop rectangle, and leaves the output size open. -/
structure FrameProcessConfig.Plain (config : FrameProcessConfig) : Prop where
  backend : config.backend = .cpu
  rotation : config.rotation.isUnknown = false
  fit : config.fit.isUnknown = false
  outputWidth : config.outputWidth = 0
  outputHeight : config.outputHeight = 0

theorem outSize_plain (h : config.Plain) (current : Size) : config.outSize current = current := by
  rw [FrameProcessConfig.outSize, if_pos h.outputWidth, if_pos h.outputHeight]

/-- The resize to the same size can be done. -/
def Keeps (libyuv : Scaler) (config : FrameProcessConfig) (size : Size) : Prop :=
  config.fit = .stretch ∨ libyuv.accepts size size = true

variable (copies) in
theorem fitFrame_same (h : Shows frame size ptsNs image) (hcopies : libyuv.Copies) (haccepts : libyuv.accepts size size = true)
    (contain : Bool) (rgba : Nat) : ∃ run, fitFrame Words.checked libyuv contain rgba ptsNs frame size copies = some run ∧
      run.status = .ok ∧ ∃ output, run.output = some output ∧ Shows output size ptsNs image := by
  have hlt := h.tight.size_lt
  have hsize := (fitSize_tight contain h.tight h.tight.size_even ⟨by omega, by omega⟩).mpr
    ⟨(fittedSize_same h.tight.size_even contain).symm, by omega, by omega⟩
  obtain ⟨scaled, hscaled, hshows⟩ := h.scale hcopies haccepts
  obtain ⟨output, houtput⟩ := allocateI420_isSome h.tight.allocatable ptsNs
  obtain ⟨htight, hpts⟩ := tight_of_allocate houtput
  obtain ⟨copy, hcopy, result, hresult, hshows'⟩ := fitCopy_same hshows (tight_fillBackground htight contain rgba) contain
  have hptsNs : (if contain then fillBackground output rgba else output).ptsNs = ptsNs := by
    split
    · exact hpts
    · exact hpts
  rw [hptsNs] at hshows'
  rw [fitFrame, hsize, Option.bind_eq_bind, Option.bind_some, hscaled, houtput]
  dsimp only
  rw [hcopy]
  refine ⟨.finished copy.copied (copies ++ [copy]) (some (size, size)), rfl, ?_⟩
  rw [hresult]
  exact ⟨rfl, result, rfl, hshows'⟩

theorem fitFrame_refused (h : Tight frame size) (hrefused : ¬ libyuv.accepts size size = true) (contain : Bool) (rgba : Nat) :
    fitFrame Words.checked libyuv contain rgba ptsNs frame size copies =
      some (.failed .errorInternal "aspect-preserving resize failed" copies (some (size, size))) := by
  have hlt := h.size_lt
  have hsize := (fitSize_tight contain h h.size_even ⟨by omega, by omega⟩).mpr
    ⟨(fittedSize_same h.size_even contain).symm, by omega, by omega⟩
  have hnone : scaleFrame libyuv frame size = none := by
    obtain ⟨result, hresult⟩ := allocateI420_isSome h.allocatable frame.ptsNs
    rw [scaleFrame, hresult, h.size_eq]
    exact if_neg hrefused
  rw [fitFrame, hsize, Option.bind_eq_bind, Option.bind_some, hnone]
  rfl

variable (copies) in
/-- What is left of the processing behind crop, rotation and flips. -/
theorem composeFrame_plain (h : Shows frame size ptsNs image) (hplain : config.Plain) (hcopies : libyuv.Copies) :
    ∃ run, composeFrame Words.checked libyuv config ptsNs frame copies = some run ∧
      (run.status.result = .ok ↔ Keeps libyuv config size) ∧
      (Keeps libyuv config size → ∃ output, run.output = some output ∧ Shows output size ptsNs image) := by
  have hout : (config.outSize size).Even := by
    rw [outSize_plain hplain]
    exact h.tight.size_even
  by_cases hfit : config.fit = .stretch
  · rw [composeFrame_stretch h.tight hout hfit, outSize_plain hplain, if_pos rfl]
    exact ⟨_, rfl, ⟨fun _ => .inl hfit, fun _ => rfl⟩, fun _ => ⟨frame, rfl, h⟩⟩
  · rw [composeFrame_eq_fitFrame h.tight hout hfit, outSize_plain hplain]
    by_cases haccepts : libyuv.accepts size size = true
    · obtain ⟨run, hrun, hok, houtput⟩ := fitFrame_same copies h hcopies haccepts (config.fit = .contain)
        config.backgroundRgba
      exact ⟨run, hrun, ⟨fun _ => .inr haccepts, fun _ => congrArg Status.result hok⟩, fun _ => houtput⟩
    · rw [fitFrame_refused h.tight haccepts]
      have hnot : ¬ Keeps libyuv config size := not_or.mpr ⟨hfit, haccepts⟩
      have hfailed : Result.errorInternal ≠ Result.ok := by decide
      exact ⟨_, rfl, ⟨fun hok => absurd hok hfailed, fun hkeeps => absurd hkeeps hnot⟩, fun hkeeps => absurd hkeeps hnot⟩

/-! ## The whole processing -/

/-- The run of the machine. -/
def machineRun (libyuv : Scaler) (source : DecodedFrame) (config : FrameProcessConfig) : ProcessRun :=
  processFrameCpu Words.wrapping libyuv source config

theorem cropFits_wrapping (hsource : Framed source) (x y : Nat) (crop : Size) :
    ∃ fits, cropFits Words.wrapping source x y crop = (fits : Bool) ∧ (fits = true ↔ CropInside source x y crop) := by
  obtain ⟨fits, hfits, hiff⟩ := cropFits_checked hsource x y crop
  exact ⟨fits, refines_cropFits source x y crop _ hfits, hiff⟩

theorem machineRun_eq (hsource : Framed source) (hplain : config.Plain) :
    (CropInside source config.cropX config.cropY (cropSize source config) →
      machineRun libyuv source config = processCropped Words.wrapping libyuv source config (cropSize source config)) ∧
    (¬ CropInside source config.cropX config.cropY (cropSize source config) → machineRun libyuv source config = cropError) := by
  obtain ⟨fits, hfits, hiff⟩ := cropFits_wrapping hsource config.cropX config.cropY (cropSize source config)
  have hbackend : ¬ config.backend ≠ .cpu := fun hne => hne hplain.backend
  have hknown : (config.rotation.isUnknown || config.fit.isUnknown) = false := by rw [hplain.rotation, hplain.fit, Bool.or_false]
  have hrun : machineRun libyuv source config =
      if fits then processCropped Words.wrapping libyuv source config (cropSize source config) else cropError := by
    rw [machineRun, processFrameCpu, if_neg hbackend, hknown, if_neg Bool.false_ne_true, hfits]
    rfl
  rw [hrun]
  constructor
  · intro hinside
    rw [if_pos (hiff.mpr hinside)]
  · intro hnot
    rw [if_neg fun h => hnot (hiff.mp h)]

/-- With a crop rectangle in the frame the machine shows what it has cropped, turned and mirrored. -/
theorem machineRun_inside (hsource : Framed source) (hplain : config.Plain) (hcopies : libyuv.Copies)
    (hcrop : CropInside source config.cropX config.cropY (cropSize source config)) :
    ((machineRun libyuv source config).status.result = .ok ↔ Keeps libyuv config (pictureSize source config)) ∧
    (Keeps libyuv config (pictureSize source config) → ∃ output, (machineRun libyuv source config).output = some output ∧
      Shows output (pictureSize source config) source.ptsNs
        fun i => config.turned (machineCrop source config.cropX config.cropY (cropSize source config) i)) := by
  obtain ⟨cropped, copy, hcropped, hshows⟩ := cropFrame_wrapping hsource hcrop
  obtain ⟨turned, hturned, hshows'⟩ := hshows.turn config
  obtain ⟨run, hrun, hok, houtput⟩ := composeFrame_plain [copy] hshows' hplain hcopies
  have hmachine : machineRun libyuv source config = run := by
    rw [(machineRun_eq hsource hplain).1 hcrop, processCropped, hcropped]
    simp only [bind, hturned]
    exact refines_composeFrame _ _ _ _ _ _ hrun
  rw [hmachine]
  exact ⟨hok, houtput⟩

theorem agree_turned {a b : Raster UInt8} (h : Raster.Agree a b) (config : FrameProcessConfig) :
    Raster.Agree (config.turned a) (config.turned b) := by
  unfold FrameProcessConfig.turned
  cases config.flipHorizontal <;> cases config.flipVertical
  · exact h.turn _
  · exact (h.turn _).flip
  · exact (h.turn _).mirror
  · exact (h.turn _).mirror.flip

theorem agree_of_turned {a b : Raster UInt8} (h : Raster.Agree (config.turned a) (config.turned b)) : Raster.Agree a b := by
  unfold FrameProcessConfig.turned at h
  revert h
  cases config.flipHorizontal <;> cases config.flipVertical <;> intro h
  · exact Raster.agree_of_turn h
  · exact Raster.agree_of_turn (Raster.agree_of_flip h)
  · exact Raster.agree_of_turn (Raster.agree_of_mirror h)
  · exact Raster.agree_of_turn (Raster.agree_of_mirror (Raster.agree_of_flip h))

/-- The crop rectangle of a plan has an even origin and an even size and is in the frame. -/
structure CropAllowed (source : DecodedFrame) (config : FrameProcessConfig) : Prop where
  x_even : config.cropX % 2 = 0
  y_even : config.cropY % 2 = 0
  width_even : (cropSize source config).width % 2 = 0
  height_even : (cropSize source config).height % 2 = 0
  right : config.cropX + (cropSize source config).width ≤ source.width
  bottom : config.cropY + (cropSize source config).height ≤ source.height

variable (config) in
theorem cropInside_iff (hwidth : 0 < source.width) (hheight : 0 < source.height) :
    CropInside source config.cropX config.cropY (cropSize source config) ↔ CropAllowed source config := by
  have hpos : (cropSize source config).width ≠ 0 ∧ (cropSize source config).height ≠ 0 := by
    unfold cropSize
    constructor
    · dsimp only
      split <;> omega
    · dsimp only
      split <;> omega
  constructor
  · rintro ⟨hw, hh, hx, hy, hr, hb⟩
    exact ⟨hx, hy, (evenNonzero_iff.mp hw).2, (evenNonzero_iff.mp hh).2, hr, hb⟩
  · rintro ⟨hx, hy, hw, hh, hr, hb⟩
    exact ⟨evenNonzero_iff.mpr ⟨hpos.1, hw⟩, evenNonzero_iff.mpr ⟨hpos.2, hh⟩, hx, hy, hr, hb⟩

/-- What processing should do: it reports success if and only if the crop rectangle is allowed, and then the output is the cropped
source, turned, mirrored and put upside down, in all planes. -/
structure Composed (libyuv : Scaler) (source : DecodedFrame) (config : FrameProcessConfig) : Prop where
  accepted : (machineRun libyuv source config).status.result = .ok ↔ CropAllowed source config
  exact : CropAllowed source config → ∃ output, (machineRun libyuv source config).output = some output ∧
    DecodedFrame.size output = pictureSize source config ∧ output.ptsNs = source.ptsNs ∧
    ∀ i, Raster.Agree (DecodedFrame.raster output i) (picture source config i)

theorem composed_iff_inside (hsource : Framed source) (hplain : config.Plain) (hcopies : libyuv.Copies) (hwidth : 0 < source.width)
    (hheight : 0 < source.height) : Composed libyuv source config ↔ (CropAllowed source config →
      (∀ i, Raster.Agree (machineCrop source config.cropX config.cropY (cropSize source config) i)
        (cropped source config.cropX config.cropY (cropSize source config) i)) ∧
      Keeps libyuv config (pictureSize source config)) := by
  have hiff := cropInside_iff config hwidth hheight
  constructor
  · intro h hallowed
    obtain ⟨hok, houtput⟩ := machineRun_inside hsource hplain hcopies (hiff.mpr hallowed)
    have hkeeps := hok.mp (h.accepted.mpr hallowed)
    obtain ⟨output, hrun, hshows⟩ := houtput hkeeps
    obtain ⟨output', hrun', -, -, hagree⟩ := h.exact hallowed
    obtain rfl : output' = output := Option.some.inj (hrun'.symm.trans hrun)
    exact ⟨fun i => agree_of_turned ((hshows.raster i).symm.trans (hagree i)), hkeeps⟩
  · intro h
    refine ⟨⟨fun hok => ?_, fun hallowed => ?_⟩, fun hallowed => ?_⟩
    · by_contra hnot
      rw [(machineRun_eq hsource hplain).2 fun hinside => hnot (hiff.mp hinside)] at hok
      cases hok
    · exact (machineRun_inside hsource hplain hcopies (hiff.mpr hallowed)).1.mpr (h hallowed).2
    · obtain ⟨hagree, hkeeps⟩ := h hallowed
      obtain ⟨output, hrun, hshows⟩ := (machineRun_inside hsource hplain hcopies (hiff.mpr hallowed)).2 hkeeps
      exact ⟨output, hrun, hshows.tight.size_eq, hshows.ptsNs, fun i => (hshows.raster i).trans (agree_turned (hagree i) config)⟩

/-- Crop, rotation and flips compose for all pixels of a frame if and only if, with an allowed crop rectangle, the row offsets of the
crop are below 2³² and the size of the picture is kept. -/
theorem composed_iff (libyuv : Scaler) (hcopies : libyuv.Copies) (source : DecodedFrame) (config : FrameProcessConfig)
    (hsource : Framed source) (hheld : Held source) (hwidth : 0 < source.width) (hheight : 0 < source.height)
    (hplain : config.Plain) :
    (∀ pixels : List UInt8, pixels.length = source.pixels.length → Composed libyuv { source with pixels } config) ↔
      (CropAllowed source config → OffsetsFit source config.cropY ∧ Keeps libyuv config (pictureSize source config)) := by
  have hframed : ∀ pixels, Framed { source with pixels } := fun _ => ⟨hsource.width_lt, hsource.height_lt, hsource.stride_nonneg⟩
  constructor
  · intro h hallowed
    have hinside := (cropInside_iff config hwidth hheight).mpr hallowed
    constructor
    · by_contra hfit
      obtain ⟨pixels, hlength, i, hdisagree⟩ := machineCrop_wraps hsource hheld hinside hfit
      have hcomposed := (composed_iff_inside (hframed pixels) hplain hcopies hwidth hheight).mp (h pixels hlength)
      exact hdisagree ((hcomposed ⟨hallowed.1, hallowed.2, hallowed.3, hallowed.4, hallowed.5, hallowed.6⟩).1 i)
    · exact ((composed_iff_inside hsource hplain hcopies hwidth hheight).mp (h source.pixels rfl) hallowed).2
  · intro h pixels _
    refine (composed_iff_inside (hframed pixels) hplain hcopies hwidth hheight).mpr fun hallowed => ?_
    obtain ⟨hfit, hkeeps⟩ := h ⟨hallowed.1, hallowed.2, hallowed.3, hallowed.4, hallowed.5, hallowed.6⟩
    have hfit' : OffsetsFit { source with pixels } config.cropY := hfit
    exact ⟨machineCrop_agree (hframed pixels).stride_nonneg hfit', hkeeps⟩

/-- A scaler that keeps the pixels where they are, up to the sizes that libyuv takes. -/
def copyScaler : Scaler where
  accepts source _ := source.width ≤ 32768 && source.height ≤ 32768
  pixel _ _ planes i := (planes i).pixel

theorem copyScaler_copies : copyScaler.Copies := fun _ _ _ _ _ _ _ _ => rfl

theorem tight_blankFrame (h : allocatable size = true) : Tight (blankFrame size) size := by
  have hframe : allocateI420 size 0 = some (blankFrame size) := if_pos h
  exact (tight_of_allocate hframe).1

theorem Tight.held (h : Tight frame size) : Held frame := by
  intro i row hr column hc
  rw [h.height_eq] at hr
  rw [h.width_eq] at hc
  have hlt := pixel_lt hr hc
  have hend := h.planeEnd_le i
  rw [planeEnd] at hend
  rw [h.stride_toNat]
  omega

/-- The rows of a frame from `y` on, turned and mirrored both ways. -/
def turnPlan (fit : FrameFit) (y : Nat) : FrameProcessConfig where
  backend := .cpu
  cropX := 0
  cropY := y
  cropWidth := 0
  cropHeight := 2
  outputWidth := 0
  outputHeight := 0
  fit := fit
  rotation := .rotate270
  flipHorizontal := true
  flipVertical := true
  backgroundRgba := 0

theorem turnPlan_plain {fit : FrameFit} (h : fit.isUnknown = false) (y : Nat) : (turnPlan fit y).Plain := ⟨rfl, rfl, h, rfl, rfl⟩

theorem composed_small : CropAllowed (blankFrame ⟨4, 6⟩) (turnPlan .contain 4) ∧
    ∀ pixels : List UInt8, pixels.length = (blankFrame ⟨4, 6⟩).pixels.length →
      Composed copyScaler { blankFrame ⟨4, 6⟩ with pixels } (turnPlan .contain 4) :=
  ⟨⟨by decide, by decide, by decide, by decide, by decide, by decide⟩,
    (composed_iff copyScaler copyScaler_copies (blankFrame ⟨4, 6⟩) (turnPlan .contain 4) (tight_blankFrame (by decide)).framed
      (tight_blankFrame (by decide)).held (by decide) (by decide) (turnPlan_plain rfl 4)).mpr
      fun _ => ⟨fun i => by revert i; decide, .inr (by decide)⟩⟩

/-- In a frame with rows of 131072 pixels row 32768 begins 2³² bytes behind the first, and the machine crops from the top. -/
theorem crop_wraps : machineOffset (blankFrame ⟨131072, 32772⟩) 0 32768 0 = 0 ∧
    ∃ pixels : List UInt8, pixels.length = (blankFrame ⟨131072, 32772⟩).pixels.length ∧
      ¬ Composed copyScaler { blankFrame ⟨131072, 32772⟩ with pixels } (turnPlan .stretch 32768) := by
  have htight : Tight (blankFrame ⟨131072, 32772⟩) ⟨131072, 32772⟩ := tight_blankFrame (by decide)
  have hallowed : CropAllowed (blankFrame ⟨131072, 32772⟩) (turnPlan .stretch 32768) :=
    ⟨by decide, by decide, by decide, by decide, by decide, by decide⟩
  have hwraps : ¬ OffsetsFit (blankFrame ⟨131072, 32772⟩) 32768 := fun hfit => absurd (hfit 0) (by decide)
  refine ⟨by decide, ?_⟩
  obtain ⟨pixels, hlength, i, hdisagree⟩ := machineCrop_wraps (x := 0) htight.framed htight.held
    ((cropInside_iff _ (by decide) (by decide)).mpr hallowed) hwraps
  refine ⟨pixels, hlength, fun hcomposed => hdisagree ?_⟩
  have hframed : Framed { blankFrame ⟨131072, 32772⟩ with pixels } := ⟨htight.framed.width_lt, htight.framed.height_lt, htight.framed.stride_nonneg⟩
  have hwidth : 0 < (blankFrame ⟨131072, 32772⟩).width := by decide
  have hheight : 0 < (blankFrame ⟨131072, 32772⟩).height := by decide
  exact ((composed_iff_inside hframed (turnPlan_plain rfl 32768) copyScaler_copies hwidth hheight).mp hcomposed
    ⟨hallowed.1, hallowed.2, hallowed.3, hallowed.4, hallowed.5, hallowed.6⟩).1 i

end MkvCodec