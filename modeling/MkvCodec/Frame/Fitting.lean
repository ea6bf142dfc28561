import MkvCodec.Frame.Composition

/-!
# The resize to an output size

What the machine makes of a plan with an output size. A stretched picture is the scaled one; a contained picture lies in the middle of
the background, a covering one is cut down to its middle. How libyuv scales is a parameter; it reads the pixels of the picture and
nothing else.
-/

namespace MkvCodec

open Decoder (DecodedFrame)

variable {frame source destination : DecodedFrame} {config : FrameProcessConfig} {libyuv : Scaler} {current size out scaledSize : Size}
  {ptsNs : Int} {image : Fin 3 → Raster UInt8} {copies : List FrameCopy} {i j : Fin 3} {x y : Nat}

/-! ## Writing into a part of a frame -/

/-- The rectangle of an image lies in plane `i`. -/
def Within (size : Size) (i : Fin 3) (x y : Nat) (image : Raster UInt8) : Prop :=
  x + image.width ≤ subsampled i size.width ∧ y + image.height ≤ subsampled i size.height

/-- The offset of a position in plane `i` of a tight frame. -/
def tightOffset (size : Size) (i : Fin 3) (x y : Nat) : Nat := y * subsampled i size.width + x

theorem Within.index_lt {top : Raster UInt8} (h : Within size i x y top) {row column : Nat} (hr : row < top.height)
    (hc : column < top.width) : tightOffset size i x y + row * subsampled i size.width + column <
      subsampled i size.height * subsampled i size.width := by
  have hlt := pixel_lt (show y + row < subsampled i size.height by have := h.2; omega)
    (show x + column < subsampled i size.width by have := h.1; omega)
  rw [Nat.add_mul] at hlt
  unfold tightOffset
  omega

theorem Tight.raster_writePlane_over (h : Tight frame size) {top : Raster UInt8} (hwithin : Within size i x y top) :
    Raster.Agree (DecodedFrame.raster (DecodedFrame.writePlane frame i (tightOffset size i x y) top) i)
      ((DecodedFrame.raster frame i).overlay x y top) where
  width := rfl
  height := rfl
  pixel row hr column hc := by
    have hr' : row < subsampled i size.height := by rw [← h.height_eq]; exact hr
    have hc' : column < subsampled i size.width := by rw [← h.width_eq]; exact hc
    have hlt := pixel_lt hr' hc'
    have hend := h.planeEnd_le i
    simp only [planeEnd] at hend
    have hwrite := Raster.writeTo_overlay (y := y) 0 hwithin.1 hc'
      (show frame.offsets i + row * subsampled i size.width + column < frame.pixels.length by omega)
    simpa only [DecodedFrame.raster, DecodedFrame.byte, DecodedFrame.writePlane, Raster.overlay, h.stride_toNat, tightOffset,
      Nat.add_assoc] using hwrite

theorem Tight.raster_writePlane_apart (h : Tight frame size) {top : Raster UInt8} (hwithin : Within size i x y top) (hij : j ≠ i) :
    Raster.Agree (DecodedFrame.raster (DecodedFrame.writePlane frame i (tightOffset size i x y) top) j)
      (DecodedFrame.raster frame j) where
  width := rfl
  height := rfl
  pixel row hr column hc := by
    have hr' : row < subsampled j size.height := by rw [← h.height_eq]; exact hr
    have hc' : column < subsampled j size.width := by rw [← h.width_eq]; exact hc
    have hlt := pixel_lt hr' hc'
    apply Raster.writeTo_other
    intro r htop c hleft
    have hindex := hwithin.index_lt htop hleft
    change frame.offsets j + (row * (frame.strides j).toNat + column) ≠ _
    rw [h.stride_toNat, h.stride_toNat]
    rcases lt_or_gt_of_ne hij with hbefore | hbehind
    · have := h.planeEnd_le_offset hbefore
      simp only [planeEnd] at this
      omega
    · have := h.planeEnd_le_offset hbehind
      simp only [planeEnd] at this
      omega

/-- Images written at a position lie over what the planes showed. -/
theorem Tight.raster_writePlanes_over (h : Tight frame size) {offset : Fin 3 → Nat} {top : Fin 3 → Raster UInt8}
    (hoffset : ∀ i, offset i = tightOffset size i (halved i x) (halved i y))
    (hwithin : ∀ i, Within size i (halved i x) (halved i y) (top i)) (i : Fin 3) :
    Raster.Agree (DecodedFrame.raster (DecodedFrame.writePlanes frame offset top) i)
      ((DecodedFrame.raster frame i).overlay (halved i x) (halved i y) (top i)) := by
  have h₀ := h.writePlane 0 (offset 0) (top 0)
  have h₁ := h₀.writePlane 1 (offset 1) (top 1)
  simp only [DecodedFrame.writePlanes, hoffset] at h₀ h₁ ⊢
  match i with
  | 0 =>
      exact (h₁.raster_writePlane_apart (hwithin 2) (by decide)).trans
        ((h₀.raster_writePlane_apart (hwithin 1) (by decide)).trans (h.raster_writePlane_over (hwithin 0)))
  | 1 =>
      have hbelow := h.raster_writePlane_apart (hwithin 0) (show (1 : Fin 3) ≠ 0 by decide)
      exact (h₁.raster_writePlane_apart (hwithin 2) (by decide)).trans
        ((h₀.raster_writePlane_over (hwithin 1)).trans (hbelow.overlay ⟨rfl, rfl, fun _ _ _ _ => rfl⟩ _ _))
  | 2 =>
      have hbelow := (h₀.raster_writePlane_apart (hwithin 1) (show (2 : Fin 3) ≠ 1 by decide)).trans
        (h.raster_writePlane_apart (hwithin 0) (show (2 : Fin 3) ≠ 0 by decide))
      exact (h₁.raster_writePlane_over (hwithin 2)).trans (hbelow.overlay ⟨rfl, rfl, fun _ _ _ _ => rfl⟩ _ _)

/-- After a copy the rectangle lies over what the destination showed. -/
theorem FrameCopy.Inside.copied {copy : FrameCopy} (h : copy.Inside) (hdestination : Tight copy.destination size)
    (hwidth : 0 < copy.width) (hheight : 0 < copy.height) :
    ∃ frame, copy.copied = some frame ∧ Shows frame size copy.destination.ptsNs fun i =>
      (DecodedFrame.raster copy.destination i).overlay (halved i copy.dstX) (halved i copy.dstY) (copy.image i) := by
  have hwithin : ∀ i, Within size i (halved i copy.dstX) (halved i copy.dstY) (copy.image i) := by
    intro i
    rw [Within, ← hdestination.width_eq, ← hdestination.height_eq]
    exact ⟨(h.destination i).columns, (h.destination i).rows⟩
  have hoffset : ∀ i, copy.destinationOffset i = tightOffset size i (halved i copy.dstX) (halved i copy.dstY) := by
    intro i
    have heq := (h.destination i).offset_eq
    rw [hdestination.stride] at heq
    exact_mod_cast heq
  have hlt : copy.width < 2 ^ 31 := by
    have hcolumns := (hwithin 0).1
    have hsize := hdestination.size_lt.1
    simp only [FrameCopy.image, subsampled_zero] at hcolumns
    omega
  refine ⟨DecodedFrame.writePlanes copy.destination copy.destinationOffset copy.image, ?_, hdestination.writePlanes _ _, rfl,
    hdestination.raster_writePlanes_over hoffset hwithin⟩
  rw [FrameCopy.copied, if_neg]
  exact not_or.mpr ⟨asInt32_pos hwidth hlt, by omega⟩

/-! ## The background -/

/-- The colour of the background in each plane. -/
def background (rgba : Nat) : Fin 3 → UInt8 :=
  let r : Int := (rgba / 2 ^ 24 % 256 : Nat)
  let g : Int := (rgba / 2 ^ 16 % 256 : Nat)
  let b : Int := (rgba / 2 ^ 8 % 256 : Nat)
  ![component (66 * r + 129 * g + 25 * b) 16, component (-38 * r - 74 * g + 112 * b) 128,
    component (112 * r - 94 * g - 18 * b) 128]

/-- Plane `i` of an output that shows the background alone. -/
def backdrop (size : Size) (rgba : Nat) (i : Fin 3) : Raster UInt8 :=
  ⟨subsampled i size.width, subsampled i size.height, fun _ _ => background rgba i⟩

theorem Tight.shows_background (h : Tight frame size) (rgba : Nat) :
    Shows (fillBackground frame rgba) size frame.ptsNs (backdrop size rgba) := by
  obtain ⟨hw, hh, -⟩ := allocatable_iff.mp h.allocatable
  have hhalved {n : Nat} (hn : n % 2 = 0) (i : Fin 3) : halved i n = subsampled i n := by
    unfold halved subsampled
    split <;> omega
  have hfills (i : Fin 3) : Fills size i ⟨halved i frame.width, halved i frame.height, fun _ _ => background rgba i⟩ := by
    rw [h.width_eq, h.height_eq]
    exact ⟨hhalved hw.2 i, hhalved hh.2 i⟩
  exact (h.shows_written hfills).congr fun i => ⟨(hfills i).1, (hfills i).2, fun _ _ _ _ => rfl⟩

/-! ## Scaling -/

/-- The pixels of a scaled picture depend on the pixels of the picture alone. -/
def Scaler.Local (libyuv : Scaler) : Prop := ∀ source target (planes planes' : Fin 3 → Raster UInt8),
  (∀ i, Raster.Agree (planes i) (planes' i)) → ∀ i, ∀ row < subsampled i target.height, ∀ column < subsampled i target.width,
    libyuv.pixel source target planes i row column = libyuv.pixel source target planes' i row column

/-- Plane `i` of a picture that libyuv has scaled. -/
def Scaler.scaled (libyuv : Scaler) (source target : Size) (planes : Fin 3 → Raster UInt8) (i : Fin 3) : Raster UInt8 :=
  ⟨subsampled i target.width, subsampled i target.height, libyuv.pixel source target planes i⟩

theorem Shows.scaled (h : Shows frame current ptsNs image) (hlocal : libyuv.Local) (hsize : allocatable size = true)
    (haccepts : libyuv.accepts current size = true) :
    ∃ scaled, scaleFrame libyuv frame size = some scaled ∧ Shows scaled size ptsNs (libyuv.scaled current size image) := by
  obtain ⟨result, hresult⟩ := allocateI420_isSome hsize frame.ptsNs
  refine ⟨_, by rw [scaleFrame, hresult, h.tight.size_eq]; exact if_pos haccepts, ?_⟩
  rw [← h.ptsNs]
  exact (shows_of_written hresult fun i => ⟨rfl, rfl⟩).congr fun i =>
    ⟨rfl, rfl, fun row hr column hc => hlocal current size _ _ h.raster i row hr column hc⟩

theorem scaleFrame_eq_none (h : Tight frame current) (hrefused : ¬ (allocatable size = true ∧ libyuv.accepts current size = true)) :
    scaleFrame libyuv frame size = none := by
  cases hscaled : scaleFrame libyuv frame size with
  | none => rfl
  | some scaled =>
      obtain ⟨htight, haccepts⟩ := scaleFrame_some hscaled
      exact absurd ⟨htight.allocatable, h.size_eq ▸ haccepts⟩ hrefused

/-! ## The last copy -/

/-- A contained picture comes to lie in the middle of the output. -/
theorem fitCopy_shows_contain {scaled output : DecodedFrame} {below : Fin 3 → Raster UInt8}
    (hscaled : Shows scaled scaledSize ptsNs image) (houtput : Shows output out ptsNs below)
    (hle : scaledSize.width ≤ out.width ∧ scaledSize.height ≤ out.height) (hfit : fitOffset true scaledSize out < 2 ^ 32) :
    ∃ copy, fitCopy Words.checked true scaled output scaledSize out = some copy ∧ ∃ frame, copy.copied = some frame ∧
      Shows frame out ptsNs fun i =>
        (below i).overlay (halved i (centre out.width scaledSize.width)) (halved i (centre out.height scaledSize.height)) (image i) := by
  rw [fitOffset_contain] at hfit
  obtain ⟨copy, hcopy, hinside, rfl, rfl, hcopyWidth, hcopyHeight, hsrcX, hsrcY, hdstX, hdstY⟩ := frameCopy_of_fit
    hscaled.tight.framed houtput.tight.framed (.origin scaled) (.centre houtput.tight scaledSize) (offsetsFit_zero scaled)
    ((houtput.tight.offsetsFit_iff _).mpr hfit)
  have hw := evenNonzero_iff.mp hscaled.tight.size_even.1
  have hh := evenNonzero_iff.mp hscaled.tight.size_even.2
  rw [hscaled.tight.width_eq, houtput.tight.width_eq] at hcopyWidth
  rw [hscaled.tight.height_eq, houtput.tight.height_eq] at hcopyHeight
  have hwidth : copy.width = scaledSize.width := by
    unfold centre at hcopyWidth
    omega
  have hheight : copy.height = scaledSize.height := by
    unfold centre at hcopyHeight
    omega
  obtain ⟨frame, hframe, hshows⟩ := hinside.copied houtput.tight (by omega) (by omega)
  refine ⟨copy, by rw [fitCopy_contain houtput.tight hle, hcopy], frame, hframe, ?_⟩
  rw [houtput.ptsNs, hdstX, hdstY] at hshows
  refine hshows.congr fun i => (houtput.raster i).overlay ?_ _ _
  have hoffset (i : Fin 3) : (copy.sourceOffset i : Int) = halved i 0 * copy.source.strides i + halved i 0 := by
    rw [(hinside.source i).offset_eq, hsrcX, hsrcY]
  exact (FrameCopy.image_agree hscaled.tight.framed.stride_nonneg hoffset hwidth hheight i).trans
    ((cropped_whole hscaled.tight i).trans (hscaled.raster i))

/-- Of a covering picture the middle is taken. -/
theorem fitCopy_shows_cover {scaled output : DecodedFrame} (hscaled : Shows scaled scaledSize ptsNs image) (houtput : Tight output out)
    (hpts : output.ptsNs = ptsNs) (hge : out.width ≤ scaledSize.width ∧ out.height ≤ scaledSize.height)
    (hfit : fitOffset false scaledSize out < 2 ^ 32) :
    ∃ copy, fitCopy Words.checked false scaled output scaledSize out = some copy ∧ ∃ frame, copy.copied = some frame ∧
      Shows frame out ptsNs fun i => (image i).crop (halved i (centre scaledSize.width out.width))
        (halved i (centre scaledSize.height out.height)) (subsampled i out.width) (subsampled i out.height) := by
  rw [fitOffset_cover] at hfit
  have hcrop : CropInside scaled (centre scaledSize.width out.width) (centre scaledSize.height out.height) out := by
    refine ⟨houtput.size_even.1, houtput.size_even.2, Nat.mul_mod_left _ _, Nat.mul_mod_left _ _, ?_, ?_⟩
    · rw [hscaled.tight.width_eq, centre]
      omega
    · rw [hscaled.tight.height_eq, centre]
      omega
  obtain ⟨copy, hcopy, -, frame, hframe, hshows⟩ := copied_of_fit hscaled.tight.framed houtput hcrop
    ((hscaled.tight.offsetsFit_iff _).mpr hfit)
  rw [hpts] at hshows
  refine ⟨copy, by rw [fitCopy_cover hscaled.tight hge, hcopy], frame, hframe, hshows.congr fun i => ⟨rfl, rfl, ?_⟩⟩
  intro row hr column hc
  have hin := halved_add_subsampled hcrop.y_even hcrop.bottom i
  have hin' := halved_add_subsampled hcrop.x_even hcrop.right i
  change row < subsampled i out.height at hr
  change column < subsampled i out.width at hc
  exact (hscaled.raster i).pixel _ (show _ < subsampled i scaled.height by omega) _ (show _ < subsampled i scaled.width by omega)

/-! ## The whole resize -/

/-- Whether a resize is the one of `FrameFit.contain`, in the form that the processor asks it. -/
def FrameProcessConfig.contains (config : FrameProcessConfig) : Bool := config.fit = .contain

/-- The size to which a plan scales a picture before the last copy. -/
def FrameProcessConfig.fitted (config : FrameProcessConfig) (current : Size) : Size :=
  fittedSize config.contains current (config.outSize current)

/-- Plane `i` of what a plan makes of a picture of `current` size. -/
def resized (libyuv : Scaler) (config : FrameProcessConfig) (current : Size) (image : Fin 3 → Raster UInt8) (i : Fin 3) :
    Raster UInt8 :=
  let out := config.outSize current
  let fitted := config.fitted current
  if config.fit = .stretch then if current = out then image i else libyuv.scaled current out image i
  else if config.contains then
    (backdrop out config.backgroundRgba i).overlay (halved i (centre out.width fitted.width))
      (halved i (centre out.height fitted.height)) (libyuv.scaled current fitted image i)
  else
    (libyuv.scaled current fitted image i).crop (halved i (centre fitted.width out.width)) (halved i (centre fitted.height out.height))
      (subsampled i out.width) (subsampled i out.height)

/-- libyuv takes the sizes of the resize. -/
def Resizes (libyuv : Scaler) (config : FrameProcessConfig) (current : Size) : Prop :=
  if config.fit = .stretch then
    current = config.outSize current ∨ (allocatable (config.outSize current) = true ∧ libyuv.accepts current (config.outSize current) = true)
  else Composes libyuv current (config.fitted current) (config.outSize current)

/-- The error of a resize that libyuv does not take. -/
def resizeError (libyuv : Scaler) (config : FrameProcessConfig) (current : Size) : String :=
  if config.fit = .stretch then "frame resize/composition failed"
  else if allocatable (config.fitted current) && libyuv.accepts current (config.fitted current) then "output allocation failed"
  else "aspect-preserving resize failed"

/-- What a run should leave of a picture of `current` size. -/
structure ProcessRun.Resized (run : ProcessRun) (libyuv : Scaler) (config : FrameProcessConfig) (current : Size) (ptsNs : Int)
    (image : Fin 3 → Raster UInt8) : Prop where
  made : Resizes libyuv config current → run.status = .ok ∧ ∃ output, run.output = some output ∧
    Shows output (config.outSize current) ptsNs (resized libyuv config current image)
  refused : ¬ Resizes libyuv config current → run.status = ⟨.errorInternal, resizeError libyuv config current⟩ ∧ run.output = none

variable (copies) in
theorem resized_stretch (h : Shows frame current ptsNs image) (hlocal : libyuv.Local) (hfit : config.fit = .stretch) :
    (ProcessRun.finished (if current = config.outSize current then some frame else scaleFrame libyuv frame (config.outSize current))
      copies none).Resized libyuv config current ptsNs image := by
  have hresized (i : Fin 3) : resized libyuv config current image i =
      if current = config.outSize current then image i else libyuv.scaled current (config.outSize current) image i := by
    simp only [resized, hfit, if_true]
  have herror : resizeError libyuv config current = "frame resize/composition failed" := by simp only [resizeError, hfit, if_true]
  constructor
  · intro hresizes
    simp only [Resizes, hfit, if_true] at hresizes
    split
    case isTrue hsame =>
      refine ⟨rfl, frame, rfl, ?_⟩
      rw [← hsame]
      refine h.congr fun i => ?_
      rw [hresized, if_pos hsame]
      exact ⟨rfl, rfl, fun _ _ _ _ => rfl⟩
    case isFalse hother =>
      obtain ⟨hsize, haccepts⟩ := hresizes.resolve_left hother
      obtain ⟨scaled, hscaled, hshows⟩ := h.scaled hlocal hsize haccepts
      rw [hscaled]
      refine ⟨rfl, scaled, rfl, hshows.congr fun i => ?_⟩
      rw [hresized, if_neg hother]
      exact ⟨rfl, rfl, fun _ _ _ _ => rfl⟩
  · intro hrefused
    simp only [Resizes, hfit, if_true, not_or] at hrefused
    rw [if_neg hrefused.1, scaleFrame_eq_none h.tight hrefused.2, herror]
    exact ⟨rfl, rfl⟩

theorem fitCopy_shows {scaled output : DecodedFrame}
    (hscaled : Shows scaled (fittedSize config.contains current (config.outSize current)) ptsNs
      (libyuv.scaled current (fittedSize config.contains current (config.outSize current)) image))
    (houtput : Tight output (config.outSize current)) (hpts : output.ptsNs = ptsNs) (hcurrent : current.Even)
    (hout : (config.outSize current).Even) (hfit : config.fit ≠ .stretch)
    (hoffset : fitOffset config.contains (fittedSize config.contains current (config.outSize current)) (config.outSize current) < 2 ^ 32) :
    ∃ copy, fitCopy Words.checked config.contains scaled
        (if config.contains then fillBackground output config.backgroundRgba else output)
        (fittedSize config.contains current (config.outSize current)) (config.outSize current) = some copy ∧
      ∃ frame, copy.copied = some frame ∧ Shows frame (config.outSize current) ptsNs (resized libyuv config current image) := by
  obtain ⟨hle, hge⟩ := fittedSize_bounds hcurrent hout config.contains
  unfold resized FrameProcessConfig.fitted
  cases hcontains : config.contains with
  | true =>
      rw [hcontains] at hscaled hle hoffset
      have hbelow := houtput.shows_background config.backgroundRgba
      rw [hpts] at hbelow
      simpa only [if_neg hfit, if_true] using fitCopy_shows_contain hscaled hbelow (hle rfl) hoffset
  | false =>
      rw [hcontains] at hscaled hge hoffset
      simpa only [if_neg hfit, Bool.false_eq_true, if_false] using fitCopy_shows_cover hscaled houtput hpts (hge rfl) hoffset

theorem resized_fit {run : ProcessRun} (h : Shows frame current ptsNs image) (hlocal : libyuv.Local) (hfit : config.fit ≠ .stretch)
    (hout : (config.outSize current).Even) (hlt : (config.outSize current).width < 2 ^ 32 ∧ (config.outSize current).height < 2 ^ 32)
    (hfits : FitFits libyuv config.contains current (config.outSize current))
    (hrun : fitFrame Words.checked libyuv config.contains config.backgroundRgba ptsNs frame (config.outSize current) copies = some run) :
    run.Resized libyuv config current ptsNs image := by
  have hsize := (fitSize_tight config.contains h.tight hout hlt).mpr ⟨rfl, hfits.size⟩
  rw [fitFrame, hsize, Option.bind_eq_bind, Option.bind_some] at hrun
  by_cases hscales : allocatable (config.fitted current) = true ∧ libyuv.accepts current (config.fitted current) = true
  · obtain ⟨scaled, hscaled, hscaledShows⟩ := h.scaled hlocal hscales.1 hscales.2
    rw [FrameProcessConfig.fitted] at hscaled hscaledShows
    rw [hscaled] at hrun
    dsimp only at hrun
    cases houtput : allocateI420 (config.outSize current) ptsNs with
    | none =>
        rw [houtput] at hrun
        obtain rfl := Option.some.inj hrun
        have hnot : ¬ Resizes libyuv config current := by
          rw [Resizes, if_neg hfit]
          rintro ⟨-, -, hallocatable⟩
          obtain ⟨output, houtput'⟩ := allocateI420_isSome hallocatable ptsNs
          rw [houtput] at houtput'
          cases houtput'
        refine ⟨fun hresizes => absurd hresizes hnot, fun _ => ⟨?_, rfl⟩⟩
        simp only [resizeError, if_neg hfit, hscales.1, hscales.2, Bool.and_self, if_true]
        rfl
    | some output =>
        obtain ⟨htight, hpts⟩ := tight_of_allocate houtput
        have hresizes : Resizes libyuv config current := by
          rw [Resizes, if_neg hfit]
          exact ⟨hscales.1, hscales.2, htight.allocatable⟩
        have hoffset := hfits.offset ⟨hscales.1, hscales.2, htight.allocatable⟩
        obtain ⟨copy, hcopy, result, hresult, hshows⟩ :=
          fitCopy_shows hscaledShows htight hpts h.tight.size_even hout hfit hoffset
        rw [houtput] at hrun
        dsimp only at hrun
        rw [hcopy, Option.bind_eq_bind, Option.bind_some, hresult] at hrun
        obtain rfl := Option.some.inj hrun
        exact ⟨fun _ => ⟨rfl, result, rfl, hshows⟩, fun hnot => absurd hresizes hnot⟩
  · have hnone := scaleFrame_eq_none h.tight hscales
    rw [FrameProcessConfig.fitted] at hnone
    rw [hnone] at hrun
    obtain rfl := Option.some.inj hrun
    have hnot : ¬ Resizes libyuv config current := by
      rw [Resizes, if_neg hfit]
      exact fun hcomposes => hscales ⟨hcomposes.1, hcomposes.2.1⟩
    refine ⟨fun hresizes => absurd hresizes hnot, fun _ => ⟨?_, rfl⟩⟩
    have herror : (allocatable (config.fitted current) && libyuv.accepts current (config.fitted current)) = false := by
      rw [← Bool.not_eq_true, Bool.and_eq_true]
      exact hscales
    simp only [resizeError, if_neg hfit, herror, Bool.false_eq_true, if_false]
    rfl

/-! ## Where the picture lies -/

/-- `n` is the even part of `product / divisor`, or 2 where that is less. -/
def EvenShare (n product divisor : Nat) : Prop := product < (n + 2) * divisor ∧ (n = 2 ∨ n * divisor ≤ product)

theorem evenShare {product divisor : Nat} (h : 0 < divisor) : EvenShare (max 2 (product / divisor / 2 * 2)) product divisor := by
  have hlt : product / divisor < max 2 (product / divisor / 2 * 2) + 2 := by omega
  refine ⟨(Nat.div_lt_iff_lt_mul h).mp hlt, ?_⟩
  rcases Nat.le_total (product / divisor / 2 * 2) 2 with hle | hle
  · exact .inl (Nat.max_eq_left hle)
  · right
    rw [Nat.max_eq_right hle]
    exact (Nat.le_div_iff_mul_le h).mp (by omega)

/-- A fitted size is that of the output in one dimension and keeps the aspect ratio in the other, up to the rounding. -/
def KeepsRatio (current fitted out : Size) : Prop :=
  (fitted.width = out.width ∧ EvenShare fitted.height (current.height * out.width) current.width) ∨
    (fitted.height = out.height ∧ EvenShare fitted.width (current.width * out.height) current.height)

theorem fittedSize_keepsRatio (hcurrent : current.Even) (contain : Bool) : KeepsRatio current (fittedSize contain current out) out := by
  have hw := evenNonzero_iff.mp hcurrent.1
  have hh := evenNonzero_iff.mp hcurrent.2
  unfold fittedSize
  split
  · exact .inl ⟨rfl, evenShare (by omega)⟩
  · exact .inr ⟨rfl, evenShare (by omega)⟩

/-- The margins on both sides of `smaller` in the middle of `larger`, which differ by 2 at most. -/
def Centred (larger smaller margin : Nat) : Prop :=
  smaller ≤ larger ∧ (larger = margin + smaller + margin ∨ larger = margin + smaller + margin + 2)

theorem centred_centre {larger smaller : Nat} (h : smaller ≤ larger) (hlarger : evenNonzero larger = true)
    (hsmaller : evenNonzero smaller = true) : Centred larger smaller (centre larger smaller) := by
  have hl := evenNonzero_iff.mp hlarger
  have hs := evenNonzero_iff.mp hsmaller
  unfold Centred centre
  omega

/-- Where a plan that keeps the aspect ratio puts the picture. -/
structure Framing (config : FrameProcessConfig) (current fitted out : Size) : Prop where
  ratio : KeepsRatio current fitted out
  contain : config.fit = .contain → Centred out.width fitted.width (centre out.width fitted.width) ∧
    Centred out.height fitted.height (centre out.height fitted.height)
  cover : config.fit = .cover → Centred fitted.width out.width (centre fitted.width out.width) ∧
    Centred fitted.height out.height (centre fitted.height out.height)

theorem framing (hcurrent : current.Even) (hout : (config.outSize current).Even) :
    Framing config current (config.fitted current) (config.outSize current) := by
  obtain ⟨hle, hge⟩ := fittedSize_bounds hcurrent hout config.contains
  obtain ⟨hw, hh⟩ := fittedSize_even hout config.contains current
  refine ⟨fittedSize_keepsRatio hcurrent config.contains, fun hcontain => ?_, fun hcover => ?_⟩
  · have hbound := hle (decide_eq_true hcontain)
    exact ⟨centred_centre hbound.1 hout.1 hw, centred_centre hbound.2 hout.2 hh⟩
  · have hbound := hge (decide_eq_false (by rw [hcover]; decide))
    exact ⟨centred_centre hbound.1 hw hout.1, centred_centre hbound.2 hh hout.2⟩

/-! ## The machine's output -/

theorem processFrameCpu_resized {run : ProcessRun} (hlocal : libyuv.Local) (hsource : Framed source) (h : config.Accepted source)
    (hfits : GeometryFits libyuv source config) (hrun : processFrameCpu Words.checked libyuv source config = some run) :
    run.Resized libyuv config (pictureSize source config) source.ptsNs (picture source config) := by
  obtain ⟨turned, copy, hcompose, -, hshows⟩ := processCropped_of_fit libyuv hsource h hfits.crop
  have hout := outSize_even h hshows.tight.size_even
  rw [processFrameCpu_accepted hsource h, hcompose] at hrun
  by_cases hfit : config.fit = .stretch
  · rw [composeFrame_stretch hshows.tight hout hfit] at hrun
    rw [← Option.some.inj hrun]
    exact resized_stretch [copy] hshows hlocal hfit
  · rw [composeFrame_eq_fitFrame hshows.tight hout hfit] at hrun
    exact resized_fit hshows hlocal hfit hout (outSize_lt h hshows.tight.size_lt) (hfits.fit hfit) hrun

/-- The output of an accepted plan is, in all planes, the cropped and turned picture resized to the output size, with its aspect
ratio and its place as the plan says; a plan for which libyuv does not take the sizes fails and leaves no output. -/
theorem resized_output (libyuv : Scaler) (hlocal : libyuv.Local) (source : DecodedFrame) (config : FrameProcessConfig)
    (hsource : Framed source) (hconfig : config.Accepted source) (hfits : GeometryFits libyuv source config) :
    (machineRun libyuv source config).Resized libyuv config (pictureSize source config) source.ptsNs (picture source config) ∧
      Framing config (pictureSize source config) (config.fitted (pictureSize source config))
        (config.outSize (pictureSize source config)) := by
  obtain ⟨run, hrun, -⟩ := safe_of_fits hsource hconfig hfits
  have hmachine : machineRun libyuv source config = run := refines_processFrameCpu libyuv source config run hrun
  have hcurrent : (pictureSize source config).Even := by
    obtain ⟨_, _, -, -, hshows⟩ := processCropped_of_fit libyuv hsource hconfig hfits.crop
    exact hshows.tight.size_even
  rw [hmachine]
  exact ⟨processFrameCpu_resized hlocal hsource hconfig hfits hrun, framing hcurrent (outSize_even hconfig hcurrent)⟩

theorem blackScaler_local : blackScaler.Local := fun _ _ _ _ _ _ _ _ _ _ => rfl

/-- A black picture of 2 by 4 pixels in an output of 8 by 4: there are two columns of background on its left and four on its right. -/
theorem resized_output_small : ∃ output, (machineRun blackScaler (blankFrame ⟨4, 4⟩) containPlan).output = some output ∧
    Shows output ⟨8, 4⟩ 0 fun i =>
      (backdrop ⟨8, 4⟩ 0 i).overlay (halved i 2) (halved i 0) ⟨subsampled i 2, subsampled i 4, fun _ _ => 0⟩ := by
  have hresizes : Resizes blackScaler containPlan (pictureSize (blankFrame ⟨4, 4⟩) containPlan) := by
    simp only [Resizes, Composes]
    decide
  exact ((resized_output blackScaler blackScaler_local (blankFrame ⟨4, 4⟩) containPlan (tight_blankFrame (by decide)).framed
    ⟨rfl, rfl, rfl, ⟨by decide, by decide, by decide, by decide, by decide, by decide⟩, by decide, by decide⟩
    ⟨fun i => by revert i; decide, fun _ => ⟨by decide, fun _ => by decide⟩⟩).1.made hresizes).2

end MkvCodec
