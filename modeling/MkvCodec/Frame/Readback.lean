import Mathlib.Tactic.FinCases
import MkvCodec.Backend.Timing
import MkvCodec.Frame.PlanarCopy

/-!
# Frames read back from the hardware

`configure_nvdec_sequence` and `consume_nvdec_cpu_frame` of NVDEC and `copy_vpl_surface_to_i420` of oneVPL. Both make a frame
in I420 of a surface in NV12. The calls of the drivers are listed in the order in which they are made.
-/

namespace MkvCodec

open Decoder (DecodedFrame)
open Raster (Placed)
open Backend

/-! ## NVDEC -/

namespace Gpu

/-- `CUVIDEOFORMAT`, as far as the sequence callback reads it. -/
structure CuVideoFormat where
  chroma420 : Bool
  bitDepthLumaMinus8 : Nat
  bitDepthChromaMinus8 : Nat
  left : Int
  top : Int
  right : Int
  bottom : Int
  codedWidth : Nat
  codedHeight : Nat
  minNumDecodeSurfaces : Nat

/-- `CUVIDDECODECAPS` behind the call of the driver. -/
structure CuDecodeCaps where
  supported : Bool
  minWidth : Nat
  maxWidth : Nat
  minHeight : Nat
  maxHeight : Nat
  maxMbCount : Nat

/-- The decoder takes the coded size. -/
def CuDecodeCaps.takes (caps : CuDecodeCaps) (format : CuVideoFormat) : Bool :=
  caps.supported && decide (caps.minWidth ≤ format.codedWidth) && decide (format.codedWidth ≤ caps.maxWidth) &&
    decide (caps.minHeight ≤ format.codedHeight) && decide (format.codedHeight ≤ caps.maxHeight) &&
    decide ((format.codedWidth * format.codedHeight + 255) / 256 ≤ caps.maxMbCount)

/-- `configure_nvdec_sequence`: the status, the number of surfaces, and the size of the decoder when there is one. `caps` is what
the driver answers, `created` whether it makes a decoder. -/
def configureNvdecSequence (format : CuVideoFormat) (caps : Option CuDecodeCaps) (created : Bool) (decoder : Option Size) :
    Status × Int × Option Size :=
  if !format.chroma420 || decide (format.bitDepthLumaMinus8 ≠ 0) || decide (format.bitDepthChromaMinus8 ≠ 0) ||
      decide (format.left ≠ 0) || decide (format.top ≠ 0) then
    (⟨.errorCodec, "NVDEC supports only uncropped 8-bit 4:2:0 input"⟩, 0, decoder)
  else if format.right ≤ 0 ∨ format.bottom ≤ 0 ∨ format.right % 2 ≠ 0 ∨ format.bottom % 2 ≠ 0 then
    (⟨.errorCodec, "NVDEC returned invalid display dimensions"⟩, 0, decoder)
  else if !(caps.any fun caps => caps.takes format) then
    (⟨.errorCodec, "NVDEC codec, bit depth, or dimensions are unsupported"⟩, 0, decoder)
  else
    let visible : Size := ⟨format.right.toNat, format.bottom.toNat⟩
    let decodeSurfaces := max 1 (format.minNumDecodeSurfaces : Int)
    match decoder with
    | some size =>
        if size = visible then (.ok, decodeSurfaces, some size)
        else (⟨.errorCodec, "NVDEC mid-stream resolution change is not supported"⟩, 0, some size)
    | none =>
        if created then (.ok, decodeSurfaces, some visible) else (⟨.errorCodec, "cuvidCreateDecoder failed"⟩, 0, none)

/-- One sequence callback. Display areas are pairs of `int`s. -/
structure NvdecSequence where
  format : CuVideoFormat
  caps : Option CuDecodeCaps
  created : Bool
  right_lt : format.right < 2 ^ 31
  bottom_lt : format.bottom < 2 ^ 31

/-- The decoder behind a number of sequence callbacks. -/
def configured (sequences : List NvdecSequence) : Option Size :=
  sequences.foldl (fun decoder s => (configureNvdecSequence s.format s.caps s.created decoder).2.2) none

/-- What the driver answers to the two copies and to the unmapping. -/
structure ReadbackAnswers where
  luma : Bool
  chroma : Bool
  unmapped : Bool

inductive ReadbackCall
  | memcpy2d (source pitch widthInBytes height : Nat)
  | map
  | unmap
  deriving DecidableEq

/-- What `cuMemcpy2D` finds at a device pointer. -/
def deviceImage (device : Nat → UInt8) (pointer pitch width height : Nat) : Raster UInt8 :=
  ⟨width, height, fun row column => device (pointer + row * pitch + column)⟩

/-- The device pointer of the chroma plane. -/
def chromaPointer (devicePointer pitch height : Nat) : Nat := (devicePointer + pitch * height) % 2 ^ 64

/-- The loop that takes the chroma samples apart. -/
def splitChroma (uv : List UInt8) (u v count : Nat) (pixels : List UInt8) : List UInt8 :=
  (List.range count).foldl
    (fun pixels index => (pixels.set (u + index) (uv.getD (index * 2) 0)).set (v + index) (uv.getD (index * 2 + 1) 0)) pixels

/-- `consume_nvdec_cpu_frame`. -/
def consumeNvdecCpuFrame (device : Nat → UInt8) (devicePointer pitch width height : Nat) (ptsNs : Int)
    (answers : ReadbackAnswers) : Status × Option DecodedFrame × List ReadbackCall :=
  let ySize := width * height
  let chromaSize := ySize / 4
  let uvPointer := chromaPointer devicePointer pitch height
  let calls := .memcpy2d devicePointer pitch width height ::
    ((if answers.luma then [.memcpy2d uvPointer pitch width (height / 2)] else []) ++ [.unmap])
  if !(answers.luma && answers.chroma) || !answers.unmapped then
    (⟨.errorCodec, "NVDEC frame readback failed"⟩, none, calls)
  else
    let pixels := Raster.writeTo (List.replicate (ySize + chromaSize * 2) 0) 0 width
      (deviceImage device devicePointer pitch width height)
    let uv := Raster.writeTo (List.replicate (ySize / 2) 0) 0 width (deviceImage device uvPointer pitch width (height / 2))
    let output : DecodedFrame := {
      width := width
      height := height
      ptsNs := ptsNs
      pixels := splitChroma uv ySize (ySize + chromaSize) chromaSize pixels
      offsets := ![0, ySize, ySize + chromaSize]
      strides := ![asInt32 width, asInt32 (width / 2), asInt32 (width / 2)] }
    (.ok, some output, calls)

/-! ## oneVPL -/

/-- `mfxFrameSurface1` with what is in its planes while it is mapped. -/
structure VplImage where
  nv12 : Bool
  cropX : Nat
  cropY : Nat
  cropW : Nat
  cropH : Nat
  pitchHigh : Nat
  pitchLow : Nat
  timeStamp : Nat
  y : Int → UInt8
  uv : Int → UInt8

def VplImage.pitch (surface : VplImage) : Nat := surface.pitchHigh * 2 ^ 16 + surface.pitchLow

/-- The visible part of the luma plane, as libyuv walks through it. -/
def VplImage.luma (surface : VplImage) : Raster UInt8 where
  width := surface.cropW
  height := surface.cropH
  pixel row column := surface.y (surface.cropY * surface.pitch + surface.cropX + row * asInt32 surface.pitch + column)

def VplImage.chroma (surface : VplImage) : Raster UInt8 where
  width := surface.cropW
  height := surface.cropH / 2
  pixel row column := surface.uv ((surface.cropY / 2 : Nat) * surface.pitch + surface.cropX + row * asInt32 surface.pitch + column)

/-- `copy_vpl_surface_to_i420`. A surface without an interface is `none`; `mapped` and `unmapped` are what `Map` and `Unmap`
answer. -/
def copyVplSurfaceToI420 (libyuv : Libyuv) (surface : Option VplImage) (mapped unmapped : Bool) :
    Status × Option DecodedFrame × List ReadbackCall :=
  match surface with
  | none => (⟨.errorCodec, "oneVPL returned an invalid decoded surface"⟩, none, [])
  | some surface =>
      if !mapped then (⟨.errorCodec, "oneVPL failed to map a decoded surface"⟩, none, [.map])
      else
        let width := surface.cropW
        let height := surface.cropH
        if !surface.nv12 || decide (width = 0) || decide (height = 0) || decide (width % 2 ≠ 0) || decide (height % 2 ≠ 0) ||
            decide (2 ^ 31 ≤ width) || decide (2 ^ 31 ≤ height) then
          (⟨.errorNotSupported, "oneVPL decoder produced an unsupported surface format"⟩, none, [.map, .unmap])
        else
          let ySize := width * height
          let uvSize := width / 2 * (height / 2)
          let conversion := libyuv.nv12ToI420 width height surface.luma.bytes surface.chroma.bytes
          let output : DecodedFrame := {
            width := width
            height := height
            ptsNs := asInt64 surface.timeStamp
            pixels := patch (List.replicate (ySize + 2 * uvSize) 0) 0 conversion.2
            offsets := ![0, ySize, ySize + uvSize]
            strides := ![asInt32 width, asInt32 (width / 2), asInt32 (width / 2)] }
          if conversion.1 ≠ 0 then
            (⟨.errorInternal, "libyuv failed to convert decoded NV12"⟩, none, [.map, .unmap])
          else if !unmapped then (⟨.errorCodec, "oneVPL failed to unmap a decoded surface"⟩, none, [.map, .unmap])
          else (.ok, some output, [.map, .unmap])

/-! ## The decoder of a stream -/

section

variable {format : CuVideoFormat} {caps : Option CuDecodeCaps} {created : Bool} {decoder : Option Size} {size : Size}

/-- A sequence leaves the decoder as it is or, where there was none, makes one of an even size. -/
theorem configureNvdecSequence_decoder (hright : format.right < 2 ^ 31) (hbottom : format.bottom < 2 ^ 31) :
    (configureNvdecSequence format caps created decoder).2.2 = decoder ∨
      decoder = none ∧ ∃ size, (configureNvdecSequence format caps created decoder).2.2 = some size ∧ allocatable size = true := by
  unfold configureNvdecSequence
  split
  · exact .inl rfl
  split
  · exact .inl rfl
  rename_i hvisible
  split
  · exact .inl rfl
  cases decoder with
  | some size =>
      left
      dsimp only
      split <;> rfl
  | none =>
      cases created with
      | false => exact .inl rfl
      | true => exact .inr ⟨rfl, _, rfl, allocatable_iff.mpr (by simp only; omega)⟩

/-- The size of the decoder is set once and can be allocated. -/
theorem configured_allocatable {sequences : List NvdecSequence} (h : configured sequences = some size) :
    allocatable size = true := by
  induction sequences using List.reverseRecOn with
  | nil => cases h
  | append_singleton sequences s ih =>
      rw [configured, List.foldl_append] at h
      rcases configureNvdecSequence_decoder s.right_lt s.bottom_lt with hsame | ⟨-, size', hsize', hallocatable⟩
      · exact ih (hsame.symm.trans h)
      · obtain rfl := Option.some.inj (hsize'.symm.trans h)
        exact hallocatable

end

/-! ## What the loop writes -/

theorem getD_set {α : Type*} (pixels : List α) (n j : Nat) (a d : α) :
    (pixels.set n a).getD j d = if n = j ∧ j < pixels.length then a else pixels.getD j d := by
  simp only [List.getD_eq_getElem?_getD, List.getElem?_set]
  by_cases hn : n = j
  · subst hn
    by_cases hlt : n < pixels.length
    · simp [hlt]
    · simp [hlt]
  · simp [hn]

theorem length_splitChroma (uv : List UInt8) (u v count : Nat) (pixels : List UInt8) :
    (splitChroma uv u v count pixels).length = pixels.length := by
  induction count with
  | zero => rfl
  | succ count ih => rw [splitChroma, List.range_succ, List.foldl_append]; simpa [splitChroma] using ih

/-- Behind the loop the samples of U and of V are together, and nothing else has changed. -/
theorem splitChroma_getD {uv pixels : List UInt8} {u v count : Nat} (huv : u + count ≤ v) (hlength : v + count ≤ pixels.length)
    (j : Nat) : (splitChroma uv u v count pixels).getD j 0 =
      if u ≤ j ∧ j < u + count then uv.getD ((j - u) * 2) 0
      else if v ≤ j ∧ j < v + count then uv.getD ((j - v) * 2 + 1) 0 else pixels.getD j 0 := by
  induction count with
  | zero =>
      rw [if_neg (by omega), if_neg (by omega)]
      rfl
  | succ count ih =>
      have hih := ih (by omega) (by omega)
      have hlen := length_splitChroma uv u v count pixels
      rw [splitChroma, List.range_succ, List.foldl_append, List.foldl_cons, List.foldl_nil, ← splitChroma, getD_set, getD_set,
        List.length_set, hlen, hih]
      by_cases hv : v + count = j
      · subst hv
        rw [if_pos ⟨rfl, by omega⟩, if_neg (by omega), if_pos (by omega), Nat.add_sub_cancel_left]
      · rw [if_neg fun h => hv h.1]
        by_cases hu : u + count = j
        · subst hu
          rw [if_pos ⟨rfl, by omega⟩, if_pos (by omega), Nat.add_sub_cancel_left]
        · have hu' : (u ≤ j ∧ j < u + (count + 1)) ↔ u ≤ j ∧ j < u + count := by omega
          have hv' : (v ≤ j ∧ j < v + (count + 1)) ↔ v ≤ j ∧ j < v + count := by omega
          rw [if_neg fun h => hu h.1]
          simp only [hu', hv']

/-! ## The frames -/

/-- The planes of the surface `y` and `uv` as an I420 frame has them. -/
def surfaceImages (y uv : Raster UInt8) : Fin 3 → Raster UInt8 := ![y, Raster.everyOther 0 uv, Raster.everyOther 1 uv]

section

variable {frame : DecodedFrame} {ptsNs : Int} {y uv : Raster UInt8} {calls : List ReadbackCall}

theorem surfaceImages_fills (hsize : allocatable ⟨y.width, y.height⟩ = true) (hw : uv.width = y.width)
    (hh : uv.height = y.height / 2) (i : Fin 3) : Fills ⟨y.width, y.height⟩ i (surfaceImages y uv i) := by
  obtain ⟨⟨-, hwidth⟩, ⟨-, hheight⟩, -⟩ := allocatable_iff.mp hsize
  have hcols := subsampled_half hwidth
  have hrows := subsampled_half hheight
  match i with
  | 0 => exact ⟨rfl, rfl⟩
  | 1 => exact ⟨(congrArg (· / 2) hw).trans hcols.1.symm, hh.trans hrows.1.symm⟩
  | 2 => exact ⟨(congrArg (· / 2) hw).trans hcols.2.symm, hh.trans hrows.2.symm⟩

/-- A frame without gaps shows the surface whose samples are in its bytes. -/
theorem shows_surface (y uv : Raster UInt8) (hsize : allocatable ⟨y.width, y.height⟩ = true) (hw : uv.width = y.width) (hh : uv.height = y.height / 2)
    (hwidth : frame.width = y.width) (hheight : frame.height = y.height) (hpts : frame.ptsNs = ptsNs)
    (hoffsets : frame.offsets = ![0, y.width * y.height, y.width * y.height + y.width * y.height / 4])
    (hstrides : frame.strides = ![asInt32 y.width, asInt32 (y.width / 2), asInt32 (y.width / 2)])
    (hlength : frame.pixels.length = y.width * y.height + y.width * y.height / 4 * 2)
    (hluma : ∀ row < y.height, ∀ column < y.width, frame.pixels.getD (row * y.width + column) 0 = y.pixel row column)
    (hchroma : ∀ row < y.height / 2, ∀ column < y.width / 2,
      frame.pixels.getD (y.width * y.height + (row * (y.width / 2) + column)) 0 = uv.pixel row (2 * column) ∧
        frame.pixels.getD (y.width * y.height + y.width * y.height / 4 + (row * (y.width / 2) + column)) 0 =
          uv.pixel row (2 * column + 1)) :
    Shows frame ⟨y.width, y.height⟩ ptsNs (surfaceImages y uv) := by
  obtain ⟨⟨-, hw'⟩, ⟨-, hh'⟩, hlt, -⟩ := allocatable_iff.mp hsize
  change y.width % 2 = 0 at hw'
  change y.width < 2 ^ 31 at hlt
  have hcols := subsampled_half hw'
  have hsquare : subsampled 1 y.width * subsampled 1 y.height = y.width * y.height / 4 := by
    rw [(subsampled_half hw').1, (subsampled_half hh').1, chroma_size hw' hh', Nat.mul_comm]
  have hstride (i : Fin 3) : frame.strides i = subsampled i y.width := by
    rw [hstrides]
    fin_cases i
    · exact asInt32_of_lt hlt
    · exact (asInt32_of_lt (by omega)).trans (congrArg Nat.cast hcols.1.symm)
    · exact (asInt32_of_lt (by omega)).trans (congrArg Nat.cast hcols.2.symm)
  have htight : Tight frame ⟨y.width, y.height⟩ := {
    size_eq := by rw [DecodedFrame.size, hwidth, hheight]
    allocatable := hsize
    stride := hstride
    offset₀ := by rw [hoffsets]; rfl
    offset₁ := by rw [hoffsets]; rfl
    offset₂ := by rw [hoffsets, hsquare]; rfl
    length := by rw [hsquare, hlength, Nat.mul_comm 2] }
  have hfills := surfaceImages_fills hsize hw hh
  refine ⟨htight, hpts, fun i => ⟨(htight.raster_fills i).1.trans (hfills i).1.symm,
    (htight.raster_fills i).2.trans (hfills i).2.symm, fun row hr column hc => ?_⟩⟩
  rw [(htight.raster_fills i).2] at hr
  rw [(htight.raster_fills i).1] at hc
  simp only [DecodedFrame.raster, DecodedFrame.byte, htight.stride_toNat, hoffsets]
  fin_cases i
  · refine Eq.trans ?_ (hluma row hr column hc)
    exact congrArg (frame.pixels.getD · 0) (Nat.zero_add _)
  · change row < subsampled 1 y.height at hr
    change column < subsampled 1 y.width at hc
    change frame.pixels.getD (_ + (row * subsampled 1 y.width + column)) 0 = _
    simp only [hcols.1, (subsampled_half hh').1] at hr hc ⊢
    exact (hchroma row hr column hc).1
  · change row < subsampled 2 y.height at hr
    change column < subsampled 2 y.width at hc
    change frame.pixels.getD (_ + (row * subsampled 2 y.width + column)) 0 = _
    simp only [hcols.2, (subsampled_half hh').2] at hr hc ⊢
    exact (hchroma row hr column hc).2

/-- A raster that fills a buffer without gaps. -/
theorem writeTo_tight {buffer : List UInt8} (image : Raster UInt8) {row column : Nat} (hr : row < image.height)
    (hc : column < image.width) (hlength : image.height * image.width ≤ buffer.length) :
    (Raster.writeTo buffer 0 image.width image).getD (row * image.width + column) 0 = image.pixel row column := by
  have hlt := pixel_lt hr hc
  have hinside : 0 + row * image.width + column < buffer.length := by omega
  have h := Raster.writeTo_inside 0 hr hc (Nat.le_refl _) hinside
  rwa [Nat.zero_add] at h

theorem nvdec_shows {device : Nat → UInt8} {devicePointer pitch width height : Nat} {answers : ReadbackAnswers}
    (hsize : allocatable ⟨width, height⟩ = true)
    (h : consumeNvdecCpuFrame device devicePointer pitch width height ptsNs answers = (.ok, some frame, calls)) :
    Shows frame ⟨width, height⟩ ptsNs (surfaceImages (deviceImage device devicePointer pitch width height)
      (deviceImage device (chromaPointer devicePointer pitch height) pitch width (height / 2))) := by
  obtain ⟨⟨-, hw⟩, ⟨-, hh⟩, -⟩ := allocatable_iff.mp hsize
  change width % 2 = 0 at hw
  change height % 2 = 0 at hh
  have hchroma : height / 2 * (width / 2) = width * height / 4 := (chroma_size hw hh).symm
  have hrows : height / 2 * width = width * height / 2 := by
    rw [Nat.mul_comm, Nat.mul_div_assoc _ (Nat.dvd_of_mod_eq_zero hh)]
  unfold consumeNvdecCpuFrame at h
  dsimp only at h
  split at h
  · simp at h
  simp only [Prod.mk.injEq, Option.some.injEq, true_and] at h
  obtain ⟨rfl, -⟩ := h
  have hlength : (Raster.writeTo (List.replicate (width * height + width * height / 4 * 2) 0) 0 width
      (deviceImage device devicePointer pitch width height)).length = width * height + width * height / 4 * 2 := by
    rw [Raster.length_writeTo, List.length_replicate]
  refine shows_surface (deviceImage device devicePointer pitch width height) (deviceImage device _ pitch width (height / 2)) hsize
    rfl rfl rfl rfl rfl rfl rfl ?_ (fun row hr column hc => ?_) fun row hr column hc => ?_
  · exact (length_splitChroma _ _ _ _ _).trans hlength
  · change row < height at hr
    change column < width at hc
    have hlt := pixel_lt hr hc
    have hcomm := Nat.mul_comm height width
    change (splitChroma _ (width * height) _ _ _).getD (row * width + column) 0 = _
    rw [splitChroma_getD (Nat.le_refl _) (by omega), if_neg (by omega), if_neg (by omega)]
    have hroom : height * width ≤ (List.replicate (width * height + width * height / 4 * 2) (0 : UInt8)).length := by
      rw [List.length_replicate]
      omega
    exact writeTo_tight (deviceImage device devicePointer pitch width height) hr hc hroom
  · change row < height / 2 at hr
    change column < width / 2 at hc
    have hlt := pixel_lt hr hc
    change (splitChroma _ (width * height) _ _ _).getD (width * height + (row * (width / 2) + column)) 0 = _ ∧
      (splitChroma _ (width * height) (width * height + width * height / 4) _ _).getD
        (width * height + width * height / 4 + (row * (width / 2) + column)) 0 = _
    rw [splitChroma_getD (Nat.le_refl _) (by omega), splitChroma_getD (Nat.le_refl _) (by omega), if_pos (by omega),
      if_neg (by omega), if_pos (by omega), Nat.add_sub_cancel_left, Nat.add_sub_cancel_left]
    have hindex : (row * (width / 2) + column) * 2 = row * width + 2 * column := by
      rw [Nat.add_mul, Nat.mul_assoc, Nat.div_mul_cancel (Nat.dvd_of_mod_eq_zero hw), Nat.mul_comm column]
    have hroom : height / 2 * width ≤ (List.replicate (width * height / 2) (0 : UInt8)).length := by
      rw [List.length_replicate, hrows]
    rw [hindex, Nat.add_assoc]
    have heven : 2 * column < width := by omega
    have hodd : 2 * column + 1 < width := by omega
    exact ⟨writeTo_tight (deviceImage device _ pitch width (height / 2)) hr heven hroom,
      writeTo_tight (deviceImage device _ pitch width (height / 2)) hr hodd hroom⟩

/-- Three pieces at the front of a buffer. -/
theorem patch_getD (buffer y u v : List UInt8) {k : Nat} :
    (k < y.length → (patch buffer 0 (y ++ u ++ v)).getD k 0 = y.getD k 0) ∧
      (k < u.length → (patch buffer 0 (y ++ u ++ v)).getD (y.length + k) 0 = u.getD k 0) ∧
      (k < v.length → (patch buffer 0 (y ++ u ++ v)).getD (y.length + u.length + k) 0 = v.getD k 0) := by
  simp only [patch, List.take_zero, List.nil_append, List.append_assoc]
  refine ⟨fun hk => List.getD_append _ _ _ _ hk, fun hk => ?_, fun hk => ?_⟩
  · rw [List.getD_append_right _ _ _ _ (by omega), Nat.add_sub_cancel_left, List.getD_append _ _ _ _ hk]
  · rw [Nat.add_assoc, List.getD_append_right _ _ _ _ (by omega), Nat.add_sub_cancel_left,
      List.getD_append_right _ _ _ _ (by omega), Nat.add_sub_cancel_left, List.getD_append _ _ _ _ hk]

theorem vpl_size {libyuv : Libyuv} {surface : VplImage} {mapped unmapped : Bool}
    (h : copyVplSurfaceToI420 libyuv (some surface) mapped unmapped = (.ok, some frame, calls)) :
    allocatable ⟨surface.cropW, surface.cropH⟩ = true := by
  unfold copyVplSurfaceToI420 at h
  dsimp only at h
  split at h
  · simp at h
  split at h
  · simp at h
  rename_i hformat
  simp only [Bool.or_eq_true, decide_eq_true_eq, not_or] at hformat
  exact allocatable_iff.mpr (by simp only; omega)

theorem vpl_shows {libyuv : Libyuv} (hlib : libyuv.Planar) {surface : VplImage} {mapped unmapped : Bool}
    (h : copyVplSurfaceToI420 libyuv (some surface) mapped unmapped = (.ok, some frame, calls)) :
    Shows frame ⟨surface.cropW, surface.cropH⟩ (asInt64 surface.timeStamp) (surfaceImages surface.luma surface.chroma) := by
  have hsize := vpl_size h
  obtain ⟨⟨-, hw⟩, ⟨-, hh⟩, -⟩ := allocatable_iff.mp hsize
  change surface.cropW % 2 = 0 at hw
  change surface.cropH % 2 = 0 at hh
  have hchroma := chroma_size hw hh
  have hsplits := hlib.splits surface.luma surface.chroma hsize rfl rfl
  change libyuv.nv12ToI420 surface.cropW surface.cropH _ _ = _ at hsplits
  unfold copyVplSurfaceToI420 at h
  dsimp only at h
  split at h
  · simp at h
  split at h
  · simp at h
  simp only [hsplits, ne_eq, not_true_eq_false, if_false] at h
  split at h
  · simp at h
  simp only [Prod.mk.injEq, Option.some.injEq, true_and] at h
  obtain ⟨rfl, -⟩ := h
  have hy : surface.luma.bytes.length = surface.cropW * surface.cropH := luma_length _
  have hu (first : Nat) : (Raster.everyOther first surface.chroma).bytes.length = surface.cropW * surface.cropH / 4 :=
    (Raster.length_bytes _).trans hchroma.symm
  refine shows_surface surface.luma surface.chroma hsize rfl rfl rfl rfl rfl ?_ rfl ?_ (fun row hr column hc => ?_)
    fun row hr column hc => ?_
  · change ![0, surface.cropW * surface.cropH, surface.cropW * surface.cropH + surface.cropW / 2 * (surface.cropH / 2)] =
      ![0, surface.cropW * surface.cropH, surface.cropW * surface.cropH + surface.cropW * surface.cropH / 4]
    rw [hchroma, Nat.mul_comm (surface.cropH / 2)]
  · change (patch _ _ _).length = surface.cropW * surface.cropH + surface.cropW * surface.cropH / 4 * 2
    simp only [patch, List.length_append, List.length_take, List.length_drop, List.length_replicate, hy, hu]
    rw [hchroma, Nat.mul_comm (surface.cropH / 2)]
    omega
  · change row < surface.cropH at hr
    change column < surface.cropW at hc
    have hlt := pixel_lt hr hc
    have hlength : row * surface.cropW + column < surface.luma.bytes.length := by
      rw [hy, Nat.mul_comm surface.cropW]
      exact hlt
    refine ((patch_getD _ _ _ _).1 hlength).trans ?_
    exact RowMajor.store_getD surface.luma.pixel 0 hr hc
  · change row < surface.cropH / 2 at hr
    change column < surface.cropW / 2 at hc
    have hlt := pixel_lt hr hc
    obtain ⟨-, hfirst, hsecond⟩ := patch_getD
      (List.replicate (surface.cropW * surface.cropH + 2 * (surface.cropW / 2 * (surface.cropH / 2))) 0) surface.luma.bytes
      (Raster.everyOther 0 surface.chroma).bytes (Raster.everyOther 1 surface.chroma).bytes
      (k := row * (surface.cropW / 2) + column)
    simp only [hy, hu] at hfirst hsecond
    exact ⟨(hfirst (by omega)).trans (RowMajor.store_getD (Raster.everyOther 0 surface.chroma).pixel 0 hr hc),
      (hsecond (by omega)).trans (RowMajor.store_getD (Raster.everyOther 1 surface.chroma).pixel 0 hr hc)⟩

/-- A frame that was read back from a surface with the planes `y` and `uv`. -/
inductive ReadBack (libyuv : Libyuv) : Raster UInt8 → Raster UInt8 → Int → DecodedFrame → Prop
  | nvdec {sequences size device devicePointer pitch ptsNs answers frame calls}
      (hdecoder : configured sequences = some size)
      (h : consumeNvdecCpuFrame device devicePointer pitch size.width size.height ptsNs answers = (.ok, some frame, calls)) :
      ReadBack libyuv (deviceImage device devicePointer pitch size.width size.height)
        (deviceImage device (chromaPointer devicePointer pitch size.height) pitch size.width (size.height / 2)) ptsNs frame
  | vpl {surface mapped unmapped frame calls}
      (h : copyVplSurfaceToI420 libyuv (some surface) mapped unmapped = (.ok, some frame, calls)) :
      ReadBack libyuv surface.luma surface.chroma (asInt64 surface.timeStamp) frame

variable {libyuv : Libyuv}

/-- Both vendors make the same frame of the same surface. -/
theorem ReadBack.shows (h : ReadBack libyuv y uv ptsNs frame) (hlib : libyuv.Planar) :
    allocatable ⟨y.width, y.height⟩ = true ∧ uv.width = y.width ∧ uv.height = y.height / 2 ∧
      Shows frame ⟨y.width, y.height⟩ ptsNs (surfaceImages y uv) := by
  cases h with
  | nvdec hdecoder h =>
      have hsize := configured_allocatable hdecoder
      exact ⟨hsize, rfl, rfl, nvdec_shows hsize h⟩
  | vpl h => exact ⟨vpl_size h, rfl, rfl, vpl_shows hlib h⟩

/-- The bytes of the frame are those of the surface. -/
theorem ReadBack.bytes (h : ReadBack libyuv y uv ptsNs frame) (hlib : libyuv.Planar) :
    DecodedFrame.i420Bytes frame = y.bytes ++ (Raster.everyOther 0 uv).bytes ++ (Raster.everyOther 1 uv).bytes ∧
      DecodedFrame.nv12Bytes frame = y.bytes ++ uv.bytes := by
  obtain ⟨hsize, hw, hh, hshows⟩ := h.shows hlib
  obtain ⟨⟨-, hwidth⟩, -⟩ := allocatable_iff.mp hsize
  have hy : Raster.Agree (DecodedFrame.raster frame 0) y := hshows.raster 0
  have hu : Raster.Agree (DecodedFrame.raster frame 1) (Raster.everyOther 0 uv) := hshows.raster 1
  have hv : Raster.Agree (DecodedFrame.raster frame 2) (Raster.everyOther 1 uv) := hshows.raster 2
  have hchroma : Raster.Agree (DecodedFrame.chroma frame) uv := by
    refine ((hu.weave hv rfl rfl).trans (Raster.weave_everyOther uv)).trans ⟨?_, rfl, fun _ _ _ _ => rfl⟩
    change 2 * (uv.width / 2) = uv.width
    rw [hw]
    exact Nat.mul_div_cancel' (Nat.dvd_of_mod_eq_zero hwidth)
  rw [DecodedFrame.i420Bytes, DecodedFrame.nv12Bytes, hy.bytes, hu.bytes, hv.bytes, hchroma.bytes]
  exact ⟨rfl, rfl⟩

/-- A frame that is read back shows the surface. Copied out in either planar format and given to an encoder it arrives with
the bytes of the surface, whichever vendor has decoded it. -/
theorem hardware_frame_keeps_surface (libyuv : Libyuv) (y uv : Raster UInt8) (ptsNs : Int) (frame : DecodedFrame)
    (destination : MutableFrameView) (images : List (Fin 3 × Int × Raster UInt8)) (memory : Int → UInt8)
    (hlib : libyuv.Planar) (h : ReadBack libyuv y uv ptsNs frame) (hready : destination.Ready frame images) :
    Shows frame ⟨y.width, y.height⟩ ptsNs (surfaceImages y uv) ∧
      ∃ copy memory', copyPlanarFrame frame destination memory = some (.ok, copy, memory') ∧ copy.pts = ptsNs ∧
        ∀ (i420 nv12 : List UInt8) (codec backend : String), frameSize y.width y.height ≤ i420.length →
          frameSize y.width y.height ≤ nv12.length →
            cpuFrameToI420 libyuv (copy.frameView memory') y.width y.height i420 codec =
                (.ok, patch i420 0 (y.bytes ++ (Raster.everyOther 0 uv).bytes ++ (Raster.everyOther 1 uv).bytes)) ∧
              cpuFrameToNv12 libyuv (copy.frameView memory') y.width y.height i420 nv12 backend =
                (.ok, i420, patch nv12 0 (y.bytes ++ uv.bytes)) := by
  obtain ⟨hsize, -, -, hshows⟩ := h.shows hlib
  obtain ⟨hi420Bytes, hnv12Bytes⟩ := h.bytes hlib
  have hframe : allocatable (DecodedFrame.size frame) = true := by rwa [hshows.tight.size_eq]
  have hcopy : MutableFrameView.Ready { destination with pts := frame.ptsNs } frame images := { hready with }
  refine ⟨hshows, _, _, copyPlanarFrame_ready hready hframe memory, hshows.ptsNs, fun i420 nv12 codec backend hi420 hnv12 => ?_⟩
  have hwidth : frame.width = y.width := hshows.tight.width_eq
  have hheight : frame.height = y.height := hshows.tight.height_eq
  rw [← hwidth, ← hheight] at hi420 hnv12
  rw [← hi420Bytes, ← hnv12Bytes, ← hwidth, ← hheight]
  exact Ready.conversions hcopy hlib hframe memory hi420 hnv12 codec backend

/-- A surface with rows of eight bytes, of which a part is visible that begins in the third column of the third row. -/
def croppedSurface : VplImage where
  nv12 := true
  cropX := 2
  cropY := 2
  cropW := 2
  cropH := 2
  pitchHigh := 0
  pitchLow := 8
  timeStamp := 40
  y offset := (List.replicate 18 (9 : UInt8) ++ [1, 2, 9, 9, 9, 9, 9, 9, 3, 4]).getD offset.toNat 9
  uv offset := (List.replicate 10 (9 : UInt8) ++ [5, 6]).getD offset.toNat 9

theorem croppedSurface_read : ReadBack exactLibyuv croppedSurface.luma croppedSurface.chroma 40 smallFrame := by
  have hpixels : patch (List.replicate 6 0) 0 [1, 2, 3, 4, 5, 6] = ([1, 2, 3, 4, 5, 6] : List UInt8) := by decide
  have hconversion : exactLibyuv.nv12ToI420 croppedSurface.cropW croppedSurface.cropH croppedSurface.luma.bytes
      croppedSurface.chroma.bytes = (0, [1, 2, 3, 4, 5, 6]) := by decide
  have h : copyVplSurfaceToI420 exactLibyuv (some croppedSurface) true true = (.ok, some smallFrame, [.map, .unmap]) := by
    simp only [copyVplSurfaceToI420, hconversion]
    rw [if_neg (by decide), if_neg (by decide), if_neg (by decide), if_neg (by decide)]
    exact congrArg (fun pixels => (Status.ok, some { smallFrame with pixels := pixels }, [ReadbackCall.map, ReadbackCall.unmap])) hpixels
  exact .vpl h

/-- A decoder for pictures of 2 x 2 pixels, and a picture of it in rows of four bytes from 16 on. -/
def smallSequence : NvdecSequence :=
  ⟨⟨true, 0, 0, 0, 0, 2, 2, 2, 2, 1⟩, some ⟨true, 2, 64, 2, 64, 64⟩, true, by decide, by decide⟩

def smallDevice (pointer : Nat) : UInt8 :=
  (List.replicate 16 (9 : UInt8) ++ [1, 2, 9, 9, 3, 4, 9, 9, 5, 6]).getD pointer 9

theorem smallDevice_read : ReadBack exactLibyuv (deviceImage smallDevice 16 4 2 2)
    (deviceImage smallDevice (chromaPointer 16 4 2) 4 2 1) 40 smallFrame := by
  have hdecoder : configured [smallSequence] = some ⟨2, 2⟩ := by decide
  have hpixels : splitChroma (Raster.writeTo (List.replicate 2 0) 0 2 (deviceImage smallDevice (chromaPointer 16 4 2) 4 2 1))
      4 5 1 (Raster.writeTo (List.replicate 6 0) 0 2 (deviceImage smallDevice 16 4 2 2)) = [1, 2, 3, 4, 5, 6] := by decide
  have h : consumeNvdecCpuFrame smallDevice 16 4 2 2 40 ⟨true, true, true⟩ =
      (.ok, some smallFrame, [.memcpy2d 16 4 2 2, .memcpy2d 24 4 2 1, .unmap]) :=
    congrArg (fun pixels => (Status.ok, some { smallFrame with pixels := pixels },
      [ReadbackCall.memcpy2d 16 4 2 2, .memcpy2d 24 4 2 1, .unmap])) hpixels
  exact .nvdec hdecoder h

/-- The same picture from either vendor. -/
theorem hardware_frame_keeps_surface_small :
    (Shows smallFrame ⟨2, 2⟩ 40 (surfaceImages croppedSurface.luma croppedSurface.chroma) ∧ ∃ copy memory',
      copyPlanarFrame smallFrame paddedDestination (fun _ => 9) = some (.ok, copy, memory') ∧ copy.pts = 40 ∧
        cpuFrameToNv12 exactLibyuv (copy.frameView memory') 2 2 (List.replicate 6 0) (List.replicate 6 0) "NVENC" =
          (.ok, List.replicate 6 0, [1, 2, 3, 4, 5, 6])) ∧
    Shows smallFrame ⟨2, 2⟩ 40 (surfaceImages (deviceImage smallDevice 16 4 2 2)
      (deviceImage smallDevice (chromaPointer 16 4 2) 4 2 1)) ∧ ∃ copy memory',
      copyPlanarFrame smallFrame paddedDestination (fun _ => 9) = some (.ok, copy, memory') ∧ copy.pts = 40 ∧
        cpuFrameToI420 exactLibyuv (copy.frameView memory') 2 2 (List.replicate 6 0) "VP9" = (.ok, [1, 2, 3, 4, 5, 6]) := by
  constructor
  · obtain ⟨hshows, copy, memory', hcopied, hpts, hconverts⟩ := hardware_frame_keeps_surface exactLibyuv croppedSurface.luma
      croppedSurface.chroma 40 smallFrame paddedDestination (nv12Images smallFrame) (fun _ => 9) exactLibyuv_planar
      croppedSurface_read paddedDestination_ready
    obtain ⟨-, hnv12⟩ := hconverts (List.replicate 6 0) (List.replicate 6 0) "VP9" "NVENC" (by decide) (by decide)
    have hbytes : patch (List.replicate 6 0) 0 (croppedSurface.luma.bytes ++ croppedSurface.chroma.bytes) = [1, 2, 3, 4, 5, 6] := by
      decide
    rw [hbytes] at hnv12
    exact ⟨hshows, copy, memory', hcopied, hpts, hnv12⟩
  · obtain ⟨hshows, copy, memory', hcopied, hpts, hconverts⟩ := hardware_frame_keeps_surface exactLibyuv
      (deviceImage smallDevice 16 4 2 2) (deviceImage smallDevice (chromaPointer 16 4 2) 4 2 1) 40 smallFrame
      paddedDestination (nv12Images smallFrame) (fun _ => 9) exactLibyuv_planar smallDevice_read paddedDestination_ready
    obtain ⟨hi420, -⟩ := hconverts (List.replicate 6 0) (List.replicate 6 0) "VP9" "NVENC" (by decide) (by decide)
    have hbytes : patch (List.replicate 6 0) 0 ((deviceImage smallDevice 16 4 2 2).bytes ++
        (Raster.everyOther 0 (deviceImage smallDevice (chromaPointer 16 4 2) 4 2 1)).bytes ++
          (Raster.everyOther 1 (deviceImage smallDevice (chromaPointer 16 4 2) 4 2 1)).bytes) = [1, 2, 3, 4, 5, 6] := by
      decide
    rw [hbytes] at hi420
    exact ⟨hshows, copy, memory', hcopied, hpts, hi420⟩

/-! ## Driver calls -/

/-- Whatever the driver answers, the picture is unmapped once and last, and a frame comes out when every call has succeeded. -/
theorem nvdec_calls (device : Nat → UInt8) (devicePointer pitch width height : Nat) (answers : ReadbackAnswers) :
    let readback := consumeNvdecCpuFrame device devicePointer pitch width height ptsNs answers
    readback.2.2.count .unmap = 1 ∧ readback.2.2.getLast? = some .unmap ∧
      (readback.2.1.isSome = true ↔ answers.luma = true ∧ answers.chroma = true ∧ answers.unmapped = true) ∧
      (readback.2.1.isSome = true ↔ readback.1.result = .ok) := by
  obtain ⟨luma, chroma, unmapped⟩ := answers
  cases luma <;> cases chroma <;> cases unmapped <;> simp [consumeNvdecCpuFrame, Status.ok]

/-- A surface that was mapped is unmapped once and last. -/
theorem vpl_calls (surface : Option VplImage) (mapped unmapped : Bool) :
    let readback := copyVplSurfaceToI420 libyuv surface mapped unmapped
    readback.2.2.count .unmap = (if surface.isSome && mapped then 1 else 0) ∧
      (readback.2.1.isSome = true ↔ readback.1.result = .ok) := by
  cases surface with
  | none => simp [copyVplSurfaceToI420]
  | some surface =>
      cases mapped with
      | false => simp [copyVplSurfaceToI420]
      | true =>
          simp only [copyVplSurfaceToI420]
          split
          · simp_all
          split
          · simp
          split
          · simp
          split
          · simp
          · simp [Status.ok]

end

end Gpu

end MkvCodec
