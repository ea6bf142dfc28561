import MkvCodec.Backend.FrameReuse
import MkvCodec.Data.PlacedRasters
import MkvCodec.Frame.Lemmas.Tight

/-!
# Planar copies of decoded frames

The planar branches of `copy_frame_to` of `frame_conversion.cpp`, into the memory of a caller. What is copied out can be given to an
encoder, whose conversions then find the decoded planes in it.
-/

namespace MkvCodec

open Decoder (DecodedFrame)
open Raster (Placed)
open Backend

/-- `mkvc_mutable_frame_view`. A plane pointer is an address, a null pointer is `none`. -/
structure MutableFrameView where
  pixelFormat : PixelFormat
  width : Nat
  height : Nat
  planes : Fin 4 → Option Nat
  strides : Fin 4 → Int
  pts : Int

/-- The planes, with what is in the memory, as a frame to encode. -/
def MutableFrameView.frameView (view : MutableFrameView) (memory : Int → UInt8) : FrameView where
  pixelFormat := view.pixelFormat
  width := view.width
  height := view.height
  pts := view.pts
  planes i := (view.planes i).map fun address => ⟨address, fun offset => memory (address + offset)⟩
  strides := view.strides

/-! ## `copy_frame_to` -/

/-- The chroma plane of NV12. -/
def DecodedFrame.chroma (source : DecodedFrame) : Raster UInt8 :=
  Raster.weave (DecodedFrame.raster source 1) (DecodedFrame.raster source 2)

/-- The planes that `I420Copy` writes, each with the smallest stride that is taken for it. -/
def i420Images (source : DecodedFrame) : List (Fin 3 × Int × Raster UInt8) :=
  [(0, asInt32 source.width, DecodedFrame.raster source 0),
    (1, (asInt32 source.width).tdiv 2, DecodedFrame.raster source 1),
    (2, (asInt32 source.width).tdiv 2, DecodedFrame.raster source 2)]

/-- The planes that `I420ToNV12` writes. -/
def nv12Images (source : DecodedFrame) : List (Fin 3 × Int × Raster UInt8) :=
  [(0, asInt32 source.width, DecodedFrame.raster source 0), (1, asInt32 source.width, DecodedFrame.chroma source)]

/-- The check of the destination planes and strides. -/
def MutableFrameView.takes (view : MutableFrameView) (images : List (Fin 3 × Int × Raster UInt8)) : Bool :=
  images.all fun image => (view.planes image.1.castSucc).isSome && decide (image.2.1 ≤ view.strides image.1.castSucc)

/-- Where the planes of a view get their images. -/
def MutableFrameView.place (view : MutableFrameView) (images : List (Fin 3 × Int × Raster UInt8)) : List (Placed UInt8) :=
  images.map fun image => ⟨(view.planes image.1.castSucc).getD 0, view.strides image.1.castSucc, image.2.2⟩

/-- One planar branch. libyuv takes frames of positive width that are not empty. -/
def copyPlanar (name : String) (source : DecodedFrame) (destination : MutableFrameView)
    (images : List (Fin 3 × Int × Raster UInt8)) (memory : Int → UInt8) : Status × MutableFrameView × (Int → UInt8) :=
  if destination.takes images then
    if asInt32 source.width ≤ 0 ∨ source.height = 0 then
      (⟨.errorInternal, "libyuv failed to convert decoded frame"⟩, destination, memory)
    else (.ok, { destination with pts := source.ptsNs }, Placed.writeAll (destination.place images) memory)
  else (⟨.errorInvalidArgument, name ++ " destination planes or strides are invalid"⟩, destination, memory)

/-- `copy_frame_to` without its packed branch, which is `copyPackedFrame`. -/
def copyPlanarFrame (source : DecodedFrame) (destination : MutableFrameView) (memory : Int → UInt8) :
    Option (Status × MutableFrameView × (Int → UInt8)) :=
  if destination.width ≠ source.width ∨ destination.height ≠ source.height then
    some (⟨.errorInvalidArgument, "destination dimensions do not match decoded frame"⟩, destination, memory)
  else
    match destination.pixelFormat with
    | .i420 => some (copyPlanar "I420" source destination (i420Images source) memory)
    | .nv12 => some (copyPlanar "NV12" source destination (nv12Images source) memory)
    | .bgr24 | .rgb24 | .bgra32 => none
    | .p010 | .unknown _ => some (⟨.errorNotSupported, "unsupported destination pixel format"⟩, destination, memory)

/-! ## What libyuv does with chroma -/

/-- On frames of even size libyuv splits and joins the chroma planes exactly. -/
structure Backend.Libyuv.Planar (libyuv : Libyuv) : Prop where
  splits : ∀ y uv : Raster UInt8, allocatable ⟨y.width, y.height⟩ = true → uv.width = y.width → uv.height = y.height / 2 →
    libyuv.nv12ToI420 y.width y.height y.bytes uv.bytes =
      (0, y.bytes ++ (Raster.everyOther 0 uv).bytes ++ (Raster.everyOther 1 uv).bytes)
  joins : ∀ y u v : Raster UInt8, allocatable ⟨y.width, y.height⟩ = true → u.width = y.width / 2 → u.height = y.height / 2 →
    v.width = y.width / 2 → v.height = y.height / 2 →
      libyuv.i420ToNv12 y.width y.height y.bytes u.bytes v.bytes = (0, y.bytes ++ (Raster.weave u v).bytes)

/-- The planes of a decoded frame one behind the other, as encoders take them. -/
def DecodedFrame.i420Bytes (source : DecodedFrame) : List UInt8 :=
  (DecodedFrame.raster source 0).bytes ++ (DecodedFrame.raster source 1).bytes ++ (DecodedFrame.raster source 2).bytes

def DecodedFrame.nv12Bytes (source : DecodedFrame) : List UInt8 :=
  (DecodedFrame.raster source 0).bytes ++ (DecodedFrame.chroma source).bytes

/-! ## Copying out -/

/-- A destination for a copy in a planar format: its planes are there with strides that are taken, and lie apart. -/
structure MutableFrameView.Ready (destination : MutableFrameView) (source : DecodedFrame)
    (images : List (Fin 3 × Int × Raster UInt8)) : Prop where
  format : destination.pixelFormat = .i420 ∧ images = i420Images source ∨
    destination.pixelFormat = .nv12 ∧ images = nv12Images source
  width : destination.width = source.width
  height : destination.height = source.height
  takes : destination.takes images = true
  stride_lt : ∀ i, destination.strides i < 2 ^ 31
  apart : ∀ p ∈ destination.place images, ∀ q ∈ destination.place images, p ≠ q → p.Apart q

section

variable {source : DecodedFrame} {destination : MutableFrameView} {images : List (Fin 3 × Int × Raster UInt8)}
  {memory : Int → UInt8}

theorem subsampled_half {n : Nat} (hn : n % 2 = 0) : subsampled 1 n = n / 2 ∧ subsampled 2 n = n / 2 := by
  simp only [subsampled]
  constructor <;> · rw [if_neg (by decide)]; omega

/-- The smallest stride of a plane is the width of its image. -/
theorem Ready.least (h : destination.Ready source images) (hsize : allocatable (DecodedFrame.size source) = true) :
    ∀ image ∈ images, image.2.1 = image.2.2.width := by
  obtain ⟨⟨-, hwidth⟩, -, hlt, -⟩ := allocatable_iff.mp hsize
  change source.width % 2 = 0 at hwidth
  change source.width < 2 ^ 31 at hlt
  have hhalf := subsampled_half hwidth
  have hint : (asInt32 source.width).tdiv 2 = (source.width / 2 : Nat) := by
    rw [asInt32_of_lt hlt]
    exact Int.tdiv_eq_ediv_of_nonneg (Int.natCast_nonneg _)
  intro image himage
  rcases h.format with ⟨-, rfl⟩ | ⟨-, rfl⟩
  · simp only [i420Images, List.mem_cons, List.not_mem_nil, or_false] at himage
    rcases himage with rfl | rfl | rfl
    · exact asInt32_of_lt hlt
    · exact hint.trans (congrArg Nat.cast hhalf.1.symm)
    · exact hint.trans (congrArg Nat.cast hhalf.2.symm)
  · simp only [nv12Images, List.mem_cons, List.not_mem_nil, or_false] at himage
    rcases himage with rfl | rfl
    · exact asInt32_of_lt hlt
    · refine (asInt32_of_lt hlt).trans (congrArg Nat.cast ?_)
      simp only [DecodedFrame.chroma, Raster.weave, DecodedFrame.raster, hhalf.1]
      omega

theorem Ready.plane (h : destination.Ready source images) {image : Fin 3 × Int × Raster UInt8} (himage : image ∈ images) :
    ∃ address, destination.planes image.1.castSucc = some address ∧ image.2.1 ≤ destination.strides image.1.castSucc := by
  have htakes := List.all_eq_true.mp h.takes image himage
  rw [Bool.and_eq_true, decide_eq_true_eq, Option.isSome_iff_exists] at htakes
  obtain ⟨⟨address, haddress⟩, hstride⟩ := htakes
  exact ⟨address, haddress, hstride⟩

/-- Behind a copy every plane shows its image. -/
theorem Ready.visiblePlane (h : destination.Ready source images) (hsize : allocatable (DecodedFrame.size source) = true)
    {image : Fin 3 × Int × Raster UInt8} (himage : image ∈ images) :
    (destination.frameView (Placed.writeAll (destination.place images) memory)).visiblePlane image.1 image.2.2.width
      image.2.2.height = image.2.2.bytes := by
  obtain ⟨address, haddress, hstride⟩ := Ready.plane h himage
  have hplaced : (⟨address, destination.strides image.1.castSucc, image.2.2⟩ : Placed UInt8) ∈ destination.place images := by
    rw [MutableFrameView.place, List.mem_map]
    exact ⟨image, himage, by rw [haddress, Option.getD_some]⟩
  have hwide : ∀ q ∈ destination.place images, (q.image.width : Int) ≤ q.stride := by
    intro q hq
    obtain ⟨other, hother, rfl⟩ := List.mem_map.mp hq
    obtain ⟨-, -, hother'⟩ := Ready.plane h hother
    rwa [Ready.least h hsize other hother] at hother'
  simp only [FrameView.visiblePlane, MutableFrameView.frameView, haddress, Option.map_some, Plane.rows, Raster.bytes]
  apply RowMajor.store_congr
  intro row hr column hc
  have hpixel : Placed.writeAll (destination.place images) memory _ = image.2.2.pixel row column :=
    Placed.writeAll_at hplaced hwide h.apart hr hc
  have hpos : 0 ≤ destination.strides image.1.castSucc := by
    have := hwide _ hplaced
    simp only at this
    omega
  rw [← hpixel, Placed.rowAddress]
  congr 1
  push_cast [Int.toNat_of_nonneg hpos]
  omega

/-- What is copied out is a frame that every encoder of the size takes. -/
theorem Ready.valid (h : destination.Ready source images) (hsize : allocatable (DecodedFrame.size source) = true) :
    (destination.frameView memory).Valid := by
  obtain ⟨hwidth, hheight, hlt, -⟩ := allocatable_iff.mp hsize
  change source.width ≠ 0 ∧ source.width % 2 = 0 at hwidth
  change source.height ≠ 0 ∧ source.height % 2 = 0 at hheight
  have hplane : ∀ image ∈ images, ((destination.frameView memory).planes image.1.castSucc).isSome = true ∧
      (image.2.2.width : Int) ≤ destination.strides image.1.castSucc := by
    intro image himage
    obtain ⟨address, haddress, hstride⟩ := Ready.plane h himage
    rw [Ready.least h hsize image himage] at hstride
    exact ⟨by simp [MutableFrameView.frameView, haddress], hstride⟩
  have hhalf := subsampled_half hwidth.2
  have hw : (destination.frameView memory).width = source.width := h.width
  have hh : (destination.frameView memory).height = source.height := h.height
  have hs : (destination.frameView memory).strides = destination.strides := rfl
  refine ⟨?_, ?_, ?_, ?_, ?_⟩
  · rw [hw]; omega
  · rw [hh]; omega
  · rw [hw]; exact hwidth.2
  · rw [hh]; exact hheight.2
  · rcases h.format with ⟨hformat, rfl⟩ | ⟨hformat, rfl⟩
    · refine ⟨_, by rw [hw, hh]; exact congrArg (PixelFormat.planes · source.width source.height) hformat, ?_⟩
      simp only [i420Images, List.mem_cons, List.not_mem_nil, or_false, forall_eq_or_imp, forall_eq, DecodedFrame.raster,
        hhalf] at hplane ⊢
      obtain ⟨⟨hp0, hs0⟩, ⟨hp1, hs1⟩, hp2, hs2⟩ := hplane
      exact ⟨⟨hp0, hs0, h.stride_lt _⟩, ⟨hp1, hs1, h.stride_lt _⟩, hp2, hs2, h.stride_lt _⟩
    · refine ⟨_, by rw [hw, hh]; exact congrArg (PixelFormat.planes · source.width source.height) hformat, ?_⟩
      simp only [nv12Images, List.mem_cons, List.not_mem_nil, or_false, forall_eq_or_imp, forall_eq, DecodedFrame.raster,
        DecodedFrame.chroma, Raster.weave, hhalf] at hplane ⊢
      obtain ⟨⟨hp0, hs0⟩, hp1, hs1⟩ := hplane
      exact ⟨⟨hp0, hs0, h.stride_lt _⟩, hp1, by rw [hs]; omega, h.stride_lt _⟩

theorem copyPlanarFrame_ready (h : destination.Ready source images) (hsize : allocatable (DecodedFrame.size source) = true)
    (memory : Int → UInt8) : copyPlanarFrame source destination memory =
      some (.ok, { destination with pts := source.ptsNs }, Placed.writeAll (destination.place images) memory) := by
  obtain ⟨⟨hwidth, -⟩, ⟨hheight, -⟩, hlt, -⟩ := allocatable_iff.mp hsize
  change source.width < 2 ^ 31 at hlt
  have hsizes : ¬ (asInt32 source.width ≤ 0 ∨ source.height = 0) := by
    rw [asInt32_of_lt hlt]
    change source.width ≠ 0 at hwidth
    change source.height ≠ 0 at hheight
    omega
  rw [copyPlanarFrame, if_neg (by simp [h.width, h.height])]
  rcases h.format with ⟨hformat, rfl⟩ | ⟨hformat, rfl⟩
  · simp only [hformat, copyPlanar, h.takes, if_true, if_neg hsizes]
  · simp only [hformat, copyPlanar, h.takes, if_true, if_neg hsizes]

end

/-! ## Encoding what was copied out -/

/-- A piece behind another one. -/
theorem patch_patch (buffer a b : List UInt8) : patch (patch buffer 0 a) a.length b = patch buffer 0 (a ++ b) := by
  simp only [patch, List.take_zero, List.nil_append, Nat.zero_add, List.length_append, List.append_assoc]
  rw [List.take_left, List.drop_append, List.drop_drop]
  simp only [Nat.add_sub_cancel_left, List.drop_eq_nil_of_le (Nat.le_add_right _ _), List.nil_append]

theorem chroma_size {width height : Nat} (hwidth : width % 2 = 0) (hheight : height % 2 = 0) :
    width * height / 4 = height / 2 * (width / 2) := by
  obtain ⟨a, rfl⟩ : ∃ a, width = 2 * a := ⟨width / 2, by omega⟩
  obtain ⟨b, rfl⟩ : ∃ b, height = 2 * b := ⟨height / 2, by omega⟩
  rw [Nat.mul_div_cancel_left _ Nat.two_pos, Nat.mul_div_cancel_left _ Nat.two_pos]
  rw [Nat.mul_mul_mul_comm, Nat.mul_comm a b]
  exact Nat.mul_div_cancel_left _ (by omega)

/-- A plane passes the checks of the conversions and shows an image. -/
structure FrameView.Holds (frame : FrameView) (index : Fin 3) (image : Raster UInt8) : Prop where
  good : frame.badPlane index.castSucc image.width = false
  shown : frame.visiblePlane index image.width image.height = image.bytes

section

variable {frame : FrameView} {libyuv : Libyuv} {y u v uv : Raster UInt8} {i420 nv12 : List UInt8}

theorem luma_length (y : Raster UInt8) : y.bytes.length = y.width * y.height := (Raster.length_bytes y).trans (Nat.mul_comm _ _)

theorem stagingFits {size : Nat} (hi420 : size ≤ i420.length) (hnv12 : size ≤ nv12.length) :
    ¬ (decide (i420.length < size) || decide (nv12.length < size)) = true := by
  simp only [Bool.or_eq_true, decide_eq_true_eq]
  omega

/-- What both conversions make of an I420 frame. -/
theorem FrameView.i420_conversions (hlib : libyuv.Planar) (hformat : frame.pixelFormat = .i420)
    (hsize : allocatable ⟨y.width, y.height⟩ = true) (hy : frame.Holds 0 y) (hu : frame.Holds 1 u) (hv : frame.Holds 2 v)
    (huw : u.width = y.width / 2) (huh : u.height = y.height / 2) (hvw : v.width = y.width / 2) (hvh : v.height = y.height / 2)
    (hi420 : frameSize y.width y.height ≤ i420.length) (hnv12 : frameSize y.width y.height ≤ nv12.length)
    (codec backend : String) :
    cpuFrameToI420 libyuv frame y.width y.height i420 codec = (.ok, patch i420 0 (y.bytes ++ u.bytes ++ v.bytes)) ∧
      cpuFrameToNv12 libyuv frame y.width y.height i420 nv12 backend =
        (.ok, i420, patch nv12 0 (y.bytes ++ (Raster.weave u v).bytes)) := by
  obtain ⟨⟨-, hwidth⟩, ⟨-, hheight⟩, -⟩ := allocatable_iff.mp hsize
  obtain ⟨hgood₀, hbytes₀⟩ := hy
  obtain ⟨hgood₁, hbytes₁⟩ := hu
  obtain ⟨hgood₂, hbytes₂⟩ := hv
  have hlength : y.width * y.height + y.width * y.height / 4 = (y.bytes ++ u.bytes).length := by
    rw [List.length_append, luma_length, Raster.length_bytes, huw, huh, chroma_size hwidth hheight]
  rw [huw] at hgood₁ hbytes₁
  rw [hvw] at hgood₂ hbytes₂
  rw [huh] at hbytes₁
  rw [hvh] at hbytes₂
  change frame.badPlane 0 _ = false at hgood₀
  change frame.badPlane 1 _ = false at hgood₁
  change frame.badPlane 2 _ = false at hgood₂
  constructor
  · simp only [cpuFrameToI420, i420Conversion, hformat, if_neg (Nat.not_lt.mpr hi420), hgood₀, hgood₁, hgood₂, hbytes₀,
      hbytes₁, hbytes₂, Bool.or_self, Bool.false_eq_true, if_false]
    rw [hlength, ← luma_length, patch_patch, patch_patch]
  · simp only [cpuFrameToNv12, convertCpuFrameToNv12, nv12Conversion, hformat, if_neg (stagingFits hi420 hnv12), hgood₀, hgood₁,
      hgood₂, hbytes₀, hbytes₁, hbytes₂, Bool.or_self, Bool.false_eq_true, if_false,
      hlib.joins y u v hsize huw huh hvw hvh]
    rfl

/-- What both conversions make of an NV12 frame. -/
theorem FrameView.nv12_conversions (hlib : libyuv.Planar) (hformat : frame.pixelFormat = .nv12)
    (hsize : allocatable ⟨y.width, y.height⟩ = true) (hy : frame.Holds 0 y) (huv : frame.Holds 1 uv)
    (hw : uv.width = y.width) (hh : uv.height = y.height / 2)
    (hi420 : frameSize y.width y.height ≤ i420.length) (hnv12 : frameSize y.width y.height ≤ nv12.length)
    (codec backend : String) :
    cpuFrameToI420 libyuv frame y.width y.height i420 codec =
        (.ok, patch i420 0 (y.bytes ++ (Raster.everyOther 0 uv).bytes ++ (Raster.everyOther 1 uv).bytes)) ∧
      cpuFrameToNv12 libyuv frame y.width y.height i420 nv12 backend = (.ok, i420, patch nv12 0 (y.bytes ++ uv.bytes)) := by
  obtain ⟨hgood₀, hbytes₀⟩ := hy
  obtain ⟨hgood₁, hbytes₁⟩ := huv
  rw [hw] at hgood₁ hbytes₁
  rw [hh] at hbytes₁
  change frame.badPlane 0 _ = false at hgood₀
  change frame.badPlane 1 _ = false at hgood₁
  constructor
  · simp only [cpuFrameToI420, convertCpuFrameToI420, i420Conversion, hformat, if_neg (Nat.not_lt.mpr hi420), hgood₀, hgood₁,
      hbytes₀, hbytes₁, Bool.or_self, Bool.false_eq_true, if_false, hlib.splits y uv hsize hw hh]
    rfl
  · simp only [cpuFrameToNv12, nv12Conversion, hformat, if_neg (stagingFits hi420 hnv12), hgood₀, hgood₁,
      hbytes₀, hbytes₁, Bool.or_self, Bool.false_eq_true, if_false]
    rw [← luma_length, patch_patch]

end

section

variable {source : DecodedFrame} {destination : MutableFrameView} {images : List (Fin 3 × Int × Raster UInt8)}
  {memory : Int → UInt8} {libyuv : Libyuv}

theorem Ready.holds (h : destination.Ready source images) (hsize : allocatable (DecodedFrame.size source) = true)
    {index : Fin 3} {least : Int} {image : Raster UInt8} (himage : (index, least, image) ∈ images) (memory : Int → UInt8) :
    (destination.frameView (Placed.writeAll (destination.place images) memory)).Holds index image := by
  obtain ⟨address, haddress, hstride⟩ := Ready.plane h himage
  have hleast : least = image.width := Ready.least h hsize _ himage
  have hlt := h.stride_lt index.castSucc
  simp only [hleast] at haddress hstride
  refine ⟨(FrameView.badPlane_eq_false _ (by omega)).mpr ⟨?_, hstride⟩, Ready.visiblePlane h hsize himage⟩
  simp [MutableFrameView.frameView, haddress]

theorem raster_sizes (hsize : allocatable (DecodedFrame.size source) = true) :
    ((DecodedFrame.raster source 1).width = source.width / 2 ∧ (DecodedFrame.raster source 1).height = source.height / 2) ∧
      ((DecodedFrame.raster source 2).width = source.width / 2 ∧ (DecodedFrame.raster source 2).height = source.height / 2) ∧
      (DecodedFrame.chroma source).width = source.width ∧ (DecodedFrame.chroma source).height = source.height / 2 := by
  obtain ⟨⟨-, hwidth⟩, ⟨-, hheight⟩, -⟩ := allocatable_iff.mp hsize
  have hw := subsampled_half hwidth
  have hh := subsampled_half hheight
  refine ⟨⟨hw.1, hh.1⟩, ⟨hw.2, hh.2⟩, (congrArg (2 * ·) hw.1).trans ?_, hh.1⟩
  exact Nat.mul_div_cancel' (Nat.dvd_of_mod_eq_zero hwidth)

/-- The chroma planes that are split off again are the decoded ones. -/
theorem everyOther_chroma (hsize : allocatable (DecodedFrame.size source) = true) :
    Raster.everyOther 0 (DecodedFrame.chroma source) = DecodedFrame.raster source 1 ∧
      Raster.everyOther 1 (DecodedFrame.chroma source) = DecodedFrame.raster source 2 := by
  obtain ⟨⟨hw₁, hh₁⟩, ⟨hw₂, hh₂⟩, -⟩ := raster_sizes hsize
  refine ⟨Raster.everyOther_zero_weave _ _, (Raster.everyOther_one_weave _ _).trans ?_⟩
  rw [hw₁, hh₁, ← hw₂, ← hh₂]

/-- What both conversions make of a copy. -/
theorem Ready.conversions (h : destination.Ready source images) (hlib : libyuv.Planar)
    (hsize : allocatable (DecodedFrame.size source) = true) (memory : Int → UInt8) {i420 nv12 : List UInt8}
    (hi420 : frameSize source.width source.height ≤ i420.length) (hnv12 : frameSize source.width source.height ≤ nv12.length)
    (codec backend : String) :
    cpuFrameToI420 libyuv (destination.frameView (Placed.writeAll (destination.place images) memory)) source.width
        source.height i420 codec = (.ok, patch i420 0 (DecodedFrame.i420Bytes source)) ∧
      cpuFrameToNv12 libyuv (destination.frameView (Placed.writeAll (destination.place images) memory)) source.width
        source.height i420 nv12 backend = (.ok, i420, patch nv12 0 (DecodedFrame.nv12Bytes source)) := by
  obtain ⟨⟨hw₁, hh₁⟩, ⟨hw₂, hh₂⟩, hw, hh⟩ := raster_sizes hsize
  have hholds : ∀ image ∈ images,
      (destination.frameView (Placed.writeAll (destination.place images) memory)).Holds image.1 image.2.2 :=
    fun image himage => Ready.holds h hsize himage memory
  rcases h.format with ⟨hformat, rfl⟩ | ⟨hformat, rfl⟩
  · simp only [i420Images, List.mem_cons, List.not_mem_nil, or_false, forall_eq_or_imp, forall_eq] at hholds
    obtain ⟨hy, hu, hv⟩ := hholds
    exact FrameView.i420_conversions hlib hformat hsize hy hu hv hw₁ hh₁ hw₂ hh₂ hi420 hnv12 codec backend
  · simp only [nv12Images, List.mem_cons, List.not_mem_nil, or_false, forall_eq_or_imp, forall_eq] at hholds
    obtain ⟨hy, huv⟩ := hholds
    have hconverts := FrameView.nv12_conversions hlib hformat hsize hy huv hw hh hi420 hnv12 codec backend
    rwa [(everyOther_chroma hsize).1, (everyOther_chroma hsize).2] at hconverts

/-- A decoded frame that is copied out in a planar format is a frame that an encoder takes, and both conversions find the
decoded planes in it. Besides the planes nothing is written. -/
theorem copied_frame_converts (libyuv : Libyuv) (source : DecodedFrame) (destination : MutableFrameView)
    (images : List (Fin 3 × Int × Raster UInt8)) (memory : Int → UInt8) (hlib : libyuv.Planar)
    (hsize : allocatable (DecodedFrame.size source) = true) (hready : destination.Ready source images) :
    ∃ copy memory', copyPlanarFrame source destination memory = some (.ok, copy, memory') ∧
      (∀ a, (∀ p ∈ destination.place images, ¬ p.Covers a) → memory' a = memory a) ∧
      copy = { destination with pts := source.ptsNs } ∧ (copy.frameView memory').Valid ∧
      ∀ (i420 nv12 : List UInt8) (codec backend : String), frameSize source.width source.height ≤ i420.length →
        frameSize source.width source.height ≤ nv12.length →
          cpuFrameToI420 libyuv (copy.frameView memory') source.width source.height i420 codec =
              (.ok, patch i420 0 (DecodedFrame.i420Bytes source)) ∧
            cpuFrameToNv12 libyuv (copy.frameView memory') source.width source.height i420 nv12 backend =
              (.ok, i420, patch nv12 0 (DecodedFrame.nv12Bytes source)) := by
  have hcopy : MutableFrameView.Ready { destination with pts := source.ptsNs } source images := { hready with }
  exact ⟨_, _, copyPlanarFrame_ready hready hsize memory, fun a ha => Placed.writeAll_outside ha, rfl,
    Ready.valid hcopy hsize, fun i420 nv12 codec backend hi420 hnv12 =>
      Ready.conversions hcopy hlib hsize memory hi420 hnv12 codec backend⟩

end

/-- Chroma planes split and joined pixel by pixel, for frames of even size. -/
def exactLibyuv : Libyuv where
  nv12ToI420 width height y uv :=
    let chroma := Raster.ofList width (height / 2) uv 0
    (0, y ++ (Raster.everyOther 0 chroma).bytes ++ (Raster.everyOther 1 chroma).bytes)
  i420ToNv12 width height y u v :=
    let chroma := Raster.weave (Raster.ofList (width / 2) (height / 2) u 0) (Raster.ofList (width / 2) (height / 2) v 0)
    (0, y ++ chroma.bytes)
  rgb24ToI420 _ _ _ := (-1, [])
  rawToI420 _ _ _ := (-1, [])
  argbToI420 _ _ _ := (-1, [])

theorem exactLibyuv_planar : exactLibyuv.Planar where
  splits y uv _ hw hh := by
    have huv := Raster.ofList_bytes uv 0
    rw [hw, hh] at huv
    simp only [exactLibyuv, (huv.everyOther Nat.zero_lt_two).bytes, (huv.everyOther Nat.one_lt_two).bytes]
  joins y u v _ huw huh hvw hvh := by
    have hu := Raster.ofList_bytes u 0
    have hv := Raster.ofList_bytes v 0
    rw [huw, huh] at hu
    rw [hvw, hvh] at hv
    simp only [exactLibyuv, (hu.weave hv rfl rfl).bytes]

def smallFrame : DecodedFrame where
  width := 2
  height := 2
  ptsNs := 40
  pixels := [1, 2, 3, 4, 5, 6]
  offsets := ![0, 4, 5]
  strides := ![2, 1, 1]

/-- An NV12 destination with two bytes behind each row. -/
def paddedDestination : MutableFrameView where
  pixelFormat := .nv12
  width := 2
  height := 2
  planes := ![some 100, some 200, none, none]
  strides := ![4, 4, 0, 0]
  pts := 0

theorem paddedDestination_ready : paddedDestination.Ready smallFrame (nv12Images smallFrame) where
  format := .inr ⟨rfl, rfl⟩
  width := rfl
  height := rfl
  takes := rfl
  stride_lt := by decide
  apart := by
    simp only [MutableFrameView.place, nv12Images, List.map_cons, List.map_nil, List.mem_cons, List.not_mem_nil, or_false]
    rintro p (rfl | rfl) q (rfl | rfl) hne i hi j hj
    · exact absurd rfl hne
    · left
      change i < 2 at hi
      change (100 : Int) + i * 4 + 2 ≤ 200 + j * 4
      omega
    · right
      change j < 2 at hj
      change (100 : Int) + j * 4 + 2 ≤ 200 + i * 4
      omega
    · exact absurd rfl hne

theorem copied_frame_converts_small : ∃ copy memory',
    copyPlanarFrame smallFrame paddedDestination (fun _ => 9) = some (.ok, copy, memory') ∧ memory' 102 = 9 ∧
      (copy.frameView memory').Valid ∧
      cpuFrameToI420 exactLibyuv (copy.frameView memory') 2 2 (List.replicate 6 0) "VP9" = (.ok, [1, 2, 3, 4, 5, 6]) ∧
      cpuFrameToNv12 exactLibyuv (copy.frameView memory') 2 2 (List.replicate 6 0) (List.replicate 8 7) "NVENC" =
        (.ok, List.replicate 6 0, [1, 2, 3, 4, 5, 6, 7, 7]) := by
  obtain ⟨copy, memory', hcopied, houtside, -, hvalid, hconverts⟩ := copied_frame_converts exactLibyuv smallFrame
    paddedDestination (nv12Images smallFrame) (fun _ => 9) exactLibyuv_planar rfl paddedDestination_ready
  obtain ⟨hi420, hnv12⟩ := hconverts (List.replicate 6 0) (List.replicate 8 7) "VP9" "NVENC" (by decide) (by decide)
  refine ⟨copy, memory', hcopied, houtside 102 ?_, hvalid, hi420.trans rfl, hnv12.trans rfl⟩
  simp only [MutableFrameView.place, nv12Images, List.map_cons, List.map_nil, List.mem_cons, List.not_mem_nil, or_false]
  rintro p (rfl | rfl) ⟨row, -, hle, hlt⟩
  · change (100 : Int) + row * 4 ≤ 102 at hle
    change (102 : Int) < 100 + row * 4 + 2 at hlt
    omega
  · change (200 : Int) + row * 4 ≤ 102 at hle
    omega

end MkvCodec
