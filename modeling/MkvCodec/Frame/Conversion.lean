import MkvCodec.Data.Block
import MkvCodec.Decoder.Vp9

/-!
# Packed conversion of decoded frames

The packed branch of `copy_frame_to` of `frame_conversion.cpp`. Large frames are converted in stripes by the worker pool of
`cpu_conversion_workers.cpp`; offsets are `int`, and an `int` that overflows is `none`.
-/

namespace MkvCodec

/-- The values of an `int`. -/
def FitsInt (x : Int) : Prop := -2 ^ 31 ≤ x ∧ x < 2 ^ 31

instance (x : Int) : Decidable (FitsInt x) := inferInstanceAs (Decidable (_ ∧ _))

/-- The result of an `int` operation. -/
def int (x : Int) : Option Int := if FitsInt x then some x else none

/-- What libyuv makes of one row of pixels: the bytes of the row from those of its Y row and of its two chroma rows. -/
structure RowKernel (bytesPerPixel : Nat) where
  row (width : Nat) (y u v : Nat → UInt8) : List UInt8
  length_row (width : Nat) (y u v : Nat → UInt8) : (row width y u v).length = width * bytesPerPixel

/-- The converters of libyuv that a packed copy calls. Each goes row by row. -/
structure PackedConverters where
  i420ToRgb24 : RowKernel 3
  i420ToRaw : RowKernel 3
  i420ToArgb : RowKernel 4
  i420ToAbgr : RowKernel 4

/-- One row of `pack_four_to_three`. -/
def packFourToThree : List UInt8 → List UInt8
  | a :: b :: c :: _ :: rest => a :: b :: c :: packFourToThree rest
  | _ => []

theorem length_packFourToThree {width : Nat} {row : List UInt8} (h : row.length = width * 4) :
    (packFourToThree row).length = width * 3 := by
  induction width generalizing row with
  | zero =>
      rw [Nat.zero_mul, List.length_eq_zero_iff] at h
      simp [h, packFourToThree]
  | succ width ih =>
      match row, h with
      | [], h | [_], h | [_, _], h | [_, _, _], h =>
          simp only [List.length_cons, List.length_nil] at h
          omega
      | a :: b :: c :: d :: rest, h =>
          simp only [List.length_cons, packFourToThree] at h ⊢
          rw [ih (show rest.length = width * 4 by omega)]
          omega

def RowKernel.packed (kernel : RowKernel 4) : RowKernel 3 where
  row width y u v := packFourToThree (kernel.row width y u v)
  length_row width y u v := length_packFourToThree (kernel.length_row width y u v)

/-- The packed formats. -/
inductive PackedFormat
  | bgr24
  | rgb24
  | bgra32
  deriving DecidableEq, Repr

def PackedFormat.bytesPerPixel : PackedFormat → Nat
  | .bgra32 => 4
  | _ => 3

/-- The conversion of one row by `convert_i420_packed_stripe`; `highway` when the build has the packer. -/
def PackedConverters.kernel (libyuv : PackedConverters) (highway : Bool) :
    (format : PackedFormat) → RowKernel format.bytesPerPixel
  | .bgr24 => if highway then libyuv.i420ToArgb.packed else libyuv.i420ToRgb24
  | .rgb24 => if highway then libyuv.i420ToAbgr.packed else libyuv.i420ToRaw
  | .bgra32 => libyuv.i420ToArgb

/-- The stride of the four-channel scratch rows, where the packer is used. -/
def scratchStride (highway : Bool) (format : PackedFormat) (width : Nat) : Option Int :=
  if highway ∧ format ≠ .bgra32 then int (width * 4) else some 0

/-- The plane pointers of a conversion and the strides behind them. -/
structure PackedLayout where
  y : Int
  yStride : Int
  u : Int
  uStride : Int
  v : Int
  vStride : Int
  destination : Int
  destinationStride : Int

/-- A call of `convert_i420_packed_stripe`: the plane pointers of its first row, and how many rows. `row` is the row of the frame
that it begins at. -/
structure Stripe where
  row : Nat
  height : Nat
  y : Int
  u : Int
  v : Int
  destination : Int
  deriving DecidableEq, Repr

/-- The bytes that a converter writes for row `r` of a stripe. -/
def Stripe.rowBytes {bytesPerPixel : Nat} (kernel : RowKernel bytesPerPixel) (layout : PackedLayout) (width : Nat)
    (source : Int → UInt8) (s : Stripe) (r : Nat) : List UInt8 :=
  kernel.row width (fun c => source (s.y + r * layout.yStride + c)) (fun c => source (s.u + (r / 2 : Nat) * layout.uStride + c))
    (fun c => source (s.v + (r / 2 : Nat) * layout.vStride + c))

/-- `convert_i420_packed_stripe`, from the memory of the source to that of the destination. -/
def Stripe.convert {bytesPerPixel : Nat} (kernel : RowKernel bytesPerPixel) (layout : PackedLayout) (width : Nat)
    (source memory : Int → UInt8) (s : Stripe) : Int → UInt8 :=
  Block.writeAll (fun r : Nat => s.destination + r * layout.destinationStride) (s.rowBytes kernel layout width source)
    (List.range s.height) memory

/-- The whole frame as one stripe. -/
def PackedLayout.whole (layout : PackedLayout) (height : Nat) : Stripe :=
  ⟨0, height, layout.y, layout.u, layout.v, layout.destination⟩

/-- The stripe that is submitted for the rows from `row` on. -/
def PackedLayout.stripe (layout : PackedLayout) (row height : Nat) : Option Stripe := do
  let y ← int (row * layout.yStride)
  let u ← int ((row / 2 : Nat) * layout.uStride)
  let v ← int ((row / 2 : Nat) * layout.vStride)
  let destination ← int (row * layout.destinationStride)
  return ⟨row, height, layout.y + y, layout.u + u, layout.v + v, layout.destination + destination⟩

/-- `rows_per_worker`. -/
def rowsPerWorker (height workers : Nat) : Nat := ((height + workers - 1) / workers + 1) / 2 * 2

/-- The loop that submits stripes. It runs at most once for each row. -/
def submitted (layout : PackedLayout) (rows height : Nat) : Nat → Nat → Option (List Stripe)
  | 0, row => if row < height then none else some []
  | fuel + 1, row =>
      if row < height then do
        let s ← layout.stripe row (min rows (height - row))
        let _ ← int (row + rows)
        let rest ← submitted layout rows height fuel (row + rows)
        return s :: rest
      else some []

/-- `convert_i420_packed` behind the choice of the worker count: the stripes that are converted, the caller's own first. -/
def convertI420Packed (highway : Bool) (format : PackedFormat) (layout : PackedLayout) (width height workers : Nat) :
    Option (List Stripe) := do
  let _ ← scratchStride highway format width
  if workers = 1 then return [layout.whole height]
  else
    let _ ← int (height + workers)
    let rows := rowsPerWorker height workers
    let rest ← submitted layout rows height height rows
    return layout.whole (min rows height) :: rest

/-! ## The worker count -/

/-- The size of the worker pool, on a machine with that many hardware threads. -/
def conversionWorkers (hardwareThreads : Nat) : Nat := min 3 (max 1 hardwareThreads - 1)

def cpuConversionParallelism (requested hardwareThreads : Nat) : Nat :=
  if requested = 1 then 1
  else if requested = 0 then conversionWorkers hardwareThreads + 1
  else min requested (conversionWorkers hardwareThreads + 1)

/-- `worker_count`. -/
def workerCount (width height requested hardwareThreads : Nat) : Nat :=
  if 1280 * 720 ≤ width * height then cpuConversionParallelism requested hardwareThreads else 1

theorem workerCount_bounds (width height requested hardwareThreads : Nat) :
    1 ≤ workerCount width height requested hardwareThreads ∧ workerCount width height requested hardwareThreads ≤ 4 := by
  unfold workerCount cpuConversionParallelism conversionWorkers
  split
  · split
    · omega
    split <;> omega
  · omega

/-! ## The copy into a caller's frame -/

/-- The packed part of a `mkvc_mutable_frame_view`. -/
structure PackedView where
  width : Nat
  height : Nat
  format : PackedFormat
  pts : Int
  plane : Option Int
  stride : Int

/-- The layout of a copy; `pixels` is where the source has its bytes. -/
def DecodedFrame.packedLayout (source : Decoder.DecodedFrame) (pixels destination stride : Int) : PackedLayout where
  y := pixels + source.offsets 0
  yStride := source.strides 0
  u := pixels + source.offsets 1
  uStride := source.strides 1
  v := pixels + source.offsets 2
  vStride := source.strides 2
  destination := destination
  destinationStride := stride

/-- The packed branch of `copy_frame_to`: the report, and the stripes where it gets to the conversion. The results of
libyuv for the stripes come in as one, `result`. -/
def copyPackedFrame (highway : Bool) (source : Decoder.DecodedFrame) (pixels : Int) (destination : PackedView)
    (threads hardwareThreads : Nat) (result : Int) : Option (Status × PackedView × List Stripe) :=
  if destination.width ≠ source.width ∨ destination.height ≠ source.height then
    some (⟨.errorInvalidArgument, "destination dimensions do not match decoded frame"⟩, destination, [])
  else
    match destination.plane with
    | none => some (⟨.errorInvalidArgument, "packed destination pointer or stride is invalid"⟩, destination, [])
    | some plane => do
        let rowBytes ← int (source.width * destination.format.bytesPerPixel)
        if destination.stride < rowBytes then
          return (⟨.errorInvalidArgument, "packed destination pointer or stride is invalid"⟩, destination, [])
        else
          let layout := DecodedFrame.packedLayout source pixels plane destination.stride
          let stripes ← convertI420Packed highway destination.format layout source.width source.height
            (workerCount source.width source.height threads hardwareThreads)
          if result ≠ 0 then return (⟨.errorInternal, "libyuv failed to convert decoded frame"⟩, destination, stripes)
          else return (.ok, { destination with pts := source.ptsNs }, stripes)

end MkvCodec
