import MkvCodec.Data.RowMajor
import MkvCodec.Frame.View

/-!
# Frames owned by the encoder queue

`OwnedFrame` is a slot of the asynchronous queue. `own_frame` copies a view into it without the padding of
the source rows. Slots are reused, so planes that the new format does not use keep their old bytes.
-/

namespace MkvCodec

/-- `OwnedFrame`. `storage` is where the allocator put each plane. -/
structure OwnedFrame where
  pixelFormat : PixelFormat
  width : Nat
  height : Nat
  pts : Int
  planes : Fin 3 → List UInt8
  strides : Fin 3 → Int
  storage : Fin 3 → Nat

/-- The value of a new `OwnedFrame`. -/
def OwnedFrame.empty : OwnedFrame :=
  { pixelFormat := .unknown 0, width := 0, height := 0, pts := -1, planes := fun _ => [],
    strides := fun _ => 0, storage := fun _ => 0 }

def OwnedFrame.viewPlane (frame : OwnedFrame) (index : Fin 3) : Option Plane :=
  if (frame.planes index).isEmpty then none
  else some ⟨frame.storage index, fun offset => (frame.planes index).getD offset 0⟩

def OwnedFrame.view (frame : OwnedFrame) : FrameView :=
  { pixelFormat := frame.pixelFormat, width := frame.width, height := frame.height, pts := frame.pts,
    planes := ![frame.viewPlane 0, frame.viewPlane 1, frame.viewPlane 2, none],
    strides := ![frame.strides 0, frame.strides 1, frame.strides 2, 0] }

/-- The bytes that `rows` rows of `rowBytes` bytes show at a plane pointer with a row stride. -/
def Plane.rows (plane : Plane) (stride : Int) (rowBytes rows : Nat) : List UInt8 :=
  RowMajor.store rows rowBytes fun row column => plane.bytes (row * stride.toNat + column)

/-- `copy_plane`; `none` when it returns false. -/
def copyPlane (source : FrameView) (index : Fin 3) (rowBytes rows : Nat) (destination : OwnedFrame) :
    Option OwnedFrame :=
  match source.planes index.castSucc with
  | none => none
  | some plane =>
      if source.strides index.castSucc < asInt32 rowBytes then none
      else some { destination with
        strides := Function.update destination.strides index (asInt32 rowBytes)
        planes := Function.update destination.planes index
          (plane.rows (source.strides index.castSucc) rowBytes rows) }

/-- The planes copied one after the other, up to the first that is invalid. -/
def copyPlanes (source : FrameView) : List (Fin 3 × Nat × Nat) → OwnedFrame → OwnedFrame × Bool
  | [], destination => (destination, true)
  | (index, rowBytes, rows) :: rest, destination =>
      match copyPlane source index rowBytes rows destination with
      | none => (destination, false)
      | some destination => copyPlanes source rest destination

/-- The planes of a format with the bytes of a row and the number of rows, as `own_frame` copies them. -/
def copiedPlanes (format : PixelFormat) (width height : Nat) : Option (List (Fin 3 × Nat × Nat)) :=
  match format with
  | .i420 => some [(0, width, height), (1, width / 2, height / 2), (2, width / 2, height / 2)]
  | .nv12 => some [(0, width, height), (1, width, height / 2)]
  | .bgr24 | .rgb24 => some [(0, u32 (width * 3), height)]
  | .bgra32 => some [(0, u32 (width * 4), height)]
  | .p010 | .unknown _ => none

def ownFrame (source : FrameView) (destination : OwnedFrame) : OwnedFrame × Status :=
  let destination := { destination with
    pixelFormat := source.pixelFormat, width := source.width, height := source.height, pts := source.pts }
  match copiedPlanes source.pixelFormat source.width source.height with
  | none => (destination, ⟨.errorNotSupported, "unsupported asynchronous input pixel format"⟩)
  | some planes =>
      match copyPlanes source planes destination with
      | (destination, false) =>
          (destination, ⟨.errorInvalidArgument, "asynchronous input has an invalid plane or stride"⟩)
      | (destination, true) => (destination, .ok)

/-! ## The picture in a view -/

/-- What an encoder can see of a frame: format, dimensions, requested time stamp, and the bytes of each plane
that the format uses, without row padding. -/
structure Picture where
  pixelFormat : PixelFormat
  width : Nat
  height : Nat
  pts : Int
  visible : List (List UInt8)

def FrameView.visiblePlane (frame : FrameView) (index : Fin 3) (rowBytes rows : Nat) : List UInt8 :=
  match frame.planes index.castSucc with
  | none => []
  | some plane => plane.rows (frame.strides index.castSucc) rowBytes rows

def FrameView.picture (frame : FrameView) : Picture :=
  { pixelFormat := frame.pixelFormat, width := frame.width, height := frame.height, pts := frame.pts,
    visible := ((copiedPlanes frame.pixelFormat frame.width frame.height).getD []).map
      fun (index, rowBytes, rows) => frame.visiblePlane index rowBytes rows }

end MkvCodec
