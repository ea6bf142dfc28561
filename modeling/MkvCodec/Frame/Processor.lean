import MkvCodec.Data.Raster
import MkvCodec.Data.Words
import MkvCodec.Decoder.Vp9
import MkvCodec.Gpu.Frame

/-!
# The frame processor

`process_frame_cpu` of `frame_processor.cpp` and the I420 operations of `frame_processor_i420.cpp`. Sizes and offsets are unsigned
words; the processing is written over the arithmetic `word`, so that what a machine computes and whether it leaves the words is
one definition. libyuv copies, turns and mirrors exactly; how it scales is a parameter.
-/

namespace MkvCodec

open Decoder (DecodedFrame)

/-- `mkvc_frame_fit`. -/
inductive FrameFit
  | stretch
  | contain
  | cover
  | unknown (code : Nat)
  deriving DecidableEq

/-- `mkvc_frame_rotation`. -/
inductive FrameRotation
  | rotate0
  | rotate90
  | rotate180
  | rotate270
  | unknown (code : Nat)
  deriving DecidableEq

/-- `mkvc_frame_process_config`. -/
structure FrameProcessConfig where
  backend : Gpu.Backend
  cropX : Nat
  cropY : Nat
  cropWidth : Nat
  cropHeight : Nat
  outputWidth : Nat
  outputHeight : Nat
  fit : FrameFit
  rotation : FrameRotation
  flipHorizontal : Bool
  flipVertical : Bool
  backgroundRgba : Nat

structure Size where
  width : Nat
  height : Nat
  deriving DecidableEq, Repr

/-! ## The planes of a frame -/

/-- A coordinate in plane `i`. -/
def halved (i : Fin 3) (n : Nat) : Nat := if i = 0 then n else n / 2

/-- A dimension of plane `i`, as libyuv rounds it. -/
def subsampled (i : Fin 3) (n : Nat) : Nat := if i = 0 then n else (n + 1) / 2

def DecodedFrame.size (frame : DecodedFrame) : Size := ⟨frame.width, frame.height⟩

/-- The byte at an offset from a plane pointer. -/
def DecodedFrame.byte (frame : DecodedFrame) (i : Fin 3) (offset : Nat) : UInt8 := frame.pixels.getD (frame.offsets i + offset) 0

def DecodedFrame.raster (frame : DecodedFrame) (i : Fin 3) : Raster UInt8 where
  width := subsampled i frame.width
  height := subsampled i frame.height
  pixel row column := DecodedFrame.byte frame i (row * (frame.strides i).toNat + column)

/-- `image` written behind a plane pointer. -/
def DecodedFrame.writePlane (frame : DecodedFrame) (i : Fin 3) (offset : Nat) (image : Raster UInt8) : DecodedFrame :=
  { frame with pixels := Raster.writeTo frame.pixels (frame.offsets i + offset) (frame.strides i).toNat image }

def DecodedFrame.writePlanes (frame : DecodedFrame) (offset : Fin 3 → Nat) (image : Fin 3 → Raster UInt8) : DecodedFrame :=
  let frame := DecodedFrame.writePlane frame 0 (offset 0) (image 0)
  let frame := DecodedFrame.writePlane frame 1 (offset 1) (image 1)
  DecodedFrame.writePlane frame 2 (offset 2) (image 2)

/-! ## `frame_processor_i420.cpp` -/

def evenNonzero (value : Nat) : Bool := decide (value ≠ 0) && decide (value % 2 = 0)

/-- The sizes that `allocate_i420` takes. -/
def allocatable (size : Size) : Bool :=
  evenNonzero size.width && evenNonzero size.height && decide (size.width < 2 ^ 31) && decide (size.height < 2 ^ 31)

def allocateI420 (size : Size) (ptsNs : Int) : Option DecodedFrame :=
  if allocatable size then
    let ySize := size.width * size.height
    let uvSize := size.width / 2 * (size.height / 2)
    some
      { width := size.width, height := size.height, ptsNs := ptsNs
        pixels := List.replicate (ySize + 2 * uvSize) 0
        offsets := ![0, ySize, ySize + uvSize]
        strides := ![size.width, (size.width / 2 : Nat), (size.width / 2 : Nat)] }
  else none

/-- A call of `I420Copy`: the frames, the positions that the rectangle should have in them, and what the size and the offsets from
the plane pointers come out as. -/
structure FrameCopy where
  source : DecodedFrame
  destination : DecodedFrame
  srcX : Nat
  srcY : Nat
  dstX : Nat
  dstY : Nat
  width : Nat
  height : Nat
  sourceOffset : Fin 3 → Nat
  destinationOffset : Fin 3 → Nat

section

variable {m : Type → Type} [Monad m] (word : Nat → Int → m Nat)

def evenFloor (value : Nat) : m Nat := word 32 (value / 2 * 2 : Nat)

/-- The offset of a position from each plane pointer. The product is one of `uint32_t`, the column is added to the pointer. -/
def planeOffsets (frame : DecodedFrame) (x y : Nat) : m (Fin 3 → Nat) := do
  let y0 ← word 32 (y * frame.strides 0)
  let y1 ← word 32 ((y / 2 : Nat) * frame.strides 1)
  let y2 ← word 32 ((y / 2 : Nat) * frame.strides 2)
  return ![y0 + x, y1 + x / 2, y2 + x / 2]

def frameCopy (source destination : DecodedFrame) (srcX srcY dstX dstY : Nat) : m FrameCopy := do
  let restX ← word 32 (source.width - srcX)
  let roomX ← word 32 (destination.width - dstX)
  let restY ← word 32 (source.height - srcY)
  let roomY ← word 32 (destination.height - dstY)
  let sourceOffset ← planeOffsets word source srcX srcY
  let destinationOffset ← planeOffsets word destination dstX dstY
  return { source, destination, srcX, srcY, dstX, dstY, sourceOffset, destinationOffset
           width := min restX roomX, height := min restY roomY }

/-- What libyuv reads from plane `i`. -/
def FrameCopy.image (copy : FrameCopy) (i : Fin 3) : Raster UInt8 where
  width := subsampled i copy.width
  height := subsampled i copy.height
  pixel row column :=
    DecodedFrame.byte copy.source i (copy.sourceOffset i + row * (copy.source.strides i).toNat + column)

/-- The destination after the copy; `none` when libyuv refuses the size. -/
def FrameCopy.copied (copy : FrameCopy) : Option DecodedFrame :=
  if asInt32 copy.width ≤ 0 ∨ copy.height = 0 then none
  else some (DecodedFrame.writePlanes copy.destination copy.destinationOffset copy.image)

/-- `crop_frame`, with the copy that it makes. -/
def cropFrame (source : DecodedFrame) (x y : Nat) (size : Size) : m (Option DecodedFrame × List FrameCopy) :=
  match allocateI420 size source.ptsNs with
  | none => return (none, [])
  | some result => do
      let copy ← frameCopy word source result x y 0 0
      return (copy.copied, [copy])

end

/-- The clockwise quarter turns of a rotation. -/
def FrameRotation.turns : FrameRotation → Nat
  | .rotate0 | .unknown _ => 0
  | .rotate90 => 1
  | .rotate180 => 2
  | .rotate270 => 3

def FrameRotation.swaps (rotation : FrameRotation) : Bool := rotation = .rotate90 || rotation = .rotate270

def rotateFrame (source : DecodedFrame) (rotation : FrameRotation) : Option DecodedFrame :=
  let size : Size := if rotation.swaps then ⟨source.height, source.width⟩ else ⟨source.width, source.height⟩
  (allocateI420 size source.ptsNs).map fun result =>
    DecodedFrame.writePlanes result (fun _ => 0) fun i => (DecodedFrame.raster source i).turn rotation.turns

def mirrorFrame (source : DecodedFrame) : Option DecodedFrame :=
  (allocateI420 (DecodedFrame.size source) source.ptsNs).map fun result =>
    DecodedFrame.writePlanes result (fun _ => 0) fun i => (DecodedFrame.raster source i).mirror

/-- `I420Scale`: from which sizes to which it scales, and the pixels that come out. -/
structure Scaler where
  accepts (source target : Size) : Bool
  pixel (source target : Size) (planes : Fin 3 → Raster UInt8) (i : Fin 3) (row column : Nat) : UInt8

def scaleFrame (libyuv : Scaler) (source : DecodedFrame) (size : Size) : Option DecodedFrame :=
  match allocateI420 size source.ptsNs with
  | none => none
  | some result =>
      if libyuv.accepts (DecodedFrame.size source) size then
        some (DecodedFrame.writePlanes result (fun _ => 0) fun i =>
          ⟨subsampled i size.width, subsampled i size.height,
            libyuv.pixel (DecodedFrame.size source) size (DecodedFrame.raster source) i⟩)
      else none

/-- A colour component of the background, from its weighted sum. -/
def component (sum offset : Int) : UInt8 := .ofNat (max 0 (min 255 ((sum + 128) / 256 + offset))).toNat

def fillBackground (frame : DecodedFrame) (rgba : Nat) : DecodedFrame :=
  let r : Int := (rgba / 2 ^ 24 % 256 : Nat)
  let g : Int := (rgba / 2 ^ 16 % 256 : Nat)
  let b : Int := (rgba / 2 ^ 8 % 256 : Nat)
  let y := component (66 * r + 129 * g + 25 * b) 16
  let u := component (-38 * r - 74 * g + 112 * b) 128
  let v := component (112 * r - 94 * g - 18 * b) 128
  DecodedFrame.writePlanes frame (fun _ => 0) fun i =>
    ⟨halved i frame.width, halved i frame.height, fun _ _ => ![y, u, v] i⟩

/-! ## `frame_processor.cpp` -/

/-- What a run leaves: its report and its output, the copies that it made, and the size to which it fitted the picture, with the
size of the output. -/
structure ProcessRun where
  status : Status
  output : Option DecodedFrame
  copies : List FrameCopy
  fitted : Option (Size × Size)

def ProcessRun.failed (result : Result) (error : String) (copies : List FrameCopy) (fitted : Option (Size × Size)) :
    ProcessRun := ⟨⟨result, error⟩, none, copies, fitted⟩

/-- The last check of the processing. -/
def ProcessRun.finished (output : Option DecodedFrame) (copies : List FrameCopy) (fitted : Option (Size × Size)) : ProcessRun :=
  match output with
  | none => .failed .errorInternal "frame resize/composition failed" copies fitted
  | some frame => ⟨.ok, some frame, copies, fitted⟩

/-- An operation of a plan that is left out unless it is asked for, with the error when it fails. -/
def stage (asked : Bool) (error : String) (operation : DecodedFrame → Option DecodedFrame) (current : DecodedFrame) :
    Except String DecodedFrame :=
  if asked then (operation current).elim (.error error) .ok else .ok current

/-- The rotation and the flips. A vertical flip is a half turn and a horizontal flip. -/
def turnFrame (config : FrameProcessConfig) (current : DecodedFrame) : Except String DecodedFrame := do
  let current ← stage (config.rotation ≠ .rotate0) "rotation failed" (rotateFrame · config.rotation) current
  let current ← stage config.flipHorizontal "horizontal flip failed" mirrorFrame current
  stage config.flipVertical "vertical flip failed" (fun frame => (rotateFrame frame .rotate180).bind mirrorFrame) current

section

variable {m : Type → Type} [Monad m] (word : Nat → Int → m Nat) (libyuv : Scaler)

/-- `scaled_width` and `scaled_height`. -/
def fitSize (contain : Bool) (current out : Size) : m Size := do
  let lhs ← word 64 (out.width * current.height)
  let rhs ← word 64 (out.height * current.width)
  if (contain ∧ lhs ≤ rhs) ∨ (¬ contain ∧ rhs ≤ lhs) then
    let product ← word 64 (current.height * out.width)
    let height ← evenFloor word (product / current.width)
    return ⟨max 2 out.width, max 2 height⟩
  else
    let product ← word 64 (current.width * out.height)
    let width ← evenFloor word (product / current.height)
    return ⟨max 2 width, max 2 out.height⟩

/-- Half of what one size exceeds the other by. -/
def centred (larger smaller : Nat) : m Nat := do
  let margin ← word 32 (larger - smaller)
  evenFloor word (margin / 2)

/-- The copy of the scaled picture into the output: a contained picture is put into the middle, of a covering one the middle is
taken. -/
def fitCopy (contain : Bool) (scaled output : DecodedFrame) (scaledSize out : Size) : m FrameCopy :=
  if contain then do
    let x ← centred word out.width scaledSize.width
    let y ← centred word out.height scaledSize.height
    frameCopy word scaled output 0 0 x y
  else do
    let x ← centred word scaledSize.width out.width
    let y ← centred word scaledSize.height out.height
    frameCopy word scaled output x y 0 0

/-- The resize that keeps the aspect ratio. -/
def fitFrame (contain : Bool) (backgroundRgba : Nat) (ptsNs : Int) (current : DecodedFrame) (out : Size)
    (copies : List FrameCopy) : m ProcessRun := do
  let scaledSize ← fitSize word contain (DecodedFrame.size current) out
  match scaleFrame libyuv current scaledSize with
  | none => return .failed .errorInternal "aspect-preserving resize failed" copies (some (scaledSize, out))
  | some scaled =>
      match allocateI420 out ptsNs with
      | none => return .failed .errorInternal "output allocation failed" copies (some (scaledSize, out))
      | some output => do
          let copy ← fitCopy word contain scaled (if contain then fillBackground output backgroundRgba else output) scaledSize out
          return .finished copy.copied (copies ++ [copy]) (some (scaledSize, out))

/-- The output size of a plan, for a picture of a size. -/
def FrameProcessConfig.outSize (config : FrameProcessConfig) (current : Size) : Size :=
  ⟨if config.outputWidth = 0 then current.width else config.outputWidth,
    if config.outputHeight = 0 then current.height else config.outputHeight⟩

/-- The resize, from the frame after crop, rotation and flips. -/
def composeFrame (config : FrameProcessConfig) (ptsNs : Int) (current : DecodedFrame) (copies : List FrameCopy) : m ProcessRun :=
  let out := config.outSize (DecodedFrame.size current)
  if !evenNonzero out.width || !evenNonzero out.height then
    return .failed .errorInvalidArgument "output dimensions must be positive and even" copies none
  else if config.fit = .stretch then
    return .finished (if DecodedFrame.size current = out then some current else scaleFrame libyuv current out) copies none
  else fitFrame word libyuv (config.fit = .contain) config.backgroundRgba ptsNs current out copies

def cropError : ProcessRun := .failed .errorInvalidArgument "crop rectangle must be even, nonempty, and inside the frame" [] none

/-- The processing of a frame whose plan has passed the checks. -/
def processCropped (source : DecodedFrame) (config : FrameProcessConfig) (crop : Size) : m ProcessRun := do
  let (cropped, copies) ← cropFrame word source config.cropX config.cropY crop
  match cropped with
  | none => return .failed .errorInternal "crop failed" copies none
  | some current =>
      match turnFrame config current with
      | .error error => return .failed .errorInternal error copies none
      | .ok current => composeFrame word libyuv config source.ptsNs current copies

def cropSize (source : DecodedFrame) (config : FrameProcessConfig) : Size :=
  ⟨if config.cropWidth = 0 then source.width else config.cropWidth,
    if config.cropHeight = 0 then source.height else config.cropHeight⟩

def FrameRotation.isUnknown : FrameRotation → Bool
  | .unknown _ => true
  | _ => false

def FrameFit.isUnknown : FrameFit → Bool
  | .unknown _ => true
  | _ => false

/-- The check of the crop rectangle. -/
def cropFits (source : DecodedFrame) (x y : Nat) (crop : Size) : m Bool := do
  let limitX ← word 32 (source.width - min source.width crop.width)
  let limitY ← word 32 (source.height - min source.height crop.height)
  if !evenNonzero crop.width || !evenNonzero crop.height || decide (x % 2 ≠ 0) || decide (y % 2 ≠ 0) ||
      decide (limitX < x) || decide (limitY < y) then
    return false
  else do
    let roomX ← word 32 (source.width - x)
    let roomY ← word 32 (source.height - y)
    return decide (crop.width ≤ roomX) && decide (crop.height ≤ roomY)

def processFrameCpu (source : DecodedFrame) (config : FrameProcessConfig) : m ProcessRun :=
  if config.backend ≠ .cpu then return .failed .errorNotSupported "requested GPU frame processor is not implemented" [] none
  else if config.rotation.isUnknown || config.fit.isUnknown then
    return .failed .errorInvalidArgument "invalid rotation or fit policy" [] none
  else do
    let fits ← cropFits word source config.cropX config.cropY (cropSize source config)
    if fits then processCropped word libyuv source config (cropSize source config) else return cropError

end

end MkvCodec
