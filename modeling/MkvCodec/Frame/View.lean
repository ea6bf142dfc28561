import Mathlib.Data.Fin.VecNotation
import MkvCodec.Api.Result

/-!
# CPU frame views and their validation

A frame view is a descriptor of pixel memory that its caller owns: format, dimensions, time stamp, and for
each plane a pointer and a row stride. The two validators are those of `cpu_frame_copy.cpp`. Widths are
`uint32_t` and strides `int32_t` in the source, so products wrap (`u32`) and comparisons are made after a
conversion (`asInt32`).
-/

namespace MkvCodec

instance neZero_three : NeZero 3 := ⟨by decide⟩

instance neZero_four : NeZero 4 := ⟨by decide⟩

/-- `mkvc_pixel_format`; a view may carry a code that is none of its values. -/
inductive PixelFormat
  | i420
  | nv12
  | bgr24
  | rgb24
  | bgra32
  | p010
  | unknown (code : Nat)
  deriving DecidableEq, Repr

/-- A plane pointer that is not null, with the byte at each offset from it. -/
structure Plane where
  address : Nat
  bytes : Nat → UInt8

/-- `mkvc_frame_view`. A null plane pointer is `none`. -/
structure FrameView where
  pixelFormat : PixelFormat
  width : Nat
  height : Nat
  pts : Int
  planes : Fin 4 → Option Plane
  strides : Fin 4 → Int

/-- `mkvc_cpu_layout_mode`. -/
inductive CpuLayoutMode
  | allowCopy
  | strict
  deriving DecidableEq, Repr

/-- Conversion to `uint32_t`. -/
def u32 (n : Nat) : Nat := n % 2 ^ 32

/-- Conversion of a `uint32_t` to `int32_t`. -/
def asInt32 (n : Nat) : Int := if u32 n < 2 ^ 31 then u32 n else (u32 n : Int) - 2 ^ 32

theorem u32_of_lt {n : Nat} (h : n < 2 ^ 32) : u32 n = n := Nat.mod_eq_of_lt h

theorem asInt32_of_lt {n : Nat} (h : n < 2 ^ 31) : asInt32 n = n := by
  rw [asInt32, u32_of_lt (by omega), if_pos h]

/-- The `valid_plane` check of `validate_borrowed_frame`. -/
def FrameView.validPlane (frame : FrameView) (index : Fin 4) (rowBytes : Nat) : Bool :=
  (frame.planes index).isSome && decide (asInt32 rowBytes ≤ frame.strides index)

def validateBorrowedFrame (frame : FrameView) : Status :=
  if frame.width = 0 ∨ frame.height = 0 ∨ frame.width % 2 ≠ 0 ∨ frame.height % 2 ≠ 0 then
    ⟨.errorInvalidArgument, "borrowed input dimensions must be positive and even"⟩
  else
    let valid : Option Bool :=
      match frame.pixelFormat with
      | .i420 =>
          some (frame.validPlane 0 frame.width && frame.validPlane 1 (frame.width / 2) &&
            frame.validPlane 2 (frame.width / 2))
      | .nv12 => some (frame.validPlane 0 frame.width && frame.validPlane 1 frame.width)
      | .bgr24 | .rgb24 => some (frame.validPlane 0 (u32 (frame.width * 3)))
      | .bgra32 => some (frame.validPlane 0 (u32 (frame.width * 4)))
      | .p010 | .unknown _ => none
    match valid with
    | none => ⟨.errorNotSupported, "unsupported borrowed input pixel format"⟩
    | some false => ⟨.errorInvalidArgument, "borrowed input has an invalid plane or stride"⟩
    | some true => .ok

/-- `plane_count` and `row_bytes` of `validate_cpu_frame_layout`. -/
def layoutRows (format : PixelFormat) (width : Nat) : Option (Nat × (Fin 4 → Nat)) :=
  match format with
  | .i420 => some (3, ![width, width / 2, width / 2, 0])
  | .nv12 => some (2, ![width, width, 0, 0])
  | .bgr24 | .rgb24 => some (1, ![u32 (width * 3), 0, 0, 0])
  | .bgra32 => some (1, ![u32 (width * 4), 0, 0, 0])
  | .p010 | .unknown _ => none

/-- A used plane that is missing or whose rows do not fit its stride. -/
def FrameView.badPlane (frame : FrameView) (index : Fin 4) (rowBytes : Nat) : Bool :=
  (frame.planes index).isNone || decide (frame.strides index < asInt32 rowBytes)

/-- A used plane that is not packed, or whose pointer or stride is not aligned. -/
def FrameView.looselyLaid (frame : FrameView) (index : Fin 4) (rowBytes alignment : Nat) : Bool :=
  decide (frame.strides index ≠ asInt32 rowBytes) ||
  (match frame.planes index with
   | none => false
   | some plane => decide (plane.address % alignment ≠ 0)) ||
  decide ((frame.strides index % 2 ^ 32).toNat % alignment ≠ 0)

def validateCpuFrameLayout (frame : FrameView) (width height : Nat) (mode : CpuLayoutMode)
    (requiredAlignment : Nat) : Status :=
  if frame.width ≠ width ∨ frame.height ≠ height ∨ width = 0 ∨ height = 0 ∨ width % 2 ≠ 0 ∨
      height % 2 ≠ 0 then
    ⟨.errorInvalidArgument, "frame dimensions do not match the even encoder dimensions"⟩
  else
    match layoutRows frame.pixelFormat width with
    | none => ⟨.errorNotSupported, "unsupported CPU input pixel format"⟩
    | some (planeCount, rowBytes) =>
        if ∃ i : Fin 4, i < planeCount ∧ frame.badPlane i (rowBytes i) then
          ⟨.errorInvalidArgument, "CPU input has a missing plane or undersized row stride"⟩
        else if mode = .allowCopy then .ok
        else if ∃ i : Fin 4, i < planeCount ∧ frame.looselyLaid i (rowBytes i) requiredAlignment then
          ⟨.errorInvalidArgument,
            "strict CPU layout requires packed planes and requested pointer/stride alignment"⟩
        else if ∃ i : Fin 4, planeCount ≤ i ∧ ((frame.planes i).isSome ∨ frame.strides i ≠ 0) then
          ⟨.errorInvalidArgument, "strict CPU layout requires unused planes and strides to be zero"⟩
        else .ok

end MkvCodec
