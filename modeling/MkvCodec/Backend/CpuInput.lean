import MkvCodec.Frame.View

/-!
# CPU frames in the formats of the codecs

What `convert_cpu_frame_to_i420` and `convert_cpu_frame_to_nv12` report. `libyuv` says whether libyuv succeeds. The
pixels themselves, at which no function of the backends looks, are left to `CpuPixels`.
-/

namespace MkvCodec.Backend

/-- `mkvc_codec`, as an encoder is configured with it. -/
inductive Codec
  | vp9
  | av1
  deriving DecidableEq

/-- The configuration that an encoder is created with, as `valid_encoder_config` admits it. -/
structure Config where
  codec : Codec
  width : Nat
  height : Nat
  fpsNum : Nat
  fpsDen : Nat
  quality : Nat
  keyframeIntervalFrames : Nat
  width_pos : width ≠ 0
  height_pos : height ≠ 0
  width_even : width % 2 = 0
  height_even : height % 2 = 0
  width_le : width ≤ (2 ^ 31 - 1) / 4
  height_le : height ≤ 2 ^ 31 - 1
  fpsNum_pos : 0 < fpsNum
  fpsDen_pos : 0 < fpsDen
  fpsNum_lt : fpsNum < 2 ^ 32
  fpsDen_lt : fpsDen < 2 ^ 32
  quality_le : quality ≤ 63
  keyframeIntervalFrames_lt : keyframeIntervalFrames < 2 ^ 32

theorem Config.middleQuality_le : 32 ≤ 63 := by decide
theorem Config.noInterval_lt : 0 < 2 ^ 32 := by decide

/-- A configuration with frames of four pixels. -/
def Config.small (codec : Codec) (fpsNum fpsDen : Nat) (hnum : 0 < fpsNum ∧ fpsNum < 2 ^ 32)
    (hden : 0 < fpsDen ∧ fpsDen < 2 ^ 32) : Config :=
  { codec := codec, width := 2, height := 2, fpsNum := fpsNum, fpsDen := fpsDen, quality := 32
    keyframeIntervalFrames := 0, width_pos := by decide, height_pos := by decide, width_even := by decide
    height_even := by decide, width_le := by decide, height_le := by decide, fpsNum_pos := hnum.1
    fpsDen_pos := hden.1, fpsNum_lt := hnum.2, fpsDen_lt := hden.2, quality_le := middleQuality_le
    keyframeIntervalFrames_lt := noInterval_lt }

/-! The rates of such configurations. -/

theorem Config.film_valid : 0 < 24000 ∧ 24000 < 2 ^ 32 := by decide
theorem Config.filmScale_valid : 0 < 1001 ∧ 1001 < 2 ^ 32 := by decide
theorem Config.video_valid : 0 < 30 ∧ 30 < 2 ^ 32 := by decide
theorem Config.videoScale_valid : 0 < 1 ∧ 1 < 2 ^ 32 := by decide

/-- The bytes of a frame in either format. -/
def frameSize (width height : Nat) : Nat := width * height + width * height / 4 * 2

/-- What the switch over the format of a frame comes to: an error, planes that are copied, or a conversion of libyuv. -/
inductive CpuConversion
  | refused (status : Status)
  | copies
  | converts

/-- The report behind the switch. -/
def CpuConversion.report (libyuv : Bool) (message : String) : CpuConversion → Status
  | .refused status => status
  | .copies => .ok
  | .converts => if libyuv then .ok else ⟨.errorInternal, message⟩

def i420Conversion (frame : FrameView) (width height i420 : Nat) (codec : String) : CpuConversion :=
  if i420 < frameSize width height then .refused ⟨.errorInternal, codec ++ " CPU staging buffer is too small"⟩
  else
    let packed (channels : Nat) : CpuConversion :=
      if frame.badPlane 0 (u32 (width * channels)) then
        .refused ⟨.errorInvalidArgument, "packed RGB input has an invalid pointer or stride"⟩
      else .converts
    match frame.pixelFormat with
    | .i420 =>
        if frame.badPlane 0 width || frame.badPlane 1 (width / 2) ||
            frame.badPlane 2 (width / 2) then
          .refused ⟨.errorInvalidArgument, "I420 requires three positive-stride planes"⟩
        else .copies
    | .nv12 =>
        if frame.badPlane 0 width || frame.badPlane 1 width then
          .refused ⟨.errorInvalidArgument, "NV12 requires Y and interleaved UV positive-stride planes"⟩
        else .converts
    | .bgr24 | .rgb24 => packed 3
    | .bgra32 => packed 4
    | .p010 | .unknown _ => .refused ⟨.errorNotSupported, "unsupported " ++ codec ++ " input pixel format"⟩

def convertCpuFrameToI420 (frame : FrameView) (width height i420 : Nat) (codec : String) (libyuv : Bool) : Status :=
  (i420Conversion frame width height i420 codec).report libyuv ("libyuv failed to convert the " ++ codec ++ " input frame")

def nv12Conversion (frame : FrameView) (width height i420 nv12 : Nat) (backend : String) : CpuConversion :=
  if i420 < frameSize width height || nv12 < frameSize width height then
    .refused ⟨.errorInternal, backend ++ " CPU staging buffers are too small"⟩
  else
    let packed (channels : Nat) : CpuConversion :=
      if frame.badPlane 0 (u32 (width * channels)) then
        .refused ⟨.errorInvalidArgument, "packed RGB input has an invalid plane or stride"⟩
      else .converts
    match frame.pixelFormat with
    | .nv12 =>
        if frame.badPlane 0 width || frame.badPlane 1 width then
          .refused ⟨.errorInvalidArgument, "NV12 requires valid Y and UV planes"⟩
        else .copies
    | .i420 =>
        if frame.badPlane 0 width || frame.badPlane 1 (width / 2) ||
            frame.badPlane 2 (width / 2) then
          .refused ⟨.errorInvalidArgument, "I420 requires three valid planes"⟩
        else .converts
    | .bgr24 | .rgb24 => packed 3
    | .bgra32 => packed 4
    | .p010 | .unknown _ => .refused ⟨.errorNotSupported, "unsupported " ++ backend ++ " encoder input format"⟩

def convertCpuFrameToNv12 (frame : FrameView) (width height i420 nv12 : Nat) (backend : String) (libyuv : Bool) :
    Status :=
  (nv12Conversion frame width height i420 nv12 backend).report libyuv
    ("libyuv failed to convert " ++ backend ++ " encoder input to NV12")

end MkvCodec.Backend
