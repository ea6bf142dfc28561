import MkvCodec.Backend.CpuInput
import MkvCodec.Frame.Copy

/-!
# CPU frames in the formats of the codecs: the pixels

`convert_cpu_frame_to_i420` and `convert_cpu_frame_to_nv12` with the bytes that they write. A conversion of libyuv reads the
visible bytes of its source planes and writes tightly packed planes; which bytes it writes is a parameter.
-/

namespace MkvCodec.Backend

/-- The conversions of libyuv: a result code, and the bytes of the destination planes one behind the other. -/
structure Libyuv where
  nv12ToI420 (width height : Nat) (y uv : List UInt8) : Int × List UInt8
  i420ToNv12 (width height : Nat) (y u v : List UInt8) : Int × List UInt8
  rgb24ToI420 (width height : Nat) (packed : List UInt8) : Int × List UInt8
  rawToI420 (width height : Nat) (packed : List UInt8) : Int × List UInt8
  argbToI420 (width height : Nat) (packed : List UInt8) : Int × List UInt8

/-- `bytes` written at `offset` of a buffer. -/
def patch (buffer : List UInt8) (offset : Nat) (bytes : List UInt8) : List UInt8 :=
  buffer.take offset ++ bytes ++ buffer.drop (offset + bytes.length)

/-- The conversion of a packed format, by its name. -/
def Libyuv.packedToI420 (libyuv : Libyuv) : PixelFormat → Nat → Nat → List UInt8 → Int × List UInt8
  | .bgr24 => libyuv.rgb24ToI420
  | .rgb24 => libyuv.rawToI420
  | _ => libyuv.argbToI420

def channels : PixelFormat → Nat
  | .bgra32 => 4
  | _ => 3

/-- `convert_cpu_frame_to_i420` with its staging buffer. -/
def cpuFrameToI420 (libyuv : Libyuv) (frame : FrameView) (width height : Nat) (i420 : List UInt8) (codec : String) :
    Status × List UInt8 :=
  let ySize := width * height
  let chromaSize := ySize / 4
  match i420Conversion frame width height i420.length codec with
  | .refused status => (status, i420)
  | .copies =>
      let i420 := patch i420 0 (frame.visiblePlane 0 width height)
      let i420 := patch i420 ySize (frame.visiblePlane 1 (width / 2) (height / 2))
      (.ok, patch i420 (ySize + chromaSize) (frame.visiblePlane 2 (width / 2) (height / 2)))
  | .converts =>
      let result : Int × List UInt8 :=
        match frame.pixelFormat with
        | .nv12 =>
            libyuv.nv12ToI420 width height (frame.visiblePlane 0 width height) (frame.visiblePlane 1 width (height / 2))
        | format =>
            libyuv.packedToI420 format width height (frame.visiblePlane 0 (width * channels format) height)
      (convertCpuFrameToI420 frame width height i420.length codec (result.1 = 0), patch i420 0 result.2)

/-- `convert_cpu_frame_to_nv12` with its two staging buffers. -/
def cpuFrameToNv12 (libyuv : Libyuv) (frame : FrameView) (width height : Nat) (i420 nv12 : List UInt8) (backend : String) :
    Status × List UInt8 × List UInt8 :=
  let ySize := width * height
  let chromaSize := ySize / 4
  let status (result : Int) : Status :=
    convertCpuFrameToNv12 frame width height i420.length nv12.length backend (result = 0)
  match nv12Conversion frame width height i420.length nv12.length backend with
  | .refused status => (status, i420, nv12)
  | .copies =>
      let nv12 := patch nv12 0 (frame.visiblePlane 0 width height)
      (.ok, i420, patch nv12 ySize (frame.visiblePlane 1 width (height / 2)))
  | .converts =>
      match frame.pixelFormat with
      | .i420 =>
          let result := libyuv.i420ToNv12 width height (frame.visiblePlane 0 width height)
            (frame.visiblePlane 1 (width / 2) (height / 2)) (frame.visiblePlane 2 (width / 2) (height / 2))
          (status result.1, i420, patch nv12 0 result.2)
      | format =>
          let result := libyuv.packedToI420 format width height (frame.visiblePlane 0 (width * channels format) height)
          let i420 := patch i420 0 result.2
          if result.1 ≠ 0 then (status result.1, i420, nv12)
          else
            -- the second conversion reads the planes that the first has written
            let result := libyuv.i420ToNv12 width height (i420.take ySize) ((i420.drop ySize).take chromaSize)
              ((i420.drop (ySize + chromaSize)).take chromaSize)
            (status result.1, i420, patch nv12 0 result.2)

end MkvCodec.Backend
