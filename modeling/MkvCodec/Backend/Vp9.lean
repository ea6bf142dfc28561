import MkvCodec.Backend.CpuInput
import MkvCodec.Backend.Muxer
import MkvCodec.Backend.Timing

/-!
# The CPU VP9 encoder

`CpuVp9Encoder` of `cpu_vp9_encoder.cpp` and `cpu_vp9_encoder_runtime.cpp`. What libvpx and the muxer answer in one
call is given with the call.
-/

namespace MkvCodec.Backend

/-- `vpx_codec_cx_pkt_t`. `frame` says that it is a frame packet. -/
structure VpxPacket where
  frame : Bool
  pts : Int
  data : List UInt8
  key : Bool

/-- A call of `vpx_codec_encode`: its error, and the packets that `vpx_codec_get_cx_data` then gives, each with what
the muxer would answer to it. -/
structure VpxAnswer where
  error : Option String
  packets : List (VpxPacket × AddAnswer)

/-- The answers to the calls of a write. -/
structure Vp9WriteAnswer where
  libyuv : Bool
  wrapped : Bool
  encode : VpxAnswer

/-- The answers to the calls of a close. -/
structure Vp9CloseAnswer where
  flush : VpxAnswer
  finalize : FinalizeAnswer

/-- The calls into libvpx; those of `vpx_codec_get_cx_data` as far as they give a packet. -/
inductive VpxCall
  | encode (pts : Int) (error : Option String)
  | flush
  | getPacket (packet : VpxPacket)
  | destroy

/-- `CpuVp9Encoder::Impl`. `image` is the size of the staging buffer; `calls` are the calls into libvpx, for
specifications only. -/
structure CpuVp9Encoder where
  codecInitialized : Bool
  muxer : WebmMuxer
  width : Nat
  height : Nat
  timing : FrameTiming
  closed : Bool
  image : Nat
  calls : List VpxCall

namespace CpuVp9Encoder

/-- What `create` returns. -/
def created (cfg : Config) : CpuVp9Encoder :=
  { codecInitialized := true, muxer := .created, width := cfg.width, height := cfg.height
    timing := .configure cfg.fpsNum cfg.fpsDen, closed := false
    image := cfg.width * cfg.height + 2 * (cfg.width / 2 * (cfg.height / 2)), calls := [] }

def call (e : CpuVp9Encoder) (c : VpxCall) : CpuVp9Encoder := { e with calls := e.calls ++ [c] }

/-- `collect_packets`. -/
def collectPackets (e : CpuVp9Encoder) : List (VpxPacket × AddAnswer) → Status × CpuVp9Encoder
  | [] => (.ok, e)
  | (packet, answer) :: rest =>
      let e := e.call (.getPacket packet)
      if !packet.frame then collectPackets e rest
      else
        match e.muxer.addFrame packet.data (e.timing.toNanoseconds packet.pts) e.timing.durationNanoseconds packet.key
            answer with
        | (status, muxer) =>
            if status.result ≠ .ok then (status, { e with muxer := muxer })
            else collectPackets { e with muxer := muxer } rest

def codecError (error : String) : Status := ⟨.errorCodec, error⟩

/-- `encode_frame`. -/
def encodeFrame (e : CpuVp9Encoder) (requestedPts : Int) (answer : Vp9WriteAnswer) : Status × CpuVp9Encoder :=
  if !answer.wrapped then (codecError "libvpx failed to wrap the copied I420 frame", e)
  else
    let pts := e.timing.select requestedPts
    let e := e.call (.encode pts answer.encode.error)
    match answer.encode.error with
    | some error => (codecError error, e)
    | none => collectPackets { e with timing := e.timing.commit pts } answer.encode.packets

/-- `flush_codec`. -/
def flushCodec (e : CpuVp9Encoder) (answer : VpxAnswer) : Status × CpuVp9Encoder :=
  match answer.error with
  | some error => (codecError error, e.call .flush)
  | none => collectPackets (e.call .flush) answer.packets

def destroyCodec (e : CpuVp9Encoder) : CpuVp9Encoder :=
  if !e.codecInitialized then e else { e.call .destroy with codecInitialized := false }

def write (e : CpuVp9Encoder) (frame : FrameView) (answer : Vp9WriteAnswer) : Status × CpuVp9Encoder :=
  if e.closed then (⟨.errorInvalidState, "encoder is closed"⟩, e)
  else if frame.width ≠ e.width ∨ frame.height ≠ e.height then
    (⟨.errorInvalidArgument, "frame dimensions do not match encoder configuration"⟩, e)
  else
    let conversion := convertCpuFrameToI420 frame e.width e.height e.image "VP9" answer.libyuv
    if conversion.result ≠ .ok then (conversion, e) else encodeFrame e frame.pts answer

def flush (e : CpuVp9Encoder) (answer : VpxAnswer) : Status × CpuVp9Encoder :=
  if e.closed then (.ok, e) else flushCodec e answer

def close (e : CpuVp9Encoder) (answer : Vp9CloseAnswer) : Status × CpuVp9Encoder :=
  if e.closed then (.ok, e)
  else
    match if e.codecInitialized then flush e answer.flush else (.ok, e) with
    | (flushed, e) =>
        match if flushed.result = .ok then e.muxer.finalize answer.finalize else (flushed, e.muxer) with
        | (status, muxer) => (status, { destroyCodec { e with muxer := muxer } with closed := true })

/-- What an exception out of `close` leaves: it passes the end of the function, which destroys the codec and marks the encoder as
closed. -/
def closeThrown (e : CpuVp9Encoder) (answer : Vp9CloseAnswer) : CpuVp9Encoder :=
  if e.closed then e
  else
    match if e.codecInitialized then flush e answer.flush else (.ok, e) with
    | (flushed, e) =>
        { e with muxer := (if flushed.result = .ok then e.muxer.finalize answer.finalize else (flushed, e.muxer)).2 }

theorem close_eq (e : CpuVp9Encoder) (answer : Vp9CloseAnswer) :
    (e.close answer).2 = if e.closed then e else { destroyCodec (e.closeThrown answer) with closed := true } := by
  unfold close closeThrown
  split
  · rfl
  · rfl

end CpuVp9Encoder

/-- A call on the encoder with the answers that it gets. -/
inductive Vp9Op
  | write (frame : FrameView) (answer : Vp9WriteAnswer)
  | flush (answer : VpxAnswer)
  | close (answer : Vp9CloseAnswer)

def CpuVp9Encoder.run (e : CpuVp9Encoder) : Vp9Op → Status × CpuVp9Encoder
  | .write frame answer => e.write frame answer
  | .flush answer => e.flush answer
  | .close answer => e.close answer

end MkvCodec.Backend
