import MkvCodec.Backend.CpuInput
import MkvCodec.Backend.Muxer
import MkvCodec.Backend.Timing

/-!
# The CPU AV1 encoder

`CpuAv1Encoder` of `cpu_av1_encoder.cpp` and `cpu_av1_encoder_runtime.cpp`. What SVT-AV1 and the muxer answer in one
call is given with the call.
-/

namespace MkvCodec.Backend

/-- A buffer of `svt_av1_enc_get_packet`. -/
structure SvtPacket where
  eos : Bool
  data : List UInt8
  pts : Int
  key : Bool

/-- An answer of `svt_av1_enc_get_packet` that is a packet, with what the muxer would answer to it. -/
abbrev SvtAnswer := SvtPacket × AddAnswer

/-- The packets of one loop, until the queue is empty or, with `failed`, the library fails. -/
structure SvtPackets where
  packets : List SvtAnswer
  failed : Bool

/-- Whether `svt_av1_enc_init_handle`, `svt_av1_enc_set_parameter` and `svt_av1_enc_init` succeed. -/
structure SvtInit where
  handle : Bool
  parameters : Bool
  init : Bool

structure Av1WriteAnswer where
  libyuv : Bool
  sent : Bool
  packets : SvtPackets

/-- The end of a sequence: whether the end-of-stream picture is taken, and the packets behind it. -/
structure SvtEnd where
  sent : Bool
  packets : SvtPackets

structure Av1FlushAnswer where
  ended : SvtEnd
  init : SvtInit

structure Av1CloseAnswer where
  ended : SvtEnd
  finalize : FinalizeAnswer

/-- A component handle of SVT-AV1, as the encoder knows it. -/
structure SvtHandle where
  codec : Bool
  initialized : Bool

/-- The calls into SVT-AV1; those for packets as far as they give one. Those that submit something carry the handle. -/
inductive SvtCall
  | initHandle
  | setParameter
  | init
  | sendPicture (handle : SvtHandle) (pts : Int) (sent : Bool)
  | sendEos (handle : SvtHandle) (sent : Bool)
  | getPacket (packet : SvtPacket)
  | deinit
  | deinitHandle

/-- `CpuAv1Encoder::Impl`. `codec` says whether there is a component handle; `calls` are the calls into SVT-AV1,
for specifications only. -/
structure CpuAv1Encoder where
  codec : Bool
  codecInitialized : Bool
  muxer : WebmMuxer
  width : Nat
  height : Nat
  timing : FrameTiming
  quality : Nat
  keyframeIntervalFrames : Nat
  framesInSequence : Nat
  eosSent : Bool
  closed : Bool
  image : Nat
  calls : List SvtCall

namespace CpuAv1Encoder

/-- What `create` returns. -/
def created (cfg : Config) : CpuAv1Encoder :=
  { codec := true, codecInitialized := true, muxer := .created, width := cfg.width, height := cfg.height
    timing := .configure cfg.fpsNum cfg.fpsDen, quality := cfg.quality
    keyframeIntervalFrames := cfg.keyframeIntervalFrames, framesInSequence := 0, eosSent := false, closed := false
    image := cfg.width * cfg.height + 2 * (cfg.width / 2 * (cfg.height / 2)), calls := [] }

def call (e : CpuAv1Encoder) (cs : List SvtCall) : CpuAv1Encoder := { e with calls := e.calls ++ cs }

def handle (e : CpuAv1Encoder) : SvtHandle := ⟨e.codec, e.codecInitialized⟩

/-- `collect_packets`. A packet that ends the stream ends the loop. -/
def collectPackets (e : CpuAv1Encoder) (failed : Bool) : List SvtAnswer → Status × CpuAv1Encoder
  | [] => if failed then (⟨.errorCodec, "SVT-AV1 failed to return an encoded packet"⟩, e) else (.ok, e)
  | (packet, answer) :: rest =>
      let e := e.call [.getPacket packet]
      if packet.data.isEmpty then if packet.eos then (.ok, e) else collectPackets e failed rest
      else
        match e.muxer.addFrame packet.data (e.timing.toNanoseconds packet.pts) e.timing.durationNanoseconds packet.key
            answer with
        | (status, muxer) =>
            if status.result ≠ .ok then (status, { e with muxer := muxer })
            else if packet.eos then (.ok, { e with muxer := muxer })
            else collectPackets { e with muxer := muxer } failed rest

/-- `initialize_codec`. -/
def initializeCodec (e : CpuAv1Encoder) (answer : SvtInit) : Status × CpuAv1Encoder :=
  if !answer.handle then (⟨.errorCodec, "SVT-AV1 failed to create an encoder handle"⟩, e.call [.initHandle])
  else
    let e := { e.call [.initHandle] with codec := true }
    let rejected : Status := ⟨.errorCodec, "SVT-AV1 rejected the encoder configuration"⟩
    if !answer.parameters then (rejected, e.call [.setParameter])
    else if !answer.init then (rejected, e.call [.setParameter, .init])
    else
      (.ok, { e.call [.setParameter, .init] with codecInitialized := true, eosSent := false, framesInSequence := 0 })

/-- `encode_frame`. -/
def encodeFrame (e : CpuAv1Encoder) (requestedPts : Int) (answer : Av1WriteAnswer) : Status × CpuAv1Encoder :=
  let pts := e.timing.select requestedPts
  let e := e.call [.sendPicture e.handle pts answer.sent]
  if !answer.sent then (⟨.errorCodec, "SVT-AV1 rejected an input frame"⟩, e)
  else
    collectPackets { e with timing := e.timing.commit pts, framesInSequence := e.framesInSequence + 1 }
      answer.packets.failed answer.packets.packets

/-- `end_sequence`. -/
def endSequence (e : CpuAv1Encoder) (answer : SvtEnd) : Status × CpuAv1Encoder :=
  if !e.codecInitialized || decide (e.framesInSequence = 0) then (.ok, e)
  else
    let e := e.call [.sendEos e.handle answer.sent]
    if !answer.sent then (⟨.errorCodec, "SVT-AV1 rejected end-of-stream"⟩, e)
    else collectPackets { e with eosSent := true } answer.packets.failed answer.packets.packets

def destroyCodec (e : CpuAv1Encoder) : CpuAv1Encoder :=
  let e := if e.codecInitialized then e.call [.deinit] else e
  let e := if e.codec then e.call [.deinitHandle] else e
  { e with codec := false, codecInitialized := false, eosSent := false, framesInSequence := 0 }

def write (e : CpuAv1Encoder) (frame : FrameView) (answer : Av1WriteAnswer) : Status × CpuAv1Encoder :=
  if e.closed || e.eosSent then (⟨.errorInvalidState, "encoder is closed or draining"⟩, e)
  else if frame.width ≠ e.width ∨ frame.height ≠ e.height then
    (⟨.errorInvalidArgument, "frame dimensions do not match AV1 encoder configuration"⟩, e)
  else
    let conversion := convertCpuFrameToI420 frame e.width e.height e.image "AV1" answer.libyuv
    if conversion.result ≠ .ok then (conversion, e) else encodeFrame e frame.pts answer

def flush (e : CpuAv1Encoder) (answer : Av1FlushAnswer) : Status × CpuAv1Encoder :=
  if e.closed then (.ok, e)
  else if e.framesInSequence = 0 then (.ok, e)
  else
    match endSequence e answer.ended with
    | (status, e) =>
        if status.result ≠ .ok then (status, destroyCodec e) else initializeCodec (destroyCodec e) answer.init

def close (e : CpuAv1Encoder) (answer : Av1CloseAnswer) : Status × CpuAv1Encoder :=
  if e.closed then (.ok, e)
  else
    match if e.codecInitialized && !e.eosSent then endSequence e answer.ended else (.ok, e) with
    | (ended, e) =>
        match if ended.result = .ok then e.muxer.finalize answer.finalize else (ended, e.muxer) with
        | (status, muxer) => (status, { destroyCodec { e with muxer := muxer } with closed := true })

/-- What an exception out of `flush` leaves. It passes what destroys the codec and makes another. -/
def flushThrown (e : CpuAv1Encoder) (answer : Av1FlushAnswer) : CpuAv1Encoder :=
  if e.closed then e
  else if e.framesInSequence = 0 then e
  else
    match endSequence e answer.ended with
    | (status, e) => if status.result ≠ .ok then e else (initializeCodec (destroyCodec e) answer.init).2

/-- What an exception out of `close` leaves. -/
def closeThrown (e : CpuAv1Encoder) (answer : Av1CloseAnswer) : CpuAv1Encoder :=
  if e.closed then e
  else
    match if e.codecInitialized && !e.eosSent then endSequence e answer.ended else (.ok, e) with
    | (ended, e) => { e with muxer := (if ended.result = .ok then e.muxer.finalize answer.finalize else (ended, e.muxer)).2 }

theorem close_eq (e : CpuAv1Encoder) (answer : Av1CloseAnswer) :
    (e.close answer).2 = if e.closed then e else { destroyCodec (e.closeThrown answer) with closed := true } := by
  unfold close closeThrown
  split
  · rfl
  · rfl

end CpuAv1Encoder

/-- A call on the encoder with the answers that it gets. -/
inductive Av1Op
  | write (frame : FrameView) (answer : Av1WriteAnswer)
  | flush (answer : Av1FlushAnswer)
  | close (answer : Av1CloseAnswer)

def CpuAv1Encoder.run (e : CpuAv1Encoder) : Av1Op → Status × CpuAv1Encoder
  | .write frame answer => e.write frame answer
  | .flush answer => e.flush answer
  | .close answer => e.close answer

end MkvCodec.Backend
