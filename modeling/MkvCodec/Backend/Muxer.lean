import MkvCodec.Api.Result

/-!
# The container of an encoder

`WebmMuxer` of `webm_muxer.cpp`. What libwebm and the file system answer is the environment's.
-/

namespace MkvCodec.Backend

/-- A frame in the hands of libwebm. -/
structure MuxedFrame where
  data : List UInt8
  timestampNs : Nat
  durationNs : Nat
  key : Bool

/-- Whether `Frame::Init` and `AddGenericFrame` succeed. -/
structure AddAnswer where
  copied : Bool
  muxed : Bool

/-- Whether `Segment::Finalize` succeeds, and the error of `finalize_container_doc_type`. -/
structure FinalizeAnswer where
  segment : Bool
  docType : Option String

/-- `WebmMuxer::Impl`. `frames` is what libwebm has taken; `outputs` counts the calls that write to the output,
for specifications only. -/
structure WebmMuxer where
  writerOpen : Bool
  segmentInitialized : Bool
  finalized : Bool
  frames : List MuxedFrame
  outputs : Nat

namespace WebmMuxer

/-- What `create` returns. -/
def created : WebmMuxer := ⟨true, true, false, [], 0⟩

/-- `add_frame`. A null pointer is an empty packet. -/
def addFrame (m : WebmMuxer) (data : List UInt8) (timestampNs durationNs : Nat) (key : Bool) (answer : AddAnswer) :
    Status × WebmMuxer :=
  if m.finalized || !m.segmentInitialized || data.isEmpty then
    (⟨.errorInvalidState, "invalid encoded packet or finalized muxer"⟩, m)
  else if !answer.copied then (⟨.errorInternal, "libwebm failed to copy an encoded packet"⟩, m)
  else if !answer.muxed then
    (⟨.errorIo, "libwebm failed to mux an encoded packet"⟩, { m with outputs := m.outputs + 1 })
  else
    (.ok, { m with frames := m.frames ++ [⟨data, timestampNs, durationNs, key⟩], outputs := m.outputs + 1 })

/-- `finalize`. -/
def finalize (m : WebmMuxer) (answer : FinalizeAnswer) : Status × WebmMuxer :=
  if m.finalized then (.ok, m)
  else if m.segmentInitialized && !answer.segment then
    (⟨.errorIo, "libwebm failed to finalize the output"⟩, { m with outputs := m.outputs + 1 })
  else
    match answer.docType with
    | some error => (⟨.errorIo, error⟩, { m with writerOpen := false, outputs := m.outputs + 1 })
    | none => (.ok, { m with writerOpen := false, finalized := true, outputs := m.outputs + 1 })

/-- The time stamps of the frames in the container. -/
def timestamps (m : WebmMuxer) : List Nat := m.frames.map MuxedFrame.timestampNs

/-- A frame that has been added is the last one; nothing else changes the frames. -/
theorem addFrame_timestamps (m : WebmMuxer) (data : List UInt8) (timestampNs durationNs : Nat) (key : Bool)
    (answer : AddAnswer) :
    (m.addFrame data timestampNs durationNs key answer).2.timestamps =
      if (m.addFrame data timestampNs durationNs key answer).1.result = .ok then m.timestamps ++ [timestampNs]
      else m.timestamps := by
  unfold addFrame
  split
  · rfl
  · split
    · rfl
    · split
      · rfl
      · simp [timestamps]

theorem finalize_frames (m : WebmMuxer) (answer : FinalizeAnswer) : (m.finalize answer).2.frames = m.frames := by
  unfold finalize
  split
  · rfl
  · split
    · rfl
    · split <;> rfl

end WebmMuxer

end MkvCodec.Backend
