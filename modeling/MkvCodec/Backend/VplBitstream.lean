import MkvCodec.Backend.Vpl

/-!
# IVF framing of VP9 bitstreams

A VP9 bitstream of oneVPL is an optional file header of 32 bytes followed by frames, each with a header of 12 bytes that
starts with the size of its payload. `append_vpl_encoded_packet` takes the payload of the first frame. What it makes of a
buffer is compared with the frames that the buffer consists of.
-/

namespace MkvCodec.Backend

/-! ## Frames -/

theorem readLe32_append {header : List UInt8} (h : 4 ≤ header.length) (rest : List UInt8) :
    readLe32 (header ++ rest) = readLe32 header := by
  have hbyte : ∀ i < 4, (header ++ rest).getD i 0 = header.getD i 0 := by
    intro i hi
    rw [List.getD_eq_getElem?_getD, List.getD_eq_getElem?_getD, List.getElem?_append_left (by omega)]
  simp only [readLe32, hbyte 0 (by decide), hbyte 1 (by decide), hbyte 2 (by decide), hbyte 3 (by decide)]

/-- A frame with a payload, whose header starts with its size. The rest of the header is the time stamp. -/
structure IvfFrame where
  header : List UInt8
  payload : List UInt8
  header_length : header.length = 12
  size_eq : readLe32 header = payload.length
  payload_pos : 0 < payload.length

namespace IvfFrame

def bytes (frame : IvfFrame) : List UInt8 := frame.header ++ frame.payload

@[simp] theorem length_bytes (frame : IvfFrame) : frame.bytes.length = 12 + frame.payload.length := by
  rw [bytes, List.length_append, frame.header_length]

theorem readLe32_bytes (frame : IvfFrame) (rest : List UInt8) :
    readLe32 (frame.bytes ++ rest) = frame.payload.length := by
  have hheader := frame.header_length
  rw [bytes, List.append_assoc, readLe32_append (by omega), frame.size_eq]

theorem drop_bytes (frame : IvfFrame) (rest : List UInt8) : (frame.bytes ++ rest).drop 12 = frame.payload ++ rest := by
  rw [bytes, List.append_assoc, ← frame.header_length, List.drop_left]

/-- Bytes that are as long as their first four say are a frame. -/
theorem exists_of_length {data : List UInt8} (hpos : 0 < readLe32 data) (h : data.length = 12 + readLe32 data) :
    ∃ frame : IvfFrame, frame.bytes = data := by
  have hlen : (data.take 12).length = 12 := by rw [List.length_take]; omega
  have hread : readLe32 data = readLe32 (data.take 12) := by
    conv_lhs => rw [← List.take_append_drop 12 data]
    exact readLe32_append (by omega) _
  refine ⟨⟨data.take 12, data.drop 12, hlen, ?_, ?_⟩, List.take_append_drop 12 data⟩
  · rw [← hread, List.length_drop]
    omega
  · rw [List.length_drop]
    omega

end IvfFrame

/-- No file header, or 32 bytes that start with the signature. -/
def FileHeader (header : List UInt8) : Prop := header = [] ∨ header.length = 32 ∧ header.take 4 = ivfSignature

/-- The payloads that a buffer of a codec consists of: the frames of a VP9 buffer, an AV1 buffer as it is. -/
def Contains (codec : Codec) (data : List UInt8) (payloads : List (List UInt8)) : Prop :=
  match codec with
  | .av1 => data ≠ [] ∧ payloads = [data]
  | .vp9 => ∃ header frames, FileHeader header ∧ frames ≠ [] ∧ data = header ++ frames.flatMap IvfFrame.bytes ∧
      payloads = frames.map IvfFrame.payload

/-! ## What the code looks at -/

/-- The bytes from where the first frame is looked for. -/
def ivfBody (data : List UInt8) : List UInt8 := data.drop (if data.take 4 = ivfSignature then 32 else 0)

/-- The first frame is there as a whole and has a payload. -/
def FirstFrame (data : List UInt8) : Prop := 0 < readLe32 (ivfBody data) ∧ 12 + readLe32 (ivfBody data) ≤ (ivfBody data).length

/-- `vplPayload` takes the payload of the first frame. -/
theorem vplPayload_vp9 {data payload : List UInt8} : vplPayload .vp9 data = .ok payload ↔
    FirstFrame data ∧ payload = ((ivfBody data).drop 12).take (readLe32 (ivfBody data)) := by
  have hheader : (decide (4 ≤ data.length) && decide (data.take 4 = ivfSignature)) = decide (data.take 4 = ivfSignature) := by
    by_cases h : data.take 4 = ivfSignature
    · have hlen := congrArg List.length h
      rw [List.length_take] at hlen
      have : 4 ≤ data.length := by
        have : ivfSignature.length = 4 := rfl
        omega
      simp only [h, this, decide_true, Bool.and_self]
    · simp only [h, decide_false, Bool.and_false]
  simp only [vplPayload, hheader, FirstFrame, ivfBody]
  by_cases h : data.take 4 = ivfSignature
  · simp only [h, decide_true, Bool.true_and, decide_eq_true_eq, if_true, List.length_drop, List.drop_drop]
    split
    · simp only [reduceCtorEq, false_iff]; omega
    split
    · simp only [reduceCtorEq, false_iff]; omega
    split
    · simp only [reduceCtorEq, false_iff]; omega
    · simp only [Except.ok.injEq, eq_comm (a := payload)]
      exact (and_iff_right (by omega)).symm
  · simp only [h, decide_false, Bool.false_and, Bool.false_eq_true, if_false, List.drop_zero, Nat.zero_add]
    split
    · simp only [reduceCtorEq, false_iff]; omega
    split
    · simp only [reduceCtorEq, false_iff]; omega
    · simp only [Except.ok.injEq, eq_comm (a := payload)]
      exact (and_iff_right (by omega)).symm

/-! ## What it reads -/

section reads

variable {m : Type → Type} [Monad m] (read : Nat → Nat → m (List UInt8))

/-- The comparison with the signature. -/
def hasFileHeader (length : Nat) : m Bool := do
  if 4 ≤ length then return decide ((← read 0 4) = ivfSignature) else return false

/-- `vplPayload` with every access to the buffer as a call: `read offset count` gives `count` bytes from `offset` on. -/
def vplPayloadReading (codec : Codec) (length : Nat) : m (Except String (List UInt8)) := do
  match codec with
  | .av1 => return .ok (← read 0 length)
  | .vp9 =>
      let header ← hasFileHeader read length
      if header && decide (length < 32) then return .error "oneVPL returned a truncated VP9 IVF header"
      else
        let offset := if header then 32 else 0
        if length < offset + 12 then return .error "oneVPL returned a truncated VP9 IVF frame header"
        else
          let frameSize := readLe32 (← read offset 4)
          if frameSize = 0 ∨ length - (offset + 12) < frameSize then
            return .error "oneVPL returned an invalid VP9 IVF frame size"
          else return .ok (← read (offset + 12) frameSize)

end reads

/-- An access that fails outside the buffer. -/
def readInside (data : List UInt8) (offset count : Nat) : Option (List UInt8) :=
  if offset + count ≤ data.length then some ((data.drop offset).take count) else none

theorem readLe32_take (data : List UInt8) : readLe32 (data.take 4) = readLe32 data := by
  simp [readLe32, List.getD_eq_getElem?_getD]

theorem hasFileHeader_inside (data : List UInt8) : hasFileHeader (readInside data) data.length =
    some (decide (4 ≤ data.length) && decide (data.take 4 = ivfSignature)) := by
  unfold hasFileHeader readInside
  split
  case isTrue h =>
      rw [decide_eq_true h, Bool.true_and]
      rfl
  case isFalse h =>
      rw [decide_eq_false h, Bool.false_and]
      rfl

/-- Every access is inside the buffer, whatever the buffer holds. -/
theorem vplPayload_inside (codec : Codec) (data : List UInt8) :
    vplPayloadReading (readInside data) codec data.length = some (vplPayload codec data) := by
  cases codec with
  | av1 => simp [vplPayloadReading, readInside, vplPayload]
  | vp9 =>
      simp only [vplPayloadReading, vplPayload, hasFileHeader_inside, Option.bind_eq_bind, Option.bind_some]
      split
      · rfl
      generalize (if (decide (4 ≤ data.length) && decide (data.take 4 = ivfSignature)) = true then 32 else 0) = offset
      split
      · rfl
      rename_i hframe
      -- the frame header is inside, and so is a payload that the check admits
      rw [readInside, if_pos (by omega), Option.bind_some, readLe32_take]
      split
      · rfl
      rename_i hsize
      rw [readInside, if_pos (by omega)]
      rfl

/-! ## What a buffer is turned into -/

/-- A buffer that `append_vpl_encoded_packet` handles as it should: it is rejected exactly if it does not consist of frames,
every payload it consists of is appended, and no byte outside it is read. -/
structure Unwrapped (bitstream : Bitstream) (codec : Codec) (fpsNum fpsDen : Nat) (packets : List IntelEncodedPacket) :
    Prop where
  rejects : (appendVplEncodedPacket bitstream codec fpsNum fpsDen packets).1.result ≠ .ok ↔
    bitstream.data ≠ [] ∧ ¬ ∃ payloads, Contains codec bitstream.data payloads
  emits : ∀ payloads, Contains codec bitstream.data payloads →
    (appendVplEncodedPacket bitstream codec fpsNum fpsDen packets).1.result = .ok ∧
      (appendVplEncodedPacket bitstream codec fpsNum fpsDen packets).2.map IntelEncodedPacket.data =
        packets.map IntelEncodedPacket.data ++ payloads
  inside : vplPayloadReading (readInside bitstream.data) codec bitstream.data.length = some (vplPayload codec bitstream.data)

/-- Bytes after the first frame. -/
def FrameFollows (data : List UInt8) : Prop :=
  0 < readLe32 (ivfBody data) ∧ 12 + readLe32 (ivfBody data) < (ivfBody data).length

/-- Frames without a file header, the first of which has the signature for its size. -/
def SignatureIsSize (data : List UInt8) : Prop :=
  data.take 4 = ivfSignature ∧ ∃ frames, frames ≠ [] ∧ data = frames.flatMap IvfFrame.bytes

variable {b : Bitstream} {data payload : List UInt8} {payloads : List (List UInt8)} {codec : Codec} {fpsNum fpsDen : Nat}
variable {packets : List IntelEncodedPacket}

theorem appendVplEncodedPacket_result :
    (appendVplEncodedPacket b codec fpsNum fpsDen packets).1.result = .ok ↔
      b.data = [] ∨ ∃ payload, vplPayload codec b.data = .ok payload := by
  unfold appendVplEncodedPacket
  split
  case isTrue h => simp [List.isEmpty_iff.mp h]
  case isFalse h =>
      have hne : b.data ≠ [] := fun hnil => h (List.isEmpty_iff.mpr hnil)
      cases vplPayload codec b.data with
      | error error => simp [hne]
      | ok payload => simp

theorem appendVplEncodedPacket_packets (hne : b.data ≠ []) (h : vplPayload codec b.data = .ok payload) :
    (appendVplEncodedPacket b codec fpsNum fpsDen packets).2.map IntelEncodedPacket.data =
      packets.map IntelEncodedPacket.data ++ [payload] := by
  have hempty : ¬ b.data.isEmpty = true := fun hnil => hne (List.isEmpty_iff.mp hnil)
  simp [appendVplEncodedPacket, hempty, h]

theorem ivfBody_length_le : (ivfBody data).length ≤ data.length := by
  rw [ivfBody, List.length_drop]
  omega

/-- Where the signature is no size, a buffer of frames has its first one where it is looked for. -/
theorem Contains.body (h : Contains .vp9 data payloads) (hsize : ¬ SignatureIsSize data) :
    ∃ (frame : IvfFrame) (rest : List IvfFrame), ivfBody data = frame.bytes ++ rest.flatMap IvfFrame.bytes ∧
      payloads = frame.payload :: rest.map IvfFrame.payload := by
  obtain ⟨header, frames, hheader, hne, rfl, rfl⟩ := h
  obtain ⟨frame, rest, rfl⟩ := List.exists_cons_of_ne_nil hne
  refine ⟨frame, rest, ?_, rfl⟩
  rcases hheader with rfl | ⟨hlen, htake⟩
  · have hsig : ¬ (([] ++ (frame :: rest).flatMap IvfFrame.bytes).take 4 = ivfSignature) :=
      fun hsig => hsize ⟨hsig, _, hne, rfl⟩
    rw [ivfBody, if_neg hsig]
    rfl
  · have hsig : (header ++ (frame :: rest).flatMap IvfFrame.bytes).take 4 = ivfSignature := by
      rw [List.take_append_of_le_length (by omega), htake]
    rw [ivfBody, if_pos hsig, ← hlen, List.drop_left]
    rfl

theorem Contains.firstFrame (h : Contains .vp9 data payloads) (hsize : ¬ SignatureIsSize data) : FirstFrame data := by
  obtain ⟨frame, rest, hbody, -⟩ := h.body hsize
  have hpos := frame.payload_pos
  rw [FirstFrame, hbody, frame.readLe32_bytes, List.length_append, frame.length_bytes]
  omega

/-- The first frame alone makes up the buffer, after the file header if there is one. -/
theorem contains_of_firstFrame (h : FirstFrame data) (hfollows : ¬ FrameFollows data) :
    ∃ payloads, Contains .vp9 data payloads := by
  have hlen : (ivfBody data).length = 12 + readLe32 (ivfBody data) := by
    unfold FirstFrame at h
    unfold FrameFollows at hfollows
    omega
  obtain ⟨frame, hframe⟩ := IvfFrame.exists_of_length h.1 hlen
  have hsplit : data = data.take (if data.take 4 = ivfSignature then 32 else 0) ++ [frame].flatMap IvfFrame.bytes := by
    rw [List.flatMap_singleton, hframe, ivfBody, List.take_append_drop]
  refine ⟨_, _, [frame], ?_, by simp, hsplit, rfl⟩
  split
  case isFalse => exact .inl rfl
  case isTrue hsig =>
      refine .inr ⟨?_, by rw [List.take_take]; exact hsig⟩
      rw [ivfBody, if_pos hsig, List.length_drop] at hlen
      rw [List.length_take]
      omega

/-- A buffer that is nothing but frames is longer by a frame header than each payload in it. -/
theorem Contains.length (h : Contains .vp9 data [payload]) :
    data.length = 12 + payload.length ∨ data.length = 44 + payload.length ∧ data.take 4 = ivfSignature := by
  obtain ⟨header, frames, hheader, -, rfl, hpayloads⟩ := h
  obtain ⟨frame, rfl, rfl⟩ := List.map_eq_singleton_iff.mp hpayloads.symm
  rcases hheader with rfl | ⟨hlen, htake⟩
  · left
    simp
  · right
    refine ⟨by simp [hlen]; omega, ?_⟩
    rw [List.take_append_of_le_length (by omega), htake]

theorem unwrapped_av1 : Unwrapped b .av1 fpsNum fpsDen packets := by
  have hok : (appendVplEncodedPacket b .av1 fpsNum fpsDen packets).1.result = .ok :=
    appendVplEncodedPacket_result.mpr (.inr ⟨_, rfl⟩)
  refine ⟨⟨fun hbad => absurd hok hbad, ?_⟩, ?_, vplPayload_inside _ _⟩
  · rintro ⟨hne, hnone⟩
    exact absurd ⟨_, hne, rfl⟩ hnone
  · rintro payloads ⟨hne, rfl⟩
    exact ⟨hok, appendVplEncodedPacket_packets hne rfl⟩

/-- What the code gives for a buffer of VP9 that it accepts. -/
theorem appendVplEncodedPacket_vp9 (h : FirstFrame b.data) :
    (appendVplEncodedPacket b .vp9 fpsNum fpsDen packets).1.result = .ok ∧
      (appendVplEncodedPacket b .vp9 fpsNum fpsDen packets).2.map IntelEncodedPacket.data =
        packets.map IntelEncodedPacket.data ++ [((ivfBody b.data).drop 12).take (readLe32 (ivfBody b.data))] := by
  have hpayload := vplPayload_vp9.mpr ⟨h, rfl⟩
  have hne : b.data ≠ [] := by
    intro hnil
    have hlen : (ivfBody b.data).length ≤ b.data.length := ivfBody_length_le
    rw [hnil, List.length_nil] at hlen
    have := h.2
    rw [hnil] at this
    omega
  exact ⟨appendVplEncodedPacket_result.mpr (.inr ⟨_, hpayload⟩), appendVplEncodedPacket_packets hne hpayload⟩

/-- Payloads that are all appended are the one payload that the code takes. -/
theorem Unwrapped.payloads_eq (h : Unwrapped b .vp9 fpsNum fpsDen packets) (hfirst : FirstFrame b.data)
    (hcontains : Contains .vp9 b.data payloads) :
    payloads = [((ivfBody b.data).drop 12).take (readLe32 (ivfBody b.data))] := by
  have hcode : (appendVplEncodedPacket b .vp9 fpsNum fpsDen packets).2.map IntelEncodedPacket.data = _ :=
    (appendVplEncodedPacket_vp9 hfirst).2
  have hall := (h.emits payloads hcontains).2
  exact List.append_cancel_left (hall.symm.trans hcode)

theorem Unwrapped.not_frameFollows (h : Unwrapped b .vp9 fpsNum fpsDen packets) : ¬ FrameFollows b.data := by
  rintro ⟨hpos, hlonger⟩
  have hfirst : FirstFrame b.data := ⟨hpos, by omega⟩
  have hok : (appendVplEncodedPacket b .vp9 fpsNum fpsDen packets).1.result = .ok := (appendVplEncodedPacket_vp9 hfirst).1
  obtain ⟨payloads, hcontains⟩ : ∃ payloads, Contains .vp9 b.data payloads := by
    by_contra hnone
    refine h.rejects.mpr ⟨?_, hnone⟩ hok
    intro hnil
    rw [hnil] at hlonger
    simp [ivfBody] at hlonger
  -- so the buffer is one frame, and nothing follows it
  obtain rfl := h.payloads_eq hfirst hcontains
  have htake : (((ivfBody b.data).drop 12).take (readLe32 (ivfBody b.data))).length = readLe32 (ivfBody b.data) := by
    rw [List.length_take, List.length_drop]
    omega
  rcases hcontains.length with hlen | ⟨hlen, hsig⟩
  · have : (ivfBody b.data).length ≤ b.data.length := ivfBody_length_le
    omega
  · have : (ivfBody b.data).length = b.data.length - 32 := by rw [ivfBody, if_pos hsig, List.length_drop]
    omega

theorem Unwrapped.not_signatureIsSize (h : Unwrapped b .vp9 fpsNum fpsDen packets) : ¬ SignatureIsSize b.data := by
  rintro ⟨hsig, frames, hne, hframes⟩
  have hcontains : Contains .vp9 b.data (frames.map IvfFrame.payload) := ⟨[], frames, .inl rfl, hne, hframes, rfl⟩
  have hnonempty : b.data ≠ [] := by
    rintro hnil
    rw [hnil] at hsig
    cases hsig
  have hfirst : FirstFrame b.data := by
    rcases appendVplEncodedPacket_result.mp (h.emits _ hcontains).1 with hnil | ⟨payload, hpayload⟩
    · exact absurd hnil hnonempty
    · exact (vplPayload_vp9.mp hpayload).1
  -- the one frame has a payload that begins 12 bytes into the buffer, the code takes it from 44 bytes into it
  have hsingle := h.payloads_eq hfirst hcontains
  obtain ⟨frame, rfl, hframe⟩ := List.map_eq_singleton_iff.mp hsingle
  have hlen : b.data.length = 12 + frame.payload.length := by
    rw [hframes]
    simp
  have hbody : (ivfBody b.data).length = b.data.length - 32 := by rw [ivfBody, if_pos hsig, List.length_drop]
  have hpayload := congrArg List.length hframe
  rw [List.length_take, List.length_drop] at hpayload
  have := frame.payload_pos
  omega

theorem unwrapped_vp9 (hfollows : ¬ FrameFollows b.data) (hsize : ¬ SignatureIsSize b.data) :
    Unwrapped b .vp9 fpsNum fpsDen packets := by
  refine ⟨⟨fun hbad => ⟨?_, ?_⟩, ?_⟩, ?_, vplPayload_inside _ _⟩
  · exact fun hnil => hbad (appendVplEncodedPacket_result.mpr (.inl hnil))
  · rintro ⟨payloads, hcontains⟩
    exact hbad (appendVplEncodedPacket_vp9 (hcontains.firstFrame hsize)).1
  · rintro ⟨hne, hnone⟩ hok
    rcases appendVplEncodedPacket_result.mp hok with hnil | ⟨payload, hpayload⟩
    · exact hne hnil
    · exact hnone (contains_of_firstFrame (vplPayload_vp9.mp hpayload).1 hfollows)
  · intro payloads hcontains
    obtain ⟨hok, hpackets⟩ : (appendVplEncodedPacket b .vp9 fpsNum fpsDen packets).1.result = .ok ∧ _ :=
      appendVplEncodedPacket_vp9 (hcontains.firstFrame hsize)
    refine ⟨hok, ?_⟩
    obtain ⟨frame, rest, hbody, rfl⟩ := hcontains.body hsize
    have hpos := frame.payload_pos
    have hrest : rest = [] := by
      cases rest with
      | nil => rfl
      | cons next rest =>
          refine absurd ⟨?_, ?_⟩ hfollows
          · rw [hbody, frame.readLe32_bytes]
            exact hpos
          · rw [hbody, frame.readLe32_bytes, List.length_append, frame.length_bytes, List.flatMap_cons, List.length_append,
              next.length_bytes]
            omega
    rw [hpackets, hbody, frame.readLe32_bytes, frame.drop_bytes, hrest, List.flatMap_nil, List.append_nil, List.take_length]
    rfl

/-- The buffer is handled as it should be exactly if the code looks for the first frame where it is and nothing follows
that frame. -/
theorem unwrapped_iff (b : Bitstream) (codec : Codec) (fpsNum fpsDen : Nat) (packets : List IntelEncodedPacket) :
    Unwrapped b codec fpsNum fpsDen packets ↔
      (codec = .vp9 → ¬ FrameFollows b.data ∧ ¬ SignatureIsSize b.data) := by
  cases codec with
  | av1 => exact ⟨nofun, fun _ => unwrapped_av1⟩
  | vp9 =>
      constructor
      · exact fun h _ => ⟨h.not_frameFollows, h.not_signatureIsSize⟩
      · intro h
        exact unwrapped_vp9 (h rfl).1 (h rfl).2

/-- Two frames with a payload of one byte each. -/
def twoFrames : Bitstream :=
  { data := [1, 0, 0, 0, 0, 0, 0, 0, 0, 0, 0, 0, 7, 1, 0, 0, 0, 0, 0, 0, 0, 0, 0, 0, 0, 8], timeStamp := 0, key := true }

/-- The payload of the second frame is lost, and the buffer is accepted. What follows a frame is accepted as well where it
is no frame at all. -/
theorem second_frame_lost :
    ¬ Unwrapped twoFrames .vp9 30 1 [] ∧
      appendVplEncodedPacket twoFrames .vp9 30 1 [] = (.ok, [⟨[7], 0, true⟩]) ∧
      Contains .vp9 twoFrames.data [[7], [8]] ∧
      (appendVplEncodedPacket ⟨twoFrames.data.take 20, 0, true⟩ .vp9 30 1 []).1 = .ok := by
  refine ⟨fun h => h.not_frameFollows ⟨by decide, by decide⟩, rfl, ?_, rfl⟩
  exact ⟨[], [⟨[1, 0, 0, 0, 0, 0, 0, 0, 0, 0, 0, 0], [7], rfl, rfl, by decide⟩,
    ⟨[1, 0, 0, 0, 0, 0, 0, 0, 0, 0, 0, 0], [8], rfl, rfl, by decide⟩], .inl rfl, by simp, rfl, rfl⟩

end MkvCodec.Backend
