import Mathlib.Data.Nat.Basic
import MkvCodec.Api.Result

/-!
# Parsed containers

A Matroska or WebM segment as libwebm exposes it, the packet reader of `webm_packet_reader.cpp`, and the track and the
frame count of `input_video_probe.cpp`. The frame rate and the duration that the probe reports are left out.
-/

namespace MkvCodec.Container

/-! ## What libwebm exposes -/

/-- `mkvparser::Block::Frame`: its length, the bytes at its place in the file, and whether they can be read. -/
structure BlockFrame where
  len : Int
  data : List UInt8
  readable : Bool

/-- `mkvparser::Block`, with its time in nanoseconds. -/
structure Block where
  trackNumber : Int
  time : Int
  frames : List BlockFrame

/-- A pointer to a block entry, with the entries that `GetNext` leads to: the null pointer, an entry behind the last one,
or an entry, whose block may be missing and from which `GetNext` may fail. -/
inductive Entries
  | null
  | eos
  | entry (block : Option Block) (advances : Bool) (next : Entries)

/-- A pointer to a cluster, with the clusters behind it. `opens` says whether its `GetFirst` succeeds. -/
inductive Clusters
  | null
  | eos
  | cluster (opens : Bool) (first : Entries) (next : Clusters)

/-- `mkvparser::Track`. Track numbers are positive, since libwebm rejects other ones. -/
structure Track where
  isVideo : Bool
  codecId : Option String
  number : Int
  width : Int
  height : Int
  number_pos : 0 < number

/-- `mkvparser::Segment` behind its `Load`. -/
structure Segment where
  tracks : Option (List (Option Track))
  clusters : Clusters

/-- `mkvc_codec`. -/
inductive VideoCodec
  | auto
  | vp9
  | av1
  | unknown (code : Nat)
  deriving DecidableEq

/-! ## Limits -/

def kMaxTracks : Nat := 1024

def kMaxDimension : Nat := 32768

def kMaxPixels : Nat := 268435456

def kMaxPacketBytes : Nat := 256 * 1024 * 1024

def validDimensions (width height : Int) : Bool :=
  if width ≤ 0 ∨ height ≤ 0 ∨ kMaxDimension < width.toNat ∨ kMaxDimension < height.toNat then false
  else decide (width.toNat ≤ kMaxPixels / height.toNat)

/-! ## The packet reader -/

/-- `EncodedPacket`. -/
structure EncodedPacket where
  data : List UInt8
  ptsNs : Int
  deriving DecidableEq

/-- `WebmPacketReader::Impl`. -/
structure PacketReader where
  cluster : Clusters
  blockEntry : Entries
  blockFrameIndex : Nat
  videoTrack : Int

def VideoCodec.requested : VideoCodec → String
  | .vp9 => "V_VP9"
  | _ => "V_AV1"

def Track.carries (codecId : String) (track : Track) : Bool := track.isVideo && decide (track.codecId = some codecId)

/-- `WebmPacketReader::open`, from the loaded segment on. -/
def openReader (segment : Segment) (codec : VideoCodec) : Except String PacketReader :=
  if codec ≠ .vp9 ∧ codec ≠ .av1 then .error "packet reader requires VP9 or AV1"
  else
    match segment.tracks with
    | none => .error "input contains no tracks"
    | some tracks =>
        if kMaxTracks < tracks.length then .error "input contains too many tracks"
        else
          match tracks.findSome? fun track => track.filter (Track.carries codec.requested) with
          | none => .error "input has no requested VP9/AV1 video track"
          | some track =>
              if track.number = 0 then .error "input has no requested VP9/AV1 video track"
              else if validDimensions track.width track.height then .ok ⟨segment.clusters, .null, 0, track.number⟩
              else .error "input video dimensions are invalid"

/-- A frame of the selected track. -/
def readFrame (block : Block) (source : BlockFrame) : Except Status EncodedPacket :=
  if source.len ≤ 0 ∨ kMaxPacketBytes < source.len.toNat then .error ⟨.errorIo, "invalid encoded frame size"⟩
  else if source.readable then .ok ⟨source.data, block.time⟩
  else .error ⟨.errorIo, "failed to read encoded frame"⟩

/-- What is left of a block of the selected track. -/
def pendingFrame (track : Int) (block : Option Block) (index : Nat) : Option (Block × BlockFrame) := do
  let block ← block
  if block.trackNumber = track then
    let source ← block.frames[index]?
    some (block, source)
  else none

/-- The loop of `read` over the entries of a cluster: what it returns, with the cursor, or none when it ends. -/
def readEntries (track : Int) : Entries → Nat → Option (Except Status EncodedPacket × Entries × Nat)
  | .null, _ => none
  | .eos, _ => none
  | .entry block advances next, index =>
      match pendingFrame track block index with
      | some (block', source) => some (readFrame block' source, .entry block advances next, index + 1)
      | none =>
          if advances then readEntries track next 0
          else some (.error ⟨.errorIo, "failed to advance cluster block"⟩, .entry block advances next, index)

def endOfStream : Except Status EncodedPacket := .error ⟨.endOfStream, ""⟩

/-- The loop of `read` over the clusters. -/
def readClusters (track : Int) : Clusters → Entries → Nat → Except Status EncodedPacket × PacketReader
  | .null, blockEntry, index => (endOfStream, ⟨.null, blockEntry, index, track⟩)
  | .eos, blockEntry, index => (endOfStream, ⟨.eos, blockEntry, index, track⟩)
  | .cluster opens first next, blockEntry, index =>
      let cursor : Option (Entries × Nat) :=
        match blockEntry with
        | .null => if opens then some (first, 0) else none
        | entry => some (entry, index)
      match cursor with
      | none => (.error ⟨.errorIo, "failed to read first cluster block"⟩, ⟨.cluster opens first next, .null, index, track⟩)
      | some (entry, index) =>
          match readEntries track entry index with
          | some (result, entry', index') => (result, ⟨.cluster opens first next, entry', index', track⟩)
          | none => readClusters track next .null index

/-- `WebmPacketReader::read`. -/
def PacketReader.read (reader : PacketReader) : Except Status EncodedPacket × PacketReader :=
  readClusters reader.videoTrack reader.cluster reader.blockEntry reader.blockFrameIndex

/-- Repeated reads. -/
def PacketReader.reads (reader : PacketReader) : Nat → List (Except Status EncodedPacket)
  | 0 => []
  | n + 1 => reader.read.1 :: reader.read.2.reads n

/-! ## The probe -/

/-- The part of `mkvc_video_info` that the probe reads off the tracks and the clusters. -/
structure VideoInfo where
  codec : VideoCodec
  width : Nat
  height : Nat
  frameCount : Nat

/-- The loop of `count_frames` over the entries of a cluster. -/
def countEntries (track : Int) : Entries → Nat → Except Status Nat
  | .null, count => .ok count
  | .eos, count => .ok count
  | .entry block advances next, count =>
      let counted : Except Status Nat :=
        match block with
        | none => .ok count
        | some block =>
            if block.trackNumber = track then
              if 2 ^ 64 - 1 - block.frames.length < count then .error ⟨.errorIo, "invalid video frame count"⟩
              else .ok (count + block.frames.length)
            else .ok count
      match counted with
      | .error status => .error status
      | .ok count =>
          if advances then countEntries track next count else .error ⟨.errorIo, "failed to inspect cluster blocks"⟩

/-- `count_frames`. -/
def countFrames (track : Int) : Clusters → Nat → Except Status Nat
  | .null, count => .ok count
  | .eos, count => .ok count
  | .cluster opens first next, count =>
      if opens then
        match countEntries track first count with
        | .error status => .error status
        | .ok count => countFrames track next count
      else .error ⟨.errorIo, "failed to inspect first cluster block"⟩

/-- The codec of a track that the probe selects. -/
def Track.probedCodec (track : Track) : VideoCodec :=
  if track.isVideo then
    match track.codecId with
    | none => .auto
    | some codecId => if codecId = "V_AV1" then .av1 else if codecId = "V_VP9" then .vp9 else .auto
  else .auto

/-- The loop of `probe_input_video` over the tracks. -/
def selectTrack (tracks : List (Option Track)) : Option Track :=
  tracks.findSome? fun track => track.filter fun track => decide (track.probedCodec ≠ .auto)

/-- `probe_input_video`, from the loaded segment on. -/
def probeInputVideo (segment : Segment) : Except Status VideoInfo :=
  match segment.tracks with
  | none => .error ⟨.errorNotSupported, "input contains no tracks"⟩
  | some tracks =>
      if kMaxTracks < tracks.length then .error ⟨.errorIo, "input contains too many tracks"⟩
      else
        match selectTrack tracks with
        | none => .error ⟨.errorNotSupported, "input has no supported VP9/AV1 video track"⟩
        | some track =>
            if validDimensions track.width track.height then
              match countFrames track.number segment.clusters 0 with
              | .error status => .error status
              | .ok count => .ok ⟨track.probedCodec, track.width.toNat, track.height.toNat, count⟩
            else .error ⟨.errorIo, "input video dimensions are invalid"⟩

end MkvCodec.Container
