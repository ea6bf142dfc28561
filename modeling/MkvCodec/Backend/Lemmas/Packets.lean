import MkvCodec.Backend.Av1
import MkvCodec.Backend.Vp9
import MkvCodec.Backend.VplSequence

/-!
# From packets to the container

The loops that take packets from a codec, when they succeed: every packet is in the container, in its order and under
the conversion of its time stamp, and nothing else has changed.
-/

namespace MkvCodec.Backend

theorem WebmMuxer.addFrame_ok {m m' : WebmMuxer} {data : List UInt8} {timestampNs durationNs : Nat} {key : Bool}
    {answer : AddAnswer} {status : Status} (h : m.addFrame data timestampNs durationNs key answer = (status, m'))
    (hok : status.result = .ok) : m'.timestamps = m.timestamps ++ [timestampNs] := by
  have hts := m.addFrame_timestamps data timestampNs durationNs key answer
  rw [h, if_pos hok] at hts
  exact hts

/-! ## libvpx -/

/-- The time stamp of a frame packet. -/
def VpxCall.returned : VpxCall → Option Int
  | .getPacket packet => if packet.frame then some packet.pts else none
  | _ => none

def vpxGets (packets : List (VpxPacket × AddAnswer)) : List VpxCall := packets.map fun p => .getPacket p.1

theorem CpuVp9Encoder.collectPackets_ok {packets : List (VpxPacket × AddAnswer)} {e e' : CpuVp9Encoder}
    {status : Status} (h : e.collectPackets packets = (status, e')) (hok : status.result = .ok) :
    e' = { e with muxer := e'.muxer, calls := e.calls ++ vpxGets packets } ∧
      e'.muxer.timestamps =
        e.muxer.timestamps ++ ((vpxGets packets).filterMap VpxCall.returned).map e.timing.toNanoseconds := by
  induction packets generalizing e with
  | nil =>
      cases h
      simp [vpxGets]
  | cons p rest ih =>
      obtain ⟨packet, answer⟩ := p
      unfold collectPackets at h
      dsimp only at h
      split at h
      case isTrue hframe =>
        have hnot : packet.frame = false := by simpa using hframe
        obtain ⟨hrest, hts⟩ := ih h
        constructor
        · rw [hrest]
          simp [vpxGets, call]
        · rw [hts]
          simp [vpxGets, VpxCall.returned, hnot, call]
      case isFalse hframe =>
        have hframe' : packet.frame = true := by simpa using hframe
        cases hadd : (e.call (.getPacket packet)).muxer.addFrame packet.data
            ((e.call (.getPacket packet)).timing.toNanoseconds packet.pts)
            (e.call (.getPacket packet)).timing.durationNanoseconds packet.key answer with
        | mk added muxer =>
          rw [hadd] at h
          dsimp only at h
          split at h
          · rename_i hbad
            cases h
            exact absurd hok hbad
          · rename_i hgood
            have hone := WebmMuxer.addFrame_ok hadd (not_not.mp hgood)
            obtain ⟨hrest, hts⟩ := ih h
            constructor
            · rw [hrest]
              simp [vpxGets, call]
            · rw [hts, hone]
              simp [vpxGets, VpxCall.returned, hframe', call]

/-! ## SVT-AV1 -/

/-- The time stamp of a packet that carries something. -/
def SvtCall.returned : SvtCall → Option Int
  | .getPacket packet => if packet.data.isEmpty then none else some packet.pts
  | _ => none

theorem CpuAv1Encoder.collectPackets_ok {packets : List SvtAnswer} {failed : Bool} {e e' : CpuAv1Encoder}
    {status : Status} (h : e.collectPackets failed packets = (status, e')) (hok : status.result = .ok) :
    ∃ gets : List SvtPacket,
      e' = { e with muxer := e'.muxer, calls := e.calls ++ gets.map .getPacket } ∧
        e'.muxer.timestamps =
          e.muxer.timestamps ++ ((gets.map .getPacket).filterMap SvtCall.returned).map e.timing.toNanoseconds := by
  induction packets generalizing e with
  | nil =>
      unfold collectPackets at h
      split at h
      · cases h
        cases hok
      · cases h
        exact ⟨[], by simp⟩
  | cons p rest ih =>
      obtain ⟨packet, answer⟩ := p
      unfold collectPackets at h
      dsimp only at h
      split at h
      case isTrue hempty =>
        split at h
        · cases h
          exact ⟨[packet], by simp [call, SvtCall.returned, hempty]⟩
        · obtain ⟨gets, hrest, hts⟩ := ih h
          apply Exists.intro (packet :: gets)
          constructor
          · rw [hrest]
            simp [call]
          · rw [hts]
            simp [SvtCall.returned, hempty, call]
      case isFalse hempty =>
        cases hadd : (e.call [.getPacket packet]).muxer.addFrame packet.data
            ((e.call [.getPacket packet]).timing.toNanoseconds packet.pts)
            (e.call [.getPacket packet]).timing.durationNanoseconds packet.key answer with
        | mk added muxer =>
          rw [hadd] at h
          dsimp only at h
          split at h
          · rename_i hbad
            cases h
            exact absurd hok hbad
          · rename_i hgood
            have hone := WebmMuxer.addFrame_ok hadd (not_not.mp hgood)
            split at h
            · cases h
              apply Exists.intro [packet]
              constructor
              · simp [call]
              · rw [hone]
                simp [SvtCall.returned, hempty, call]
            · obtain ⟨gets, hrest, hts⟩ := ih h
              apply Exists.intro (packet :: gets)
              constructor
              · rw [hrest]
                simp [call]
              · rw [hts, hone]
                simp [SvtCall.returned, hempty, call]

/-! ## oneVPL -/

theorem VplPacketMuxer.write_ok {adds : Nat → AddAnswer} {packets : List IntelEncodedPacket} {m m' : VplPacketMuxer}
    {status : Status} (h : m.write adds packets = (status, m')) (hok : status.result = .ok) :
    m' = { m with muxer := m'.muxer } ∧
      m'.muxer.timestamps =
        m.muxer.timestamps ++ packets.map fun packet => toNanoseconds m.fpsNum m.fpsDen packet.pts := by
  induction packets generalizing m with
  | nil =>
      cases h
      simp
  | cons packet rest ih =>
      unfold write at h
      cases hadd : m.muxer.addFrame packet.data (toNanoseconds m.fpsNum m.fpsDen packet.pts)
          (durationNanoseconds m.fpsNum m.fpsDen) packet.key (adds rest.length) with
      | mk added muxer =>
        rw [hadd] at h
        dsimp only at h
        split at h
        · rename_i hbad
          cases h
          exact absurd hok hbad
        · rename_i hgood
          have hone := WebmMuxer.addFrame_ok hadd (not_not.mp hgood)
          obtain ⟨hrest, hts⟩ := ih h
          constructor
          · rw [hrest]
          · rw [hts, hone]
            simp

end MkvCodec.Backend
