import MkvCodec.Container.Segment

/-!
# The packets of a track

The reader and the probe go through the same frames: those of the blocks of the track, in the order of the file.
-/

namespace MkvCodec.Container

/-! ## The frames of a track -/

def blockPackets (track : Int) : Option Block → List EncodedPacket
  | none => []
  | some block => if block.trackNumber = track then block.frames.map fun source => ⟨source.data, block.time⟩ else []

def Entries.packets (track : Int) : Entries → List EncodedPacket
  | .null => []
  | .eos => []
  | .entry block _ next => blockPackets track block ++ next.packets track

def Clusters.packets (track : Int) : Clusters → List EncodedPacket
  | .null => []
  | .eos => []
  | .cluster _ first next => first.packets track ++ next.packets track

/-- A frame of a valid size that can be read. -/
structure BlockFrame.Valid (source : BlockFrame) : Prop where
  pos : 0 < source.len
  le : source.len.toNat ≤ kMaxPacketBytes
  readable : source.readable = true

def Entries.Clean : Entries → Prop
  | .null => True
  | .eos => True
  | .entry block advances next =>
      advances = true ∧ (∀ b, block = some b → ∀ source ∈ b.frames, source.Valid) ∧ next.Clean

def Clusters.Clean : Clusters → Prop
  | .null => True
  | .eos => True
  | .cluster opens first next => opens = true ∧ first.Clean ∧ next.Clean

/-! ## One read -/

/-- What is left of a cluster behind a cursor. -/
def Entries.packetsFrom (track : Int) : Entries → Nat → List EncodedPacket
  | .null, _ => []
  | .eos, _ => []
  | .entry block _ next, index => (blockPackets track block).drop index ++ next.packets track

theorem Entries.packetsFrom_zero (track : Int) (entries : Entries) :
    entries.packetsFrom track 0 = entries.packets track := by
  cases entries with
  | entry block advances next => simp [packetsFrom, packets]
  | _ => rfl

theorem pendingFrame_none {track : Int} {block : Option Block} {index : Nat} (h : pendingFrame track block index = none) :
    (blockPackets track block).drop index = [] := by
  cases block with
  | none => simp [blockPackets]
  | some block =>
      by_cases htrack : block.trackNumber = track
      · cases hget : block.frames[index]? with
        | none => simp [blockPackets, htrack, List.getElem?_eq_none_iff.mp hget]
        | some source => simp [pendingFrame, htrack, hget] at h
      · simp [blockPackets, htrack]

theorem pendingFrame_some {track : Int} {block : Option Block} {index : Nat} {b : Block} {source : BlockFrame}
    (h : pendingFrame track block index = some (b, source)) :
    block = some b ∧ source ∈ b.frames ∧
      (blockPackets track block).drop index = ⟨source.data, b.time⟩ :: (blockPackets track block).drop (index + 1) := by
  cases block with
  | none => cases h
  | some block =>
      by_cases htrack : block.trackNumber = track
      · simp only [pendingFrame, bind, Option.bind, if_pos htrack] at h
        cases hget : block.frames[index]? with
        | none => simp [hget] at h
        | some source' =>
            simp only [hget, Option.some.injEq, Prod.mk.injEq] at h
            obtain ⟨rfl, rfl⟩ := h
            obtain ⟨hlt, hat⟩ := List.getElem?_eq_some_iff.mp hget
            refine ⟨rfl, List.mem_of_getElem? hget, ?_⟩
            simp only [blockPackets, if_pos htrack]
            rw [List.drop_eq_getElem_cons (by simpa using hlt)]
            simp [hat]
      · simp [pendingFrame, htrack] at h

theorem readFrame_valid {block : Block} {source : BlockFrame} (h : source.Valid) :
    readFrame block source = .ok ⟨source.data, block.time⟩ := by
  have hsize : ¬ (source.len ≤ 0 ∨ kMaxPacketBytes < source.len.toNat) := by
    have := h.pos
    have := h.le
    omega
  rw [readFrame, if_neg hsize, if_pos h.readable]

/-- The loop over the entries ends when nothing is left of the cluster, and returns the next packet otherwise. -/
theorem readEntries_clean (track : Int) {entries : Entries} (h : entries.Clean) (index : Nat) :
    (entries.packetsFrom track index = [] ∧ readEntries track entries index = none) ∨
      ∃ packet left block advances next index', entries.packetsFrom track index = packet :: left ∧
        readEntries track entries index = some (.ok packet, .entry block advances next, index') ∧
        (Entries.entry block advances next).packetsFrom track index' = left ∧
        (Entries.entry block advances next).Clean := by
  induction entries generalizing index with
  | null => exact .inl ⟨rfl, rfl⟩
  | eos => exact .inl ⟨rfl, rfl⟩
  | entry block advances next ih =>
      obtain ⟨hadvances, hvalid, hnext⟩ := h
      cases hpending : pendingFrame track block index with
      | some found =>
          obtain ⟨b, source⟩ := found
          obtain ⟨hblock, hmem, hdrop⟩ := pendingFrame_some hpending
          refine .inr ⟨⟨source.data, b.time⟩, (Entries.entry block advances next).packetsFrom track (index + 1), block,
            advances, next, index + 1, ?_, ?_, rfl, hadvances, hvalid, hnext⟩
          · rw [Entries.packetsFrom, hdrop, List.cons_append]
            rfl
          · rw [readEntries, hpending]
            simp only [readFrame_valid (hvalid b hblock source hmem)]
      | none =>
          have hleft : (Entries.entry block advances next).packetsFrom track index = next.packetsFrom track 0 := by
            rw [Entries.packetsFrom, pendingFrame_none hpending, List.nil_append, Entries.packetsFrom_zero]
          have hread : readEntries track (.entry block advances next) index = readEntries track next 0 := by
            rw [readEntries, hpending]
            exact if_pos hadvances
          rw [hleft, hread]
          exact ih hnext 0

namespace PacketReader

/-- What a reader has still to return. -/
def remaining (reader : PacketReader) : List EncodedPacket :=
  match reader.cluster with
  | .cluster _ first next =>
      (match reader.blockEntry with
        | .null => first.packets reader.videoTrack
        | entry => entry.packetsFrom reader.videoTrack reader.blockFrameIndex) ++ next.packets reader.videoTrack
  | _ => []

structure Clean (reader : PacketReader) : Prop where
  cluster : reader.cluster.Clean
  blockEntry : reader.blockEntry.Clean

end PacketReader

/-- A read that reports the next packet, or the end. -/
inductive Advances (reader : PacketReader) : Except Status EncodedPacket × PacketReader → Prop
  | packet {packet reader'} (hleft : reader.remaining = packet :: reader'.remaining) (hclean : reader'.Clean) :
      Advances reader (.ok packet, reader')
  | ended {reader'} (hleft : reader.remaining = []) (hleft' : reader'.remaining = []) (hclean : reader'.Clean) :
      Advances reader (endOfStream, reader')

theorem readClusters_advances {track : Int} {clusters : Clusters} {blockEntry : Entries} {index : Nat}
    (hclusters : clusters.Clean) (hentry : blockEntry.Clean) :
    Advances ⟨clusters, blockEntry, index, track⟩ (readClusters track clusters blockEntry index) := by
  induction clusters generalizing blockEntry index with
  | null => exact .ended rfl rfl ⟨trivial, hentry⟩
  | eos => exact .ended rfl rfl ⟨trivial, hentry⟩
  | cluster opens first next ih =>
      obtain ⟨rfl, hfirst, hnext⟩ := hclusters
      -- The cursor inside the cluster, wherever it came from.
      have hcursor (entry : Entries) (index' : Nat) (hclean : entry.Clean)
          (hleft : (⟨.cluster true first next, blockEntry, index, track⟩ : PacketReader).remaining =
            entry.packetsFrom track index' ++ next.packets track)
          (hbehind : readEntries track entry index' = none →
            readClusters track (.cluster true first next) blockEntry index = readClusters track next .null index')
          (hread : ∀ result entry' index'', readEntries track entry index' = some (result, entry', index'') →
            readClusters track (.cluster true first next) blockEntry index =
              (result, ⟨.cluster true first next, entry', index'', track⟩)) :
          Advances ⟨.cluster true first next, blockEntry, index, track⟩
            (readClusters track (.cluster true first next) blockEntry index) := by
        rcases readEntries_clean track hclean index' with
          ⟨hempty, hnone⟩ | ⟨packet, left, block, advances, next', index'', hpackets, hsome, hrest, hclean'⟩
        · rw [hbehind hnone]
          have hsame : (⟨.cluster true first next, blockEntry, index, track⟩ : PacketReader).remaining =
              (⟨next, .null, index', track⟩ : PacketReader).remaining := by
            rw [hleft, hempty, List.nil_append]
            cases next <;> rfl
          have hadvances := @ih .null index' hnext trivial
          generalize readClusters track next .null index' = out at hadvances
          cases hadvances with
          | packet hnext' hclean'' => exact .packet (hsame.trans hnext') hclean''
          | ended hnext' hend hclean'' => exact .ended (hsame.trans hnext') hend hclean''
        · rw [hread _ _ _ hsome]
          refine .packet ?_ ⟨⟨rfl, hfirst, hnext⟩, hclean'⟩
          rw [hleft, hpackets, ← hrest]
          rfl
      cases blockEntry with
      | null =>
          refine hcursor first 0 hfirst ?_ (fun hnone => ?_) fun result entry' index'' hsome => ?_
          · rw [Entries.packetsFrom_zero]
            rfl
          · simp only [readClusters, ↓reduceIte, hnone]
          · simp only [readClusters, ↓reduceIte, hsome]
      | eos =>
          refine hcursor .eos index trivial rfl (fun hnone => ?_) fun result entry' index'' hsome => ?_
          · simp only [readClusters, hnone]
          · simp only [readClusters, hsome]
      | entry block advances next' =>
          refine hcursor _ index hentry rfl (fun hnone => ?_) fun result entry' index'' hsome => ?_
          · simp only [readClusters, hnone]
          · simp only [readClusters, hsome]

theorem PacketReader.Clean.reads {reader : PacketReader} (h : reader.Clean) (n : Nat) :
    reader.reads n = (reader.remaining.map Except.ok ++ List.replicate n endOfStream).take n := by
  induction n generalizing reader with
  | zero => rfl
  | succ n ih =>
      have hread : Advances reader reader.read := readClusters_advances h.cluster h.blockEntry
      rw [PacketReader.reads]
      generalize reader.read = out at hread
      cases hread with
      | packet hleft hclean =>
          rw [ih hclean, hleft, List.map_cons, List.cons_append, List.take_succ_cons]
          simp only [List.take_append, List.take_replicate]
          congr 2
          congr 1
          omega
      | ended hleft hleft' hclean =>
          rw [ih hclean, hleft, hleft', List.map_nil, List.nil_append, List.nil_append, List.replicate_succ,
            List.take_succ_cons]

/-! ## The frame count -/

theorem countEntries_entry {track : Int} {block : Option Block} {advances : Bool} {next : Entries} {count total : Nat}
    (h : countEntries track (.entry block advances next) count = .ok total) :
    countEntries track next (count + (blockPackets track block).length) = .ok total := by
  cases advances with
  | false =>
      simp only [countEntries, Bool.false_eq_true, if_false] at h
      split at h <;> cases h
  | true =>
      simp only [countEntries, if_true] at h
      cases block with
      | none => exact h
      | some block =>
          by_cases htrack : block.trackNumber = track
          · by_cases hover : 2 ^ 64 - 1 - block.frames.length < count
            · simp only [if_pos htrack, if_pos hover] at h
              cases h
            · simp only [if_pos htrack, if_neg hover] at h
              simpa [blockPackets, htrack] using h
          · simp only [if_neg htrack] at h
            simpa [blockPackets, htrack] using h

theorem countEntries_ok {track : Int} {entries : Entries} {count total : Nat}
    (h : countEntries track entries count = .ok total) : total = count + (entries.packets track).length := by
  induction entries generalizing count with
  | null => cases h; rfl
  | eos => cases h; rfl
  | entry block advances next ih =>
      rw [ih (countEntries_entry h), Entries.packets, List.length_append, Nat.add_assoc]

theorem countFrames_ok {track : Int} {clusters : Clusters} {count total : Nat}
    (h : countFrames track clusters count = .ok total) : total = count + (clusters.packets track).length := by
  induction clusters generalizing count with
  | null => cases h; rfl
  | eos => cases h; rfl
  | cluster opens first next ih =>
      rw [countFrames] at h
      cases opens with
      | false => simp at h
      | true =>
          cases hfirst : countEntries track first count with
          | error status => simp [hfirst] at h
          | ok counted =>
              simp only [if_true, hfirst] at h
              rw [ih h, countEntries_ok hfirst, Clusters.packets, List.length_append, Nat.add_assoc]

/-! ## The selected track -/

theorem Track.carries_of_probed {track : Track} (h : track.probedCodec ≠ .auto) :
    track.carries track.probedCodec.requested = true ∧ (track.probedCodec = .vp9 ∨ track.probedCodec = .av1) := by
  rw [probedCodec] at h ⊢
  rw [carries]
  cases hvideo : track.isVideo with
  | false => simp [hvideo] at h
  | true =>
      cases hid : track.codecId with
      | none => simp [hvideo, hid] at h
      | some codecId =>
          simp only [hvideo, hid, if_true] at h ⊢
          by_cases hav1 : codecId = "V_AV1"
          · simp [hav1, VideoCodec.requested]
          · by_cases hvp9 : codecId = "V_VP9"
            · simp [hvp9, VideoCodec.requested]
            · simp [hav1, hvp9] at h

theorem Track.probed_of_carries {track : Track} {codec : VideoCodec} (hcodec : codec = .vp9 ∨ codec = .av1)
    (h : track.carries codec.requested = true) : track.probedCodec ≠ .auto := by
  simp only [carries, Bool.and_eq_true, decide_eq_true_eq] at h
  rw [probedCodec, if_pos h.1, h.2]
  rcases hcodec with rfl | rfl <;> decide

/-- The first track of the codec of the probe's track is the probe's track. -/
theorem find_selected {tracks : List (Option Track)} {track : Track} (h : selectTrack tracks = some track) :
    tracks.findSome? (fun t => t.filter (Track.carries track.probedCodec.requested)) = some track ∧
      (track.probedCodec = .vp9 ∨ track.probedCodec = .av1) := by
  induction tracks with
  | nil => cases h
  | cons t tracks ih =>
      rw [selectTrack, List.findSome?_cons] at h
      rw [List.findSome?_cons]
      cases t with
      | none => exact ih h
      | some t =>
          by_cases hprobed : t.probedCodec ≠ .auto
          · have ht : t = track := by simpa [Option.filter, hprobed] using h
            subst ht
            obtain ⟨hcarries, hcodec⟩ := t.carries_of_probed hprobed
            simp [Option.filter, hcarries, hcodec]
          · have hskip : (some t).filter (fun track => decide (track.probedCodec ≠ .auto)) = none := by
              simp [Option.filter, hprobed]
            have hrest : selectTrack tracks = some track := by
              rw [hskip] at h
              exact h
            obtain ⟨hfind, hcodec⟩ := ih hrest
            have hno : t.carries track.probedCodec.requested = false := by
              by_contra hcarries
              exact hprobed (t.probed_of_carries hcodec (by simpa using hcarries))
            simp only [Option.filter, hno]
            exact ⟨hfind, hcodec⟩

/-- The reader opened with the codec of the probe reads the frames that the probe has counted, and then reports the end. -/
theorem probe_read_agree {segment : Segment} {info : VideoInfo} (hprobe : probeInputVideo segment = .ok info)
    (hclean : segment.clusters.Clean) :
    ∃ tracks track reader, segment.tracks = some tracks ∧ selectTrack tracks = some track ∧
      openReader segment info.codec = .ok reader ∧ reader.videoTrack = track.number ∧
      (∀ n, reader.reads n =
        ((segment.clusters.packets track.number).map Except.ok ++
          List.replicate n endOfStream).take n) ∧
      info.frameCount = (segment.clusters.packets track.number).length := by
  rw [probeInputVideo] at hprobe
  cases htracks : segment.tracks with
  | none => simp [htracks] at hprobe
  | some tracks =>
      simp only [htracks] at hprobe
      by_cases hmany : kMaxTracks < tracks.length
      · simp [hmany] at hprobe
      cases hselect : selectTrack tracks with
      | none => simp [hmany, hselect] at hprobe
      | some track =>
          simp only [if_neg hmany, hselect] at hprobe
          by_cases hdim : validDimensions track.width track.height = true
          case neg => simp [hdim] at hprobe
          cases hcount : countFrames track.number segment.clusters 0 with
          | error status => simp [hdim, hcount] at hprobe
          | ok count =>
              simp only [if_pos hdim, hcount, Except.ok.injEq] at hprobe
              subst hprobe
              obtain ⟨hfind, hcodec⟩ := find_selected hselect
              have hopen : openReader segment track.probedCodec = .ok ⟨segment.clusters, .null, 0, track.number⟩ := by
                have hsupported : ¬ (track.probedCodec ≠ .vp9 ∧ track.probedCodec ≠ .av1) := by
                  rcases hcodec with h | h <;> simp [h]
                have hnumber : ¬ track.number = 0 := by
                  have := track.number_pos
                  omega
                rw [openReader, if_neg hsupported, htracks]
                simp only [if_neg hmany, hfind, if_neg hnumber, if_pos hdim]
              have hreader : (⟨segment.clusters, .null, 0, track.number⟩ : PacketReader).Clean := ⟨hclean, trivial⟩
              have hleft : (⟨segment.clusters, .null, 0, track.number⟩ : PacketReader).remaining =
                  segment.clusters.packets track.number := by
                cases segment.clusters <;> rfl
              refine ⟨tracks, track, _, rfl, hselect, hopen, rfl, fun n => ?_, ?_⟩
              · rw [hreader.reads, hleft]
              · simpa using countFrames_ok hcount

/-- A segment with an empty cluster, a foreign block and a block of two frames. -/
def smallSegment : Segment where
  tracks := some [none, some ⟨false, none, 7, 0, 0, by decide⟩, some ⟨true, some "V_VP9", 1, 16, 16, by decide⟩]
  clusters := .cluster true .null (.cluster true
    (.entry (some ⟨7, 0, [⟨1, [9], true⟩]⟩) true (.entry (some ⟨1, 5, [⟨1, [1], true⟩, ⟨1, [2], true⟩]⟩) true .eos)) .eos)

theorem probe_read_agree_small : ∃ tracks track reader, smallSegment.tracks = some tracks ∧
    selectTrack tracks = some track ∧ openReader smallSegment .vp9 = .ok reader ∧ reader.videoTrack = track.number ∧
    (∀ n, reader.reads n = ((smallSegment.clusters.packets track.number).map Except.ok ++
      List.replicate n endOfStream).take n) ∧
    2 = (smallSegment.clusters.packets track.number).length := by
  refine @probe_read_agree smallSegment ⟨.vp9, 16, 16, 2⟩ rfl ?_
  refine ⟨rfl, trivial, rfl, ⟨rfl, ?_, rfl, ?_, trivial⟩, trivial⟩
  all_goals
    rintro b ⟨⟩ source hsource
    simp only [List.mem_cons, List.not_mem_nil, or_false] at hsource
  · subst hsource
    exact ⟨by decide, by decide, rfl⟩
  · rcases hsource with rfl | rfl <;> exact ⟨by decide, by decide, rfl⟩

end MkvCodec.Container
