import MkvCodec.Backend.CpuFeeds
import MkvCodec.Backend.Lemmas.Vpl

/-!
# The Intel encoder as a feed

The surfaces that the hardware encoders of a sequence take, and the bitstreams that they give, one encoder after the
other. A frame from the GPU asks for no time of its own, whatever its descriptor says.
-/

namespace MkvCodec.Backend

open VplEncoderQueue (Gives)

namespace VplEncoderSequence

/-- The encoders of the sequence, in the order of their creation. -/
def encoders (s : VplEncoderSequence) : List IntelVplEncoder := s.retired ++ s.encoder.toList

def surfaces (s : VplEncoderSequence) : List Nat := s.encoders.flatMap fun e => e.queue.surfaces

def bitstreams (s : VplEncoderSequence) : List Bitstream := s.encoders.flatMap fun e => e.queue.bitstreams

variable {fpsNum fpsDen : Nat} {s s' s'' : VplEncoderSequence} {e e' : IntelVplEncoder} {status : Status}
variable {packets packets' : List IntelEncodedPacket} {taken taken' : List Nat}

/-- The sequence and its encoder are configured with the frame rate `fpsNum / fpsDen`. -/
structure Rated (fpsNum fpsDen : Nat) (s : VplEncoderSequence) : Prop where
  num : s.config.fpsNum = fpsNum
  den : s.config.fpsDen = fpsDen
  encoder : ∀ e, s.encoder = some e → e.Rated fpsNum fpsDen

structure Adds (fpsNum fpsDen : Nat) (s s' : VplEncoderSequence) (taken : List Nat) (packets : List IntelEncodedPacket) :
    Prop where
  surfaces : s'.surfaces = s.surfaces ++ taken
  bitstreams : ∃ bs, s'.bitstreams = s.bitstreams ++ bs ∧
    packets.map IntelEncodedPacket.pts = (stamps bs).map (vplPts fpsNum fpsDen)

/-- Encoders that have taken and given the same. -/
theorem Adds.of_eq (hsurfaces : s'.surfaces = s.surfaces) (hbitstreams : s'.bitstreams = s.bitstreams) :
    Adds fpsNum fpsDen s s' [] [] := ⟨by simp [hsurfaces], [], by simp [hbitstreams]⟩

theorem Adds.trans (h : Adds fpsNum fpsDen s s' taken packets) (h' : Adds fpsNum fpsDen s' s'' taken' packets') :
    Adds fpsNum fpsDen s s'' (taken ++ taken') (packets ++ packets') := by
  obtain ⟨bs, hbs, hpackets⟩ := h.bitstreams
  obtain ⟨bs', hbs', hpackets'⟩ := h'.bitstreams
  constructor
  · rw [h'.surfaces, h.surfaces, List.append_assoc]
  · apply Exists.intro (bs ++ bs')
    constructor
    · rw [hbs', hbs, List.append_assoc]
    · rw [List.map_append, hpackets, hpackets', stamps_append, List.map_append]

theorem Adds.same (h : Adds fpsNum fpsDen s s' taken packets) (h' : Adds fpsNum fpsDen s' s'' [] []) :
    Adds fpsNum fpsDen s s'' taken packets := by simpa using h.trans h'

/-- The encoder of the sequence moves, and the rest stays. -/
theorem Adds.of_gives (hrated : e.Rated fpsNum fpsDen) (hgives : Gives e.queue e'.queue taken packets)
    (he : s.encoder = some e) (he' : s'.encoder = some e') (hretired : s'.retired = s.retired) :
    Adds fpsNum fpsDen s s' taken packets := by
  obtain ⟨bs, hbs, hpackets⟩ := hgives.bitstreams
  rw [hrated.queueNum, hrated.queueDen] at hpackets
  constructor
  · simp [VplEncoderSequence.surfaces, encoders, he, he', hretired, hgives.surfaces]
  · exact ⟨bs, by simp [VplEncoderSequence.bitstreams, encoders, he, he', hretired, hbs], hpackets⟩

theorem destroyEncoder_adds (s : VplEncoderSequence) (statuses : Nat → Int) :
    Adds fpsNum fpsDen s (s.destroyEncoder statuses) [] [] := by
  cases he : s.encoder with
  | none =>
      apply Adds.of_eq
      · simp [destroyEncoder, he]
      · simp [destroyEncoder, he]
  | some e =>
      have hclose : (e.close statuses).queue.surfaces = e.queue.surfaces ∧
          (e.close statuses).queue.bitstreams = e.queue.bitstreams := by
        unfold IntelVplEncoder.close
        split
        · exact ⟨rfl, rfl⟩
        · exact e.queue.close_bitstreams statuses
      apply Adds.of_eq
      · simp [destroyEncoder, VplEncoderSequence.surfaces, encoders, he, hclose.1]
      · simp [destroyEncoder, VplEncoderSequence.bitstreams, encoders, he, hclose.2]

theorem destroyEncoder_rated (h : Rated fpsNum fpsDen s) (statuses : Nat → Int) :
    Rated fpsNum fpsDen (s.destroyEncoder statuses) := by
  unfold destroyEncoder
  split
  · exact h
  · exact ⟨h.num, h.den, nofun⟩

theorem destroyEncoder_nextPts (s : VplEncoderSequence) (statuses : Nat → Int) :
    (s.destroyEncoder statuses).nextPts = s.nextPts := by
  unfold destroyEncoder
  split <;> rfl

/-! ## Writes -/

theorem writeNv12_rated (h : Rated fpsNum fpsDen s) {input : Nv12Input} {requestedPts : Int} {answer : CpuSubmitAnswer}
    (hwrite : s.writeNv12 input requestedPts answer = some (status, packets, s')) : Rated fpsNum fpsDen s' := by
  unfold writeNv12 at hwrite
  split at hwrite
  · cases hwrite
    exact h
  · dsimp only at hwrite
    generalize (if 0 ≤ requestedPts then requestedPts else s.nextPts) = framePts at hwrite
    split at hwrite
    · cases hwrite
    · rename_i e he
      have hwritten := IntelVplEncoder.writeNv12_rated (h.encoder e he) input framePts answer
      split at hwrite
      · cases hwrite
        exact ⟨h.num, h.den, by rintro _ ⟨⟩; exact hwritten⟩
      · cases hwrite
        exact ⟨h.num, h.den, by rintro _ ⟨⟩; exact hwritten⟩

theorem writeNv12_ok (h : Rated fpsNum fpsDen s) {input : Nv12Input} {requestedPts : Int} {answer : CpuSubmitAnswer}
    {n : Nat} (hn : s.nextPts = n)
    (hwrite : s.writeNv12 input requestedPts answer = some (status, packets, s')) (hok : status.result = .ok) :
    Adds fpsNum fpsDen s s' [vplTimeStamp fpsNum fpsDen (selectPts n requestedPts : Nat)] packets ∧
      s'.nextPts = max s.nextPts (i64 ((selectPts n requestedPts : Nat) + 1)) := by
  have hselect : (if 0 ≤ requestedPts then requestedPts else s.nextPts) = (selectPts n requestedPts : Nat) := by
    unfold selectPts
    split
    · omega
    · exact hn
  unfold writeNv12 at hwrite
  split at hwrite
  · cases hwrite
    cases hok
  · dsimp only at hwrite
    rw [hselect] at hwrite
    split at hwrite
    · cases hwrite
    · rename_i e he
      have hrated := h.encoder e he
      cases hencode : e.writeNv12 input (selectPts n requestedPts : Nat) answer with
      | mk encoded more =>
        rw [hencode] at hwrite
        dsimp only at hwrite
        split at hwrite
        · rename_i hbad
          cases hwrite
          exact absurd hok hbad
        · rename_i hgood
          cases hwrite
          obtain ⟨hgives, -⟩ := IntelVplEncoder.writeNv12_ok hencode (not_not.mp hgood)
          rw [IntelVplEncoder.stamp, if_pos (Int.natCast_nonneg _), hrated.num, hrated.den] at hgives
          exact ⟨.of_gives hrated hgives he rfl rfl, rfl⟩

theorem submitGpu_rated (h : Rated fpsNum fpsDen s) {frame : Option GpuInput} {answer : GpuSubmitAnswer}
    (hwrite : s.submitGpu frame answer = some (status, packets, s')) : Rated fpsNum fpsDen s' := by
  unfold submitGpu at hwrite
  split at hwrite
  · cases hwrite
  · rename_i e he
    have hwritten := IntelVplEncoder.submitGpuSurface_rated (h.encoder e he) frame s.nextPts answer
    dsimp only at hwrite
    split at hwrite
    · cases hwrite
      exact ⟨h.num, h.den, by rintro _ ⟨⟩; exact hwritten⟩
    · cases hwrite
      exact ⟨h.num, h.den, by rintro _ ⟨⟩; exact hwritten⟩

theorem submitGpu_ok (h : Rated fpsNum fpsDen s) {frame : Option GpuInput} {answer : GpuSubmitAnswer} {n : Nat}
    (hn : s.nextPts = n) (hwrite : s.submitGpu frame answer = some (status, packets, s'))
    (hok : status.result = .ok) :
    Adds fpsNum fpsDen s s' [vplTimeStamp fpsNum fpsDen n] packets ∧ s'.nextPts = i64 (n + 1) := by
  unfold submitGpu at hwrite
  rw [hn] at hwrite
  split at hwrite
  · cases hwrite
  · rename_i e he
    have hrated := h.encoder e he
    cases hencode : e.submitGpuSurface frame n answer with
    | mk encoded more =>
      rw [hencode] at hwrite
      dsimp only at hwrite
      split at hwrite
      · rename_i hbad
        cases hwrite
        exact absurd hok hbad
      · rename_i hgood
        cases hwrite
        obtain ⟨hgives, -⟩ := IntelVplEncoder.submitGpuSurface_ok hencode (not_not.mp hgood)
        rw [IntelVplEncoder.stamp, if_pos (Int.natCast_nonneg _), hrated.num, hrated.den] at hgives
        exact ⟨.of_gives hrated hgives he rfl rfl, rfl⟩

theorem createEncoder_rated {config : Config} {error : Option String} (h : createEncoder config error = .ok e) :
    e.Rated config.fpsNum config.fpsDen := IntelVplEncoder.create_rated h

theorem createEncoder_empty {config : Config} {error : Option String} (h : createEncoder config error = .ok e) :
    e.queue.surfaces = [] ∧ e.queue.bitstreams = [] := by
  unfold createEncoder IntelVplEncoder.create at h
  split at h
  · cases h
  · split at h
    · cases h
    · cases h
      exact ⟨rfl, rfl⟩

/-- A new encoder in the place of a missing one has neither taken nor given anything. -/
theorem Adds.of_create {error : Option String} (hnone : s.encoder = none) (hcreate : createEncoder s.config error = .ok e)
    (he : s'.encoder = some e) (hretired : s'.retired = s.retired) : Adds fpsNum fpsDen s s' [] [] := by
  have hempty := createEncoder_empty hcreate
  apply Adds.of_eq
  · simp [VplEncoderSequence.surfaces, encoders, hnone, he, hretired, hempty.1]
  · simp [VplEncoderSequence.bitstreams, encoders, hnone, he, hretired, hempty.2]

theorem destroyEncoder_encoder (s : VplEncoderSequence) (statuses : Nat → Int) :
    (s.destroyEncoder statuses).encoder = none := by
  unfold destroyEncoder
  split
  · assumption
  · rfl

theorem destroyEncoder_config (s : VplEncoderSequence) (statuses : Nat → Int) :
    (s.destroyEncoder statuses).config = s.config := by
  unfold destroyEncoder
  split <;> rfl

/-- The sequence behind the switch to external frames. -/
theorem adapted_rated (h : Rated fpsNum fpsDen s) {adapter : Option String}
    (hcreate : createEncoder s.config adapter = .ok e) (statuses : Nat → Int) :
    Rated fpsNum fpsDen { s.destroyEncoder statuses with encoder := some e, externalGpuMode := true } := by
  have hnew := createEncoder_rated hcreate
  rw [h.num, h.den] at hnew
  have hdestroyed := destroyEncoder_rated h statuses
  exact ⟨hdestroyed.num, hdestroyed.den, by rintro _ ⟨⟩; exact hnew⟩

theorem writeGpu_rated (h : Rated fpsNum fpsDen s) {frame : Option GpuInput} {adapter : Option String}
    {statuses : Nat → Int} {answer : GpuSubmitAnswer}
    (hwrite : s.writeGpu frame adapter statuses answer = some (status, packets, s')) : Rated fpsNum fpsDen s' := by
  unfold writeGpu at hwrite
  split at hwrite
  · cases hwrite
    exact h
  · split at hwrite
    · exact submitGpu_rated h hwrite
    · split at hwrite
      · cases hwrite
        exact h
      · split at hwrite
        · cases hwrite
          exact h
        · rename_i hcreate
          exact submitGpu_rated (adapted_rated h hcreate statuses) hwrite

theorem writeGpu_ok (h : Rated fpsNum fpsDen s) {frame : Option GpuInput} {adapter : Option String}
    {statuses : Nat → Int} {answer : GpuSubmitAnswer} {n : Nat} (hn : s.nextPts = n)
    (hwrite : s.writeGpu frame adapter statuses answer = some (status, packets, s')) (hok : status.result = .ok) :
    Adds fpsNum fpsDen s s' [vplTimeStamp fpsNum fpsDen n] packets ∧ s'.nextPts = i64 (n + 1) := by
  unfold writeGpu at hwrite
  split at hwrite
  · cases hwrite
    cases hok
  · split at hwrite
    · exact submitGpu_ok h hn hwrite hok
    · split at hwrite
      · cases hwrite
        cases hok
      · split at hwrite
        · cases hwrite
          cases hok
        · rename_i e hcreate
          have hcreate' : createEncoder (s.destroyEncoder statuses).config adapter = .ok e := by
            rw [destroyEncoder_config]
            exact hcreate
          have hnew : Adds fpsNum fpsDen (s.destroyEncoder statuses)
              { s.destroyEncoder statuses with encoder := some e, externalGpuMode := true } [] [] :=
            .of_create (s.destroyEncoder_encoder statuses) hcreate' rfl rfl
          obtain ⟨hadds, hnext⟩ := submitGpu_ok (adapted_rated h hcreate statuses)
            ((s.destroyEncoder_nextPts statuses).trans hn) hwrite hok
          exact ⟨(s.destroyEncoder_adds statuses).trans (hnew.trans hadds), hnext⟩

/-! ## Flushes and the end -/

theorem flush_rated (h : Rated fpsNum fpsDen s) {answer : VplEncoderQueue.DrainAnswer} {statuses : Nat → Int}
    (hflush : s.flush answer statuses = some (status, packets, s')) : Rated fpsNum fpsDen s' := by
  unfold flush at hflush
  split at hflush
  · cases hflush
    exact h
  · split at hflush
    · cases hflush
    · cases hflush
      exact ⟨h.num, h.den, nofun⟩

theorem flush_ok (h : Rated fpsNum fpsDen s) {answer : VplEncoderQueue.DrainAnswer} {statuses : Nat → Int}
    (hflush : s.flush answer statuses = some (status, packets, s')) (hok : status.result = .ok) :
    Adds fpsNum fpsDen s s' [] packets ∧ s'.nextPts = s.nextPts := by
  unfold flush at hflush
  split at hflush
  · cases hflush
    exact ⟨.of_eq rfl rfl, rfl⟩
  · split at hflush
    · cases hflush
    · rename_i e he
      cases hdrain : e.drain answer with
      | mk drained more =>
        rw [hdrain] at hflush
        cases hflush
        obtain ⟨hgives, -⟩ := IntelVplEncoder.drain_ok hdrain hok
        have hadds : Adds fpsNum fpsDen s { s with encoder := some more.2 } [] more.1 :=
          .of_gives (h.encoder e he) hgives he rfl rfl
        exact ⟨hadds.same ((destroyEncoder_adds _ statuses).same (.of_eq rfl rfl)), rfl⟩

theorem restartCpu_rated (h : Rated fpsNum fpsDen s) {error : Option String}
    (hrestart : s.restartCpu error = (status, s')) : Rated fpsNum fpsDen s' := by
  unfold restartCpu at hrestart
  split at hrestart
  · cases hrestart
    exact h
  · split at hrestart
    · cases hrestart
      exact h
    · split at hrestart
      · cases hrestart
        exact h
      · rename_i e hcreate
        cases hrestart
        have hnew := createEncoder_rated hcreate
        rw [h.num, h.den] at hnew
        exact ⟨h.num, h.den, by rintro _ ⟨⟩; exact hnew⟩

theorem restartCpu_adds {error : Option String} (hrestart : s.restartCpu error = (status, s')) :
    Adds fpsNum fpsDen s s' [] [] ∧ s'.nextPts = s.nextPts := by
  unfold restartCpu at hrestart
  split at hrestart
  · cases hrestart
    exact ⟨.of_eq rfl rfl, rfl⟩
  · split at hrestart
    · cases hrestart
      exact ⟨.of_eq rfl rfl, rfl⟩
    · rename_i hnone
      split at hrestart
      · cases hrestart
        exact ⟨.of_eq rfl rfl, rfl⟩
      · rename_i hcreate
        cases hrestart
        exact ⟨.of_create hnone hcreate rfl rfl, rfl⟩

theorem close_rated (h : Rated fpsNum fpsDen s) {answer : VplEncoderQueue.DrainAnswer} {statuses : Nat → Int}
    (hclose : s.close answer statuses = (status, packets, s')) : Rated fpsNum fpsDen s' := by
  unfold close at hclose
  split at hclose
  · cases hclose
    exact h
  · cases he : s.encoder with
    | none =>
        rw [he] at hclose
        cases hclose
        have hdestroyed := destroyEncoder_rated h statuses
        exact ⟨hdestroyed.num, hdestroyed.den, hdestroyed.encoder⟩
    | some e =>
        rw [he] at hclose
        dsimp only at hclose
        split at hclose
        · cases hclose
          exact ⟨h.num, h.den, nofun⟩
        · cases hclose
          have hdestroyed := destroyEncoder_rated h statuses
          exact ⟨hdestroyed.num, hdestroyed.den, hdestroyed.encoder⟩

theorem close_ok (h : Rated fpsNum fpsDen s) {answer : VplEncoderQueue.DrainAnswer} {statuses : Nat → Int}
    (hclose : s.close answer statuses = (status, packets, s')) (hok : status.result = .ok) :
    Adds fpsNum fpsDen s s' [] packets ∧ s'.nextPts = s.nextPts := by
  have hclosed : ∀ t : VplEncoderSequence, Adds fpsNum fpsDen t { t.destroyEncoder statuses with closed := true } [] [] :=
    fun t => (t.destroyEncoder_adds statuses).trans (.of_eq rfl rfl)
  unfold close at hclose
  split at hclose
  · cases hclose
    exact ⟨.of_eq rfl rfl, rfl⟩
  · cases he : s.encoder with
    | none =>
        rw [he] at hclose
        cases hclose
        exact ⟨hclosed s, s.destroyEncoder_nextPts statuses⟩
    | some e =>
        rw [he] at hclose
        dsimp only at hclose
        split at hclose
        · cases hdrain : e.drain answer with
          | mk drained more =>
            rw [hdrain] at hclose
            cases hclose
            obtain ⟨hgives, -⟩ := IntelVplEncoder.drain_ok hdrain hok
            have hadds : Adds fpsNum fpsDen s { s with encoder := some more.2 } [] more.1 :=
              .of_gives (h.encoder e he) hgives he rfl rfl
            exact ⟨hadds.same (hclosed { s with encoder := some more.2 }), rfl⟩
        · cases hclose
          exact ⟨hclosed s, s.destroyEncoder_nextPts statuses⟩

end VplEncoderSequence

/-! ## The encoder -/

/-- What a call asks for: a frame from the GPU the next time. -/
def IntelOp.request : IntelOp → Option Int
  | .write frame _ => some frame.pts
  | .writeGpu _ _ => some (-1)
  | _ => none

/-- What the container gets for the time stamp of a bitstream. -/
def vplNanoseconds (fpsNum fpsDen timeStamp : Nat) : Nat :=
  toNanoseconds fpsNum fpsDen (vplPts fpsNum fpsDen timeStamp)

namespace IntelWebmEncoder

variable {fpsNum fpsDen : Nat} {e e' e'' : IntelWebmEncoder} {status : Status}

structure Rated (fpsNum fpsDen : Nat) (e : IntelWebmEncoder) : Prop where
  muxerNum : e.muxer.fpsNum = fpsNum
  muxerDen : e.muxer.fpsDen = fpsDen
  sequence : e.sequence.Rated fpsNum fpsDen

theorem create_rated {config : Config} {runtime muxer : Option String} (h : create config runtime muxer = .ok e) :
    Rated config.fpsNum config.fpsDen e := by
  unfold create VplEncoderSequence.create at h
  split at h
  · cases h
  · rename_i sequence hsequence
    split at hsequence
    · cases hsequence
    · rename_i hcreate
      cases hsequence
      split at h
      · cases h
      · cases h
        exact ⟨rfl, rfl, rfl, rfl, by rintro _ ⟨⟩; exact VplEncoderSequence.createEncoder_rated hcreate⟩

theorem muxerWrite_rates (adds : Nat → AddAnswer) (packets : List IntelEncodedPacket) (m : VplPacketMuxer) :
    (m.write adds packets).2.fpsNum = m.fpsNum ∧ (m.write adds packets).2.fpsDen = m.fpsDen := by
  induction packets generalizing m with
  | nil => exact ⟨rfl, rfl⟩
  | cons packet rest ih =>
      unfold VplPacketMuxer.write
      dsimp only
      split
      · exact ⟨rfl, rfl⟩
      · exact ih _

theorem mux_rated (h : Rated fpsNum fpsDen e) {sequence : VplEncoderSequence} (hs : sequence.Rated fpsNum fpsDen)
    {given : Status} {packets : List IntelEncodedPacket} {adds : Nat → AddAnswer}
    (hmux : mux { e with sequence := sequence } given packets adds = (status, e')) : Rated fpsNum fpsDen e' := by
  have hrates := muxerWrite_rates adds packets e.muxer
  unfold mux at hmux
  split at hmux
  · cases hmux
    exact ⟨h.muxerNum, h.muxerDen, hs⟩
  · cases hmux
    exact ⟨hrates.1.trans h.muxerNum, hrates.2.trans h.muxerDen, hs⟩

/-! ## The rate -/

theorem write_rated (h : Rated fpsNum fpsDen e) {frame : FrameView} {answer : IntelWriteAnswer}
    (hwrite : e.write frame answer = some (status, e')) : Rated fpsNum fpsDen e' := by
  unfold write at hwrite
  split at hwrite
  · cases hwrite
    exact h
  · split at hwrite
    · cases hwrite
      exact h
    · dsimp only at hwrite
      split at hwrite
      · cases hwrite
        exact h
      · split at hwrite
        · cases hwrite
        · rename_i hsequence
          exact mux_rated h (VplEncoderSequence.writeNv12_rated h.sequence hsequence) (Option.some_inj.mp hwrite)

theorem writeGpu_rated (h : Rated fpsNum fpsDen e) {frame : Option GpuInput} {answer : IntelGpuAnswer}
    (hwrite : e.writeGpu frame answer = some (status, e')) : Rated fpsNum fpsDen e' := by
  unfold writeGpu at hwrite
  split at hwrite
  · cases hwrite
    exact h
  · split at hwrite
    · cases hwrite
      exact h
    · split at hwrite
      · cases hwrite
      · rename_i hsequence
        exact mux_rated h (VplEncoderSequence.writeGpu_rated h.sequence hsequence) (Option.some_inj.mp hwrite)

theorem flush_rated (h : Rated fpsNum fpsDen e) {answer : IntelFlushAnswer}
    (hflush : e.flush answer = some (status, e')) : Rated fpsNum fpsDen e' := by
  unfold flush at hflush
  split at hflush
  · cases hflush
    exact h
  · split at hflush
    · cases hflush
    · rename_i flushed packets sequence hsequence
      cases hmux : mux { e with sequence := sequence } flushed packets answer.adds with
      | mk muxed e₁ =>
        have hrated := mux_rated h (VplEncoderSequence.flush_rated h.sequence hsequence) hmux
        rw [hmux] at hflush
        dsimp only at hflush
        split at hflush
        · cases hflush
          exact hrated
        · cases hflush
          exact ⟨hrated.muxerNum, hrated.muxerDen, VplEncoderSequence.restartCpu_rated hrated.sequence rfl⟩

theorem close_rated (h : Rated fpsNum fpsDen e) {answer : IntelCloseAnswer} (hclose : e.close answer = (status, e')) :
    Rated fpsNum fpsDen e' := by
  unfold close at hclose
  split at hclose
  · cases hclose
    exact h
  · cases hsequence : e.sequence.close answer.drain answer.destroyed with
    | mk given more =>
      obtain ⟨packets, sequence⟩ := more
      rw [hsequence] at hclose
      dsimp only at hclose
      cases hmux : mux { e with sequence := sequence } given packets answer.adds with
      | mk muxed e₁ =>
        have hrated := mux_rated h (VplEncoderSequence.close_rated h.sequence hsequence) hmux
        rw [hmux] at hclose
        dsimp only at hclose
        split at hclose
        · cases hclose
          exact ⟨hrated.muxerNum, hrated.muxerDen, hrated.sequence⟩
        · cases hclose
          exact ⟨hrated.muxerNum, hrated.muxerDen, hrated.sequence⟩

/-- Every call keeps the frame rate, whatever it returns. -/
theorem run_rated (h : Rated fpsNum fpsDen e) {op : IntelOp} (hrun : e.run op = some (status, e')) :
    Rated fpsNum fpsDen e' := by
  cases op with
  | write frame answer => exact write_rated h hrun
  | writeGpu frame answer => exact writeGpu_rated h hrun
  | flush answer => exact flush_rated h hrun
  | close answer => exact close_rated h (Option.some_inj.mp hrun)

/-! ## Successful calls -/

/-- Between `e` and `e'` oneVPL has taken surfaces with the time stamps `taken`, and the container what has come
back. -/
structure FeedsVpl (fpsNum fpsDen : Nat) (e e' : IntelWebmEncoder) (taken : List Nat) : Prop where
  surfaces : e'.sequence.surfaces = e.sequence.surfaces ++ taken
  bitstreams : ∃ bs, e'.sequence.bitstreams = e.sequence.bitstreams ++ bs ∧
    e'.muxer.muxer.timestamps = e.muxer.muxer.timestamps ++ (stamps bs).map (vplNanoseconds fpsNum fpsDen)

/-- The packets that the sequence has given go to the container. -/
theorem mux_feeds (h : Rated fpsNum fpsDen e) {sequence : VplEncoderSequence} {given : Status}
    {packets : List IntelEncodedPacket} {adds : Nat → AddAnswer} {taken : List Nat}
    (hadds : given.result = .ok → VplEncoderSequence.Adds fpsNum fpsDen e.sequence sequence taken packets)
    (hmux : mux { e with sequence := sequence } given packets adds = (status, e')) (hok : status.result = .ok) :
    given.result = .ok ∧ e'.sequence = sequence ∧ FeedsVpl fpsNum fpsDen e e' taken := by
  unfold mux at hmux
  split at hmux
  · rename_i hbad
    cases hmux
    exact absurd hok hbad
  · rename_i hgood
    cases hwrite : e.muxer.write adds packets with
    | mk written muxer =>
      rw [hwrite] at hmux
      cases hmux
      obtain ⟨-, hts⟩ := VplPacketMuxer.write_ok hwrite hok
      obtain ⟨hsurfaces, bs, hbs, hpackets⟩ := hadds (not_not.mp hgood)
      rw [h.muxerNum, h.muxerDen] at hts
      have hconvert : packets.map (fun packet => toNanoseconds fpsNum fpsDen packet.pts) =
          (stamps bs).map (vplNanoseconds fpsNum fpsDen) := by
        have hmap := congrArg (List.map (toNanoseconds fpsNum fpsDen)) hpackets
        rw [List.map_map, List.map_map] at hmap
        exact hmap
      exact ⟨not_not.mp hgood, rfl, hsurfaces, bs, hbs, hconvert ▸ hts⟩

theorem write_feeds (h : Rated fpsNum fpsDen e) {n : Nat} (hn : e.sequence.nextPts = n) {frame : FrameView}
    {answer : IntelWriteAnswer} (hno : selectPts n frame.pts + 1 < 2 ^ 63)
    (hwrite : e.write frame answer = some (status, e')) (hok : status.result = .ok) :
    FeedsVpl fpsNum fpsDen e e' [vplTimeStamp fpsNum fpsDen (selectPts n frame.pts : Nat)] ∧
      e'.sequence.nextPts = (advance 1 n frame.pts : Nat) := by
  unfold write at hwrite
  split at hwrite
  · cases hwrite
    cases hok
  · split at hwrite
    · cases hwrite
      cases hok
    · dsimp only at hwrite
      split at hwrite
      · rename_i hbad
        cases hwrite
        exact absurd hok hbad
      · split at hwrite
        · cases hwrite
        · rename_i given packets sequence hsequence
          have hsome : mux { e with sequence := sequence } given packets answer.adds = (status, e') :=
            Option.some_inj.mp hwrite
          obtain ⟨hgiven, heq, hfeeds⟩ := mux_feeds h
            (fun hgiven => (VplEncoderSequence.writeNv12_ok h.sequence hn hsequence hgiven).1) hsome hok
          constructor
          · exact hfeeds
          · have hcast : i64 ((selectPts n frame.pts : Nat) + 1) = (selectPts n frame.pts + 1 : Nat) := i64_of_nat hno
            rw [heq, (VplEncoderSequence.writeNv12_ok h.sequence hn hsequence hgiven).2, hn, hcast, advance]
            omega

theorem writeGpu_feeds (h : Rated fpsNum fpsDen e) {n : Nat} (hn : e.sequence.nextPts = n) {frame : Option GpuInput}
    {answer : IntelGpuAnswer} (hno : n + 1 < 2 ^ 63) (hwrite : e.writeGpu frame answer = some (status, e'))
    (hok : status.result = .ok) :
    FeedsVpl fpsNum fpsDen e e' [vplTimeStamp fpsNum fpsDen n] ∧ e'.sequence.nextPts = (n + 1 : Nat) := by
  unfold writeGpu at hwrite
  split at hwrite
  · cases hwrite
    cases hok
  · split at hwrite
    · cases hwrite
      cases hok
    · split at hwrite
      · cases hwrite
      · rename_i given packets sequence hsequence
        have hsome : mux { e with sequence := sequence } given packets answer.adds = (status, e') :=
          Option.some_inj.mp hwrite
        obtain ⟨hgiven, heq, hfeeds⟩ := mux_feeds h
          (fun hgiven => (VplEncoderSequence.writeGpu_ok h.sequence hn hsequence hgiven).1) hsome hok
        constructor
        · exact hfeeds
        · rw [heq, (VplEncoderSequence.writeGpu_ok h.sequence hn hsequence hgiven).2]
          exact i64_of_nat hno

theorem flush_feeds (h : Rated fpsNum fpsDen e) {answer : IntelFlushAnswer}
    (hflush : e.flush answer = some (status, e')) (hok : status.result = .ok) :
    FeedsVpl fpsNum fpsDen e e' [] ∧ e'.sequence.nextPts = e.sequence.nextPts := by
  unfold flush at hflush
  split at hflush
  · cases hflush
    exact ⟨⟨by simp, [], by simp⟩, rfl⟩
  · split at hflush
    · cases hflush
    · rename_i given packets sequence hsequence
      cases hmux : mux { e with sequence := sequence } given packets answer.adds with
      | mk muxed e₁ =>
        rw [hmux] at hflush
        dsimp only at hflush
        split at hflush
        · rename_i hbad
          cases hflush
          exact absurd hok hbad
        · rename_i hgood
          obtain ⟨hgiven, heq, hsurfaces, bs, hbs, hts⟩ := mux_feeds h
            (fun hgiven => (VplEncoderSequence.flush_ok h.sequence hsequence hgiven).1) hmux (not_not.mp hgood)
          have hnext := (VplEncoderSequence.flush_ok h.sequence hsequence hgiven).2
          cases hrestart : e₁.sequence.restartCpu answer.restart with
          | mk restarted sequence' =>
            rw [hrestart] at hflush
            cases hflush
            have hrestarted : VplEncoderSequence.Adds fpsNum fpsDen e₁.sequence sequence' [] [] ∧
                sequence'.nextPts = e₁.sequence.nextPts := VplEncoderSequence.restartCpu_adds hrestart
            obtain ⟨hadds, hsame⟩ := hrestarted
            obtain ⟨bs', hbs', hnone⟩ := hadds.bitstreams
            have hstamps : stamps bs' = [] := by
              rw [List.map_nil] at hnone
              exact List.map_eq_nil_iff.mp hnone.symm
            constructor
            · constructor
              · rw [hadds.surfaces, List.append_nil]
                exact hsurfaces
              · apply Exists.intro (bs ++ bs')
                constructor
                · rw [hbs', hbs, List.append_assoc]
                · rw [stamps_append, hstamps, List.append_nil]
                  exact hts
            · rw [hsame, heq, hnext]

theorem close_feeds (h : Rated fpsNum fpsDen e) {answer : IntelCloseAnswer} (hclose : e.close answer = (status, e'))
    (hok : status.result = .ok) :
    FeedsVpl fpsNum fpsDen e e' [] ∧ e'.sequence.nextPts = e.sequence.nextPts := by
  unfold close at hclose
  split at hclose
  · cases hclose
    exact ⟨⟨by simp, [], by simp⟩, rfl⟩
  · cases hsequence : e.sequence.close answer.drain answer.destroyed with
    | mk given more =>
      obtain ⟨packets, sequence⟩ := more
      rw [hsequence] at hclose
      dsimp only at hclose
      cases hmux : mux { e with sequence := sequence } given packets answer.adds with
      | mk muxed e₁ =>
        rw [hmux] at hclose
        dsimp only at hclose
        split at hclose
        · rename_i hbad
          cases hclose
          exact absurd hok hbad
        · rename_i hgood
          obtain ⟨hgiven, heq, hsurfaces, bs, hbs, hts⟩ := mux_feeds h
            (fun hgiven => (VplEncoderSequence.close_ok h.sequence hsequence hgiven).1) hmux (not_not.mp hgood)
          have hnext := (VplEncoderSequence.close_ok h.sequence hsequence hgiven).2
          cases hclose
          constructor
          · constructor
            · exact hsurfaces
            · apply Exists.intro bs
              constructor
              · exact hbs
              · rw [← hts]
                exact WebmMuxer.finalize_timestamps rfl
          · rw [← hnext]
            exact congrArg VplEncoderSequence.nextPts heq

theorem run_feeds (h : Rated fpsNum fpsDen e) {n : Nat} (hn : e.sequence.nextPts = n) {op : IntelOp}
    (hno : ∀ r, op.request = some r → selectPts n r + 1 < 2 ^ 63) (hrun : e.run op = some (status, e'))
    (hok : status.result = .ok) :
    FeedsVpl fpsNum fpsDen e e' (op.request.elim [] fun r => [vplTimeStamp fpsNum fpsDen (selectPts n r : Nat)]) ∧
      e'.sequence.nextPts = (op.request.elim n (advance 1 n) : Nat) := by
  cases op with
  | write frame answer => exact write_feeds h hn (hno _ rfl) hrun hok
  | writeGpu frame answer =>
      have hfeeds := writeGpu_feeds h hn (hno _ rfl) hrun hok
      rw [← advance_next 1 n] at hfeeds
      exact hfeeds
  | flush answer =>
      have hfeeds := flush_feeds h hrun hok
      rw [hn] at hfeeds
      exact hfeeds
  | close answer =>
      have hfeeds := close_feeds h (Option.some_inj.mp hrun) hok
      rw [hn] at hfeeds
      exact hfeeds

/-- The calls of the encoder that succeed. -/
def Accepts (e : IntelWebmEncoder) (op : IntelOp) (e' : IntelWebmEncoder) : Prop :=
  ∃ status : Status, e.run op = some (status, e') ∧ status.result = .ok

end IntelWebmEncoder

def intelFeed (fpsNum fpsDen : Nat) : Feed IntelWebmEncoder IntelOp Nat where
  accepts := IntelWebmEncoder.Accepts
  request := IntelOp.request
  inv e := e.Rated fpsNum fpsDen
  next e := e.sequence.nextPts
  submitted e := e.sequence.surfaces
  returned e := stamps e.sequence.bitstreams
  timestamps e := e.muxer.muxer.timestamps
  unit := 1
  encode p := vplTimeStamp fpsNum fpsDen p
  decode := vplNanoseconds fpsNum fpsDen
  step := by
    rintro e op e' n hinv hnext hno ⟨status, hrun, hok⟩
    have hrated := IntelWebmEncoder.run_rated hinv hrun
    obtain ⟨⟨hsurfaces, bs, hbs, hts⟩, hnext'⟩ := IntelWebmEncoder.run_feeds hinv hnext hno hrun hok
    refine ⟨hrated, hnext', ?_, stamps bs, ?_, hts⟩
    · rw [hsurfaces]
    · rw [hbs, stamps_append]

end MkvCodec.Backend
