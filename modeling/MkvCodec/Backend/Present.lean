import MkvCodec.Backend.GpuPts

/-!
# The encoder of an Intel session

An Intel session that is not closed has an encoder until a flush fails: the flush has destroyed the encoder by then,
and nothing brings it back before the session takes the next call.
-/

namespace MkvCodec.Backend

open Concurrency

namespace VplEncoderSequence

variable {s s' : VplEncoderSequence} {status : Status} {packets : List IntelEncodedPacket}

/-- The sequence is open and has an encoder. -/
structure Ready (s : VplEncoderSequence) : Prop where
  opened : s.closed = false
  encoder : ∃ encoder, s.encoder = some encoder

theorem destroyEncoder_eq (s : VplEncoderSequence) (statuses : Nat → Int) :
    (s.destroyEncoder statuses).encoder = none ∧ (s.destroyEncoder statuses).closed = s.closed ∧
      (s.destroyEncoder statuses).config = s.config := by
  cases he : s.encoder with
  | none => simp [destroyEncoder, he]
  | some encoder => simp [destroyEncoder, he]

theorem writeNv12_ready (h : s.Ready) (input : Nv12Input) (requestedPts : Int) (answer : CpuSubmitAnswer) :
    ∃ status packets s', s.writeNv12 input requestedPts answer = some (status, packets, s') ∧ s'.Ready := by
  obtain ⟨hopened, encoder, he⟩ := h
  simp only [writeNv12, hopened, he, Bool.false_eq_true, ↓reduceIte]
  generalize (if 0 ≤ requestedPts then requestedPts else s.nextPts) = framePts
  split
  · refine ⟨_, _, _, rfl, ?_⟩
    exact ⟨rfl, _, rfl⟩
  · refine ⟨_, _, _, rfl, ?_⟩
    exact ⟨rfl, _, rfl⟩

theorem submitGpu_ready (h : s.Ready) (frame : Option GpuInput) (answer : GpuSubmitAnswer) :
    ∃ status packets s', s.submitGpu frame answer = some (status, packets, s') ∧ s'.Ready := by
  obtain ⟨hopened, encoder, he⟩ := h
  simp only [submitGpu, he]
  split
  · refine ⟨_, _, _, rfl, ?_⟩
    exact ⟨hopened, _, rfl⟩
  · refine ⟨_, _, _, rfl, ?_⟩
    exact ⟨hopened, _, rfl⟩

/-- A frame from the GPU is submitted to the encoder of the frames before it, or to a new one. -/
theorem writeGpu_ready (h : s.Ready) (frame : Option GpuInput) (adapter : Option String) (statuses : Nat → Int)
    (answer : GpuSubmitAnswer) :
    ∃ status packets s', s.writeGpu frame adapter statuses answer = some (status, packets, s') ∧ s'.Ready := by
  simp only [writeGpu, h.opened, Bool.false_eq_true, ↓reduceIte]
  split
  · exact submitGpu_ready h frame answer
  · split
    · exact ⟨_, _, _, rfl, h⟩
    · cases createEncoder s.config adapter with
      | error error => exact ⟨_, _, _, rfl, h⟩
      | ok encoder =>
          apply submitGpu_ready
          exact ⟨(s.destroyEncoder_eq statuses).2.1.trans h.opened, encoder, rfl⟩

/-- No frame has been submitted, and there is nothing to drain. -/
def Idle (s : VplEncoderSequence) : Prop := s.framesInSequence = 0 ∧ s.externalGpuMode = false

theorem flush_idle (h : s.Idle) (answer : VplEncoderQueue.DrainAnswer) (statuses : Nat → Int) :
    s.flush answer statuses = some (.ok, [], s) := by
  simp [flush, h.1, h.2]

/-- A flush that drains leaves no encoder. -/
theorem flush_drains (h : s.Ready) (hidle : ¬ s.Idle) {encoder : IntelVplEncoder} (he : s.encoder = some encoder)
    (answer : VplEncoderQueue.DrainAnswer) (statuses : Nat → Int) :
    ∃ s', s.flush answer statuses = some ((encoder.drain answer).1, (encoder.drain answer).2.1, s') ∧
      s'.encoder = none ∧ s'.closed = false ∧ s'.config = s.config := by
  have hdrains : ¬ (s.closed || (decide (s.framesInSequence = 0) && !s.externalGpuMode)) = true := by
    simpa [h.opened, Idle] using hidle
  simp only [flush, hdrains, he, Bool.false_eq_true, ↓reduceIte]
  obtain ⟨hnone, hclosed, hconfig⟩ :=
    destroyEncoder_eq { s with encoder := some (encoder.drain answer).2.2 } statuses
  exact ⟨_, rfl, hnone, hclosed.trans h.opened, hconfig⟩

theorem restartCpu_ready (h : s.Ready) (error : Option String) : s.restartCpu error = (.ok, s) := by
  obtain ⟨hopened, encoder, he⟩ := h
  simp [restartCpu, hopened, he]

theorem restartCpu_created (hopened : s.closed = false) (he : s.encoder = none) {error : Option String}
    {encoder : IntelVplEncoder} (hcreate : createEncoder s.config error = .ok encoder) :
    (s.restartCpu error).2.Ready := by
  simp only [restartCpu, hopened, he, hcreate, Bool.false_eq_true, ↓reduceIte]
  exact ⟨rfl, encoder, rfl⟩

theorem restartCpu_failed (hopened : s.closed = false) (he : s.encoder = none) {error : Option String}
    {message : String} (hcreate : createEncoder s.config error = .error message) :
    (s.restartCpu error).2 = s := by
  simp [restartCpu, hopened, he, hcreate]

end VplEncoderSequence

namespace IntelWebmEncoder

variable {e e' : IntelWebmEncoder} {status : Status}

/-- The session takes nothing more, or it has an encoder for what it takes. -/
def Usable (e : IntelWebmEncoder) : Prop := e.closed = true ∨ e.sequence.Ready

theorem not_usable (hclosed : e.closed = false) (hnone : e.sequence.encoder = none) : ¬ e.Usable := by
  rintro (h | ⟨-, encoder, he⟩)
  · rw [hclosed] at h
    cases h
  · rw [hnone] at he
    cases he

/-- The drain of `encoder` succeeds, its packets are muxed, and an encoder for the next sequence is created. -/
structure Restarts (e : IntelWebmEncoder) (encoder : IntelVplEncoder) (answer : IntelFlushAnswer) : Prop where
  drained : (encoder.drain answer.drain).1.result = .ok
  muxed : (e.muxer.write answer.adds (encoder.drain answer.drain).2.1).1.result = .ok
  created : ∃ next, VplEncoderSequence.createEncoder e.sequence.config answer.restart = .ok next

/-- A flush of an open session with something to drain does not fail. -/
def FlushSucceeds (e : IntelWebmEncoder) : IntelOp → Prop
  | .flush answer =>
      e.closed = false → ¬ e.sequence.Idle → ∀ encoder, e.sequence.encoder = some encoder → e.Restarts encoder answer
  | _ => True

theorem mux_usable (h : e.sequence.Ready) (status : Status) (packets : List IntelEncodedPacket)
    (adds : Nat → AddAnswer) : (e.mux status packets adds).2.Usable := by
  unfold mux
  split
  · exact .inr h
  · exact .inr h

theorem flush_idle (answer : IntelFlushAnswer) (hclosed : e.closed = false) (hready : e.sequence.Ready)
    (hidle : e.sequence.Idle) : ∃ out, e.flush answer = some out ∧ out.2.Usable := by
  simp only [flush, hclosed, Bool.false_eq_true, ↓reduceIte,
    VplEncoderSequence.flush_idle hidle answer.drain answer.destroyed, mux, VplPacketMuxer.write, Status.ok_result, ne_eq,
    not_true_eq_false, VplEncoderSequence.restartCpu_ready hready answer.restart]
  exact ⟨_, rfl, .inr hready⟩

/-- A flush that drains leaves the session usable when it restarts, and only then. -/
theorem flush_drains (answer : IntelFlushAnswer) (hclosed : e.closed = false) (hready : e.sequence.Ready)
    (hidle : ¬ e.sequence.Idle) {encoder : IntelVplEncoder} (he : e.sequence.encoder = some encoder) :
    ∃ out, e.flush answer = some out ∧ (out.2.Usable ↔ e.Restarts encoder answer) := by
  obtain ⟨sequence, hflush, hnone, hopened, hconfig⟩ :=
    VplEncoderSequence.flush_drains hready hidle he answer.drain answer.destroyed
  simp only [flush, hclosed, hflush, Bool.false_eq_true, ↓reduceIte]
  by_cases hdrained : (encoder.drain answer.drain).1.result = .ok
  · simp only [mux, hdrained, ne_eq, not_true_eq_false, ↓reduceIte]
    by_cases hmuxed : (e.muxer.write answer.adds (encoder.drain answer.drain).2.1).1.result = .ok
    · simp only [hmuxed, not_true_eq_false, ↓reduceIte]
      cases hcreate : VplEncoderSequence.createEncoder e.sequence.config answer.restart with
      | ok next =>
          have hready := sequence.restartCpu_created hopened hnone (hconfig ▸ hcreate)
          exact ⟨_, rfl, fun _ => ⟨hdrained, hmuxed, next, hcreate⟩, fun _ => .inr hready⟩
      | error message =>
          rw [VplEncoderSequence.restartCpu_failed hopened hnone (hconfig ▸ hcreate)]
          refine ⟨_, rfl, fun h => absurd h (not_usable rfl hnone), fun h => ?_⟩
          obtain ⟨next, hnext⟩ := h.created
          rw [hcreate] at hnext
          cases hnext
    · simp only [hmuxed, not_false_eq_true, ↓reduceIte]
      exact ⟨_, rfl, fun h => absurd h (not_usable rfl hnone), fun h => absurd h.muxed hmuxed⟩
  · simp only [mux, hdrained, ne_eq, not_false_eq_true, ↓reduceIte]
    exact ⟨_, rfl, fun h => absurd h (not_usable rfl hnone), fun h => absurd h.drained hdrained⟩

theorem run_closed (hclosed : e.closed = true) (op : IntelOp) : ∃ status, e.run op = some (status, e) := by
  cases op with
  | write frame answer => exact ⟨VplEncoderSequence.closedError, by simp [run, write, hclosed]⟩
  | writeGpu frame answer => exact ⟨VplEncoderSequence.closedError, by simp [run, writeGpu, hclosed]⟩
  | flush answer => exact ⟨.ok, by simp [run, flush, hclosed]⟩
  | close answer => exact ⟨.ok, by simp [run, close, hclosed]⟩

theorem close_closed (answer : IntelCloseAnswer) : (e.close answer).2.closed = true := by
  unfold close
  split
  · assumption
  · dsimp only
    split
    · rfl
    · rfl

/-- The next call goes through no null pointer, and leaves a usable session unless it is a flush that fails. -/
theorem run_usable (h : e.Usable) (op : IntelOp) :
    ∃ out, e.run op = some out ∧ (out.2.Usable ↔ e.FlushSucceeds op) := by
  cases hclosed : e.closed with
  | true =>
      obtain ⟨status, hrun⟩ := run_closed hclosed op
      apply Exists.intro (status, e)
      exact ⟨hrun, fun _ => by cases op <;> simp [FlushSucceeds, hclosed], fun _ => h⟩
  | false =>
      have hready : e.sequence.Ready := h.resolve_left (by simp [hclosed])
      cases op with
      | write frame answer =>
          simp only [run, write, hclosed, Bool.false_eq_true, ↓reduceIte]
          split
          · exact ⟨_, rfl, fun _ => trivial, fun _ => h⟩
          · split
            · exact ⟨_, rfl, fun _ => trivial, fun _ => h⟩
            · obtain ⟨status, packets, sequence, hwrite, hready⟩ := VplEncoderSequence.writeNv12_ready hready
                ⟨true, asInt32 e.width, true, asInt32 e.width⟩ frame.pts answer.submit
              rw [hwrite]
              exact ⟨_, rfl, fun _ => trivial, fun _ => mux_usable hready _ _ _⟩
      | writeGpu frame answer =>
          simp only [run, writeGpu, hclosed, Bool.false_eq_true, ↓reduceIte]
          split
          · exact ⟨_, rfl, fun _ => trivial, fun _ => h⟩
          · obtain ⟨status, packets, sequence, hwrite, hready⟩ := VplEncoderSequence.writeGpu_ready hready frame
              answer.adapter answer.destroyed answer.submit
            rw [hwrite]
            exact ⟨_, rfl, fun _ => trivial, fun _ => mux_usable hready _ _ _⟩
      | flush answer =>
          by_cases hidle : e.sequence.Idle
          · obtain ⟨out, hflush, husable⟩ := flush_idle answer hclosed hready hidle
            exact ⟨out, hflush, fun _ _ h => absurd hidle h, fun _ => husable⟩
          · obtain ⟨encoder, he⟩ := hready.encoder
            obtain ⟨out, hflush, husable⟩ := flush_drains answer hclosed hready hidle he
            exact ⟨out, hflush, by simpa [FlushSucceeds, hclosed, hidle, he] using husable⟩
      | close answer => exact ⟨_, rfl, fun _ => trivial, fun _ => .inl (close_closed answer)⟩

theorem create_usable {config : Config} {runtime muxer : Option String} (h : create config runtime muxer = .ok e) :
    e.Usable := by
  unfold create VplEncoderSequence.create at h
  cases hencoder : VplEncoderSequence.createEncoder config runtime with
  | error error =>
      rw [hencoder] at h
      cases h
  | ok encoder =>
      rw [hencoder] at h
      cases muxer with
      | some error => cases h
      | none =>
          cases h
          exact .inr ⟨rfl, encoder, rfl⟩

/-- Behind any calls of which no flush has failed, no call goes through a null pointer, and the next one leaves a
session that is closed or has an encoder unless it is a flush that fails. -/
theorem encoder_present_iff {config : Config} {runtime muxer : Option String} {start : IntelWebmEncoder}
    (hcreate : create config runtime muxer = .ok start) {ops : List IntelOp} {e : IntelWebmEncoder}
    (hrun : Run (Restrict Calls FlushSucceeds) start ops e) (op : IntelOp) :
    ∃ out, e.run op = some out ∧ (out.2.Usable ↔ e.FlushSucceeds op) := by
  apply run_usable
  apply hrun.invariant (create_usable hcreate)
  rintro e op e' husable ⟨⟨status, hcall⟩, hsucceeds⟩
  obtain ⟨out, hout, hiff⟩ := run_usable husable op
  rw [hcall] at hout
  cases hout
  exact hiff.mpr hsucceeds

/-! ## A drain that fails -/

def smallWriteOp : IntelOp := .write (smallFrame 1) ⟨true, .small ⟨[0], 3000, true⟩, fun _ => smallAdd⟩

/-- A flush whose first null submission ends with an unknown error. -/
def failedFlushOp : IntelOp :=
  .flush ⟨⟨[], .failed (-1) (by decide), fun _ => ⟨0, ⟨[0], 3000, true⟩⟩⟩, fun _ => 0, fun _ => smallAdd, none⟩

theorem small_written : ∃ e, Run (Restrict Calls FlushSucceeds) small [smallWriteOp] e :=
  ⟨_, .single ⟨⟨_, rfl⟩, trivial⟩⟩

theorem encoder_present_small :
    ∃ e : IntelWebmEncoder, Run (Restrict Calls FlushSucceeds) small [smallWriteOp] e ∧
      ∃ out, e.run failedFlushOp = some out ∧ (out.2.Usable ↔ e.FlushSucceeds failedFlushOp) := by
  obtain ⟨e, hrun⟩ := small_written
  exact ⟨e, hrun, encoder_present_iff (show create videoConfig none none = .ok small from rfl) hrun failedFlushOp⟩

/-- Behind a write and a flush that fails, the next write goes through the null pointer. -/
theorem encoder_missing :
    ¬ ∀ (config : Config) (runtime muxer : Option String) (start : IntelWebmEncoder),
      create config runtime muxer = .ok start →
      ∀ ops e, Run Calls start ops e → ∀ op, ∃ out, e.run op = some out ∧ out.2.Usable := by
  intro h
  obtain ⟨out, hout, -⟩ := h videoConfig none none small rfl ([smallWriteOp] ++ [failedFlushOp]) _
    (.append (.single ⟨_, rfl⟩) (.single ⟨_, rfl⟩)) smallWriteOp
  cases hout

end IntelWebmEncoder

end MkvCodec.Backend
