import MkvCodec.Backend.NvencFeed

/-!
# The session of an NVIDIA encoder

The manager of the session has an encoder with both buffers, but for the time behind an initialization that has failed.
Then there is no session, and no frame has been submitted.
-/

namespace MkvCodec.Backend

open Concurrency

/-- The encoder and its buffers are there. -/
structure NvencSession.Live (session : NvencSession) : Prop where
  encoder : session.encoder.isSome
  input : session.input.isSome
  output : session.output.isSome

theorem NvencSession.empty_not_live : ¬ NvencSession.empty.Live := fun h => nomatch h.encoder

def NvencOp.writes : NvencOp → Bool
  | .write _ _ => true
  | .writeGpu _ _ => true
  | _ => false

/-! ## Initialization -/

def NvencOpen.succeeds : NvencOpen → Bool
  | .opened _ => true
  | .failed _ => false

/-- The calls of an initialization succeed. Without an external context one is created first. -/
def NvencInit.succeeds (answer : NvencInit) (external : Bool) : Bool :=
  (external || answer.context.isSome) && answer.opened.succeeds && answer.preset && answer.initialized &&
    answer.input.isSome && answer.output.isSome

theorem openNvencSession_succeeds (session : NvencSession) (answer : NvencInit) :
    if answer.opened.succeeds && answer.preset && answer.initialized && answer.input.isSome && answer.output.isSome then
      (openNvencSession session answer).1.result = .ok ∧ (openNvencSession session answer).2.1.Live
    else (openNvencSession session answer).1.result ≠ .ok := by
  obtain ⟨context, opened, preset, initialized, input, output⟩ := answer
  cases opened with
  | failed encoder => simp [NvencOpen.succeeds, openNvencSession, nvencError]
  | opened encoder =>
      cases preset with
      | false => simp [openNvencSession, nvencError]
      | true =>
          cases initialized with
          | false => simp [openNvencSession, nvencError]
          | true =>
              cases input with
              | none => simp [openNvencSession, nvencError]
              | some input =>
                  cases output with
                  | none => simp [openNvencSession, nvencError]
                  | some output =>
                      simp only [NvencOpen.succeeds, openNvencSession, Bool.and_self, Option.isSome_some, ↓reduceIte,
                        Bool.not_true, Bool.false_eq_true, Status.ok_result, true_and]
                      exact ⟨rfl, rfl, rfl⟩

theorem initializeNvencSession_succeeds (externalContext : Option Nat) (answer : NvencInit) :
    if answer.succeeds externalContext.isSome then
      (initializeNvencSession externalContext .empty answer).1.result = .ok ∧
        (initializeNvencSession externalContext .empty answer).2.1.Live
    else (initializeNvencSession externalContext .empty answer).1.result ≠ .ok := by
  cases externalContext with
  | some context =>
      simpa [NvencInit.succeeds, initializeNvencSession, NvencSession.empty] using
        openNvencSession_succeeds { NvencSession.empty with context := some context } answer
  | none =>
      cases hcontext : answer.context with
      | none => simp [NvencInit.succeeds, initializeNvencSession, NvencSession.empty, hcontext, nvencError]
      | some context =>
          simpa [NvencInit.succeeds, initializeNvencSession, NvencSession.empty, hcontext] using
            openNvencSession_succeeds { NvencSession.empty with context := some context, ownsContext := true } answer

namespace NvencSessionManager

variable {m m' : NvencSessionManager} {status : Status} {calls : List NvencCall}

/-- An initialization that succeeds gives a live session, and one that fails none. -/
structure Made (status : Status) (m : NvencSessionManager) (succeeds : Bool) : Prop where
  live : succeeds = true → status.result = .ok ∧ m.session.Live
  empty : succeeds = false → status.result ≠ .ok ∧ m.session = .empty

theorem initializeSession_made {externalContext contextOwner : Option Nat} {answer : NvencInit}
    (h : initializeSession ⟨externalContext, .empty, contextOwner⟩ externalContext answer = (status, m, calls)) :
    Made status m (answer.succeeds externalContext.isSome) ∧ m.externalContext = externalContext := by
  have hdone := initializeNvencSession_succeeds externalContext answer
  unfold initializeSession at h
  dsimp only at h
  split at h
  · rename_i hbad
    cases h
    refine ⟨⟨fun hsucceeds => ?_, fun _ => ⟨hbad, rfl⟩⟩, rfl⟩
    rw [hsucceeds] at hdone
    exact absurd hdone.1 hbad
  · rename_i hgood
    cases h
    refine ⟨⟨fun hsucceeds => ?_, fun hfails => ?_⟩, rfl⟩
    · rw [hsucceeds] at hdone
      exact hdone
    · rw [hfails] at hdone
      exact absurd hdone hgood

theorem restartCpu_made {answer : NvencInit} (h : m.restartCpu answer = (status, m', calls)) :
    Made status m' (answer.succeeds false) ∧ m'.externalContext = none := by
  cases hinit : initializeSession ⟨none, .empty, none⟩ none answer with
  | mk restarted more =>
    simp only [restartCpu, hinit] at h
    cases h
    exact initializeSession_made hinit

/-- A session without external context that has taken no frame is bound by creating another. -/
theorem bindCudaContext_made {context owner : Nat} {answer : NvencInit} (hexternal : m.externalContext = none)
    (h : m.bindCudaContext (some context) (some owner) 0 answer = (status, m', calls)) :
    Made status m' (answer.succeeds true) ∧ (status.result ≠ .ok → m'.externalContext = none) := by
  cases hinit : initializeSession ⟨some context, .empty, some owner⟩ (some context) answer with
  | mk bound more =>
    obtain ⟨hmade, -⟩ := initializeSession_made hinit
    simp [bindCudaContext, hexternal, hinit] at h
    split at h
    · rename_i hgood
      cases h
      exact ⟨hmade, fun hbad => absurd hgood hbad⟩
    · rename_i hbad
      cases h
      exact ⟨⟨fun hsucceeds => absurd (hmade.live hsucceeds).1 hbad, fun hfails => ⟨hbad, (hmade.empty hfails).2⟩⟩,
        fun _ => rfl⟩

/-- A session that is not bound anew stays as it is. -/
theorem bindCudaContext_unbound (context owner : Nat) {submittedFrames : Nat} (answer : NvencInit)
    (hsubmitted : m.externalContext = none → submittedFrames ≠ 0) :
    ∃ status, m.bindCudaContext (some context) (some owner) submittedFrames answer = (status, m, []) ∧
      (status.result = .ok → m.externalContext ≠ none) := by
  cases hexternal : m.externalContext with
  | none =>
      exact ⟨⟨.errorInvalidState, "cannot switch a running CPU-input NVENC session to GPU input"⟩,
        by simp [bindCudaContext, hexternal, hsubmitted hexternal], nofun⟩
  | some bound =>
      by_cases hsame : bound = context
      · exact ⟨.ok, by simp [bindCudaContext, hexternal, hsame], nofun⟩
      · exact ⟨⟨.errorNotSupported, "all GPU frames must belong to the NVENC session CUDA context"⟩,
          by simp [bindCudaContext, hexternal, hsame], nofun⟩

end NvencSessionManager

/-! ## Submissions -/

/-- Calls that submit to `session` or take from it. -/
def Within (session : NvencSession) (calls : List NvencCall) : Prop := ∀ c ∈ calls, c.session = some session

theorem submitNvencCpuFrame_within (session : NvencSession) (picture : NvencPicture) (answer : NvencCpuSubmit) :
    ∃ calls, (submitNvencCpuFrame session true picture answer).2 = .lockInput session :: calls ∧
      Within session (.lockInput session :: calls) := by
  simp only [submitNvencCpuFrame, Bool.not_true, Bool.false_eq_true, ↓reduceIte]
  split
  · exact ⟨_, rfl, by simp [Within, NvencCall.session]⟩
  · split
    · exact ⟨_, rfl, by simp [Within, NvencCall.session]⟩
    · refine ⟨[.unlockInput session, .encode session picture (decide (answer.encoded = .success))], ?_,
        by simp [Within, NvencCall.session]⟩
      split
      · rfl
      · rfl
      · rfl

theorem submitNvencCudaFrame_within (session : NvencSession) (picture : NvencPicture) (answer : NvencGpuSubmit) :
    ∃ calls, (submitNvencCudaFrame session picture answer).2 = .register session :: calls ∧
      Within session (.register session :: calls) := by
  unfold submitNvencCudaFrame
  split
  · exact ⟨_, rfl, by simp [Within, NvencCall.session]⟩
  · split
    · exact ⟨_, rfl, by simp [Within, NvencCall.session]⟩
    · exact ⟨_, rfl, by simp [Within, NvencCall.session]⟩

theorem muxNvencPacket_within (session : NvencSession) (muxer : WebmMuxer) (defaultDurationNs : Nat)
    (packet : Option NvencPacket) (answer : AddAnswer) :
    Within session (muxNvencPacket session muxer defaultDurationNs packet answer).2.2 := by
  unfold muxNvencPacket
  split
  · simp [Within, NvencCall.session]
  · dsimp only
    split
    · simp [Within, NvencCall.session]
    · simp [Within, NvencCall.session]

namespace NvidiaWebmEncoder

variable {e e' : NvidiaWebmEncoder}

/-- What follows a submission leaves the session alone. -/
theorem finish_within (e : NvidiaWebmEncoder) (timing : PictureTiming) (submitted : Status)
    (packet : Option NvencPacket) (add : AddAnswer) :
    (∃ calls, (e.finish timing submitted packet add).2.calls = e.calls ++ calls ∧
        Within e.sessionManager.session calls) ∧
      (e.finish timing submitted packet add).2.sessionManager = e.sessionManager ∧
      (e.finish timing submitted packet add).2.closed = e.closed := by
  have hmux := muxNvencPacket_within e.sessionManager.session e.muxer (durationNanoseconds e.fpsNum e.fpsDen) packet add
  unfold finish
  split
  · exact ⟨⟨[], by simp, by simp [Within]⟩, rfl, rfl⟩
  · dsimp only
    split
    · exact ⟨⟨_, rfl, hmux⟩, rfl, rfl⟩
    · exact ⟨⟨_, rfl, hmux⟩, rfl, rfl⟩

/-- A submission with what follows it. -/
theorem submission_within {calls : List NvencCall} (h : Within e.sessionManager.session calls) (timing : PictureTiming)
    (submitted : Status) (packet : Option NvencPacket) (add : AddAnswer) :
    (∃ more, ((e.call calls).finish timing submitted packet add).2.calls = e.calls ++ (calls ++ more) ∧
        Within e.sessionManager.session (calls ++ more)) ∧
      ((e.call calls).finish timing submitted packet add).2.sessionManager = e.sessionManager ∧
      ((e.call calls).finish timing submitted packet add).2.closed = e.closed := by
  obtain ⟨⟨more, hmore, hwithin⟩, hmanager, hclosed⟩ := (e.call calls).finish_within timing submitted packet add
  refine ⟨⟨more, ?_, ?_⟩, hmanager, hclosed⟩
  · rw [hmore, call, List.append_assoc]
  · intro c hc
    rw [List.mem_append] at hc
    exact hc.elim (h c) (hwithin c)

/-! ## Writes -/

/-- A frame from the CPU gets past the checks of `write`. -/
structure Admits (e : NvidiaWebmEncoder) (frame : FrameView) (answer : NvencCpuAnswer) : Prop where
  opened : e.closed = false
  width : frame.width = e.width
  height : frame.height = e.height
  converted : (convertCpuFrameToNv12 frame e.width e.height e.i420 e.nv12 "NVIDIA" answer.libyuv).result = .ok

theorem write_admitted {frame : FrameView} {answer : NvencCpuAnswer} (h : e.Admits frame answer) :
    (∃ calls, (e.write frame answer).2.calls = e.calls ++ .lockInput e.sessionManager.session :: calls ∧
        Within e.sessionManager.session (.lockInput e.sessionManager.session :: calls)) ∧
      (e.write frame answer).2.sessionManager = e.sessionManager ∧ (e.write frame answer).2.closed = e.closed := by
  obtain ⟨calls, hsubmit, hwithin⟩ := submitNvencCpuFrame_within e.sessionManager.session
    (e.picture (e.selectPictureTiming frame.pts)) answer.submit
  have hdims : ¬ (frame.width ≠ e.width ∨ frame.height ≠ e.height) := by simp [h.width, h.height]
  obtain ⟨⟨more, hmore, hwithin⟩, hrest⟩ := submission_within (hsubmit ▸ hwithin) (e.selectPictureTiming frame.pts)
    (submitNvencCpuFrame e.sessionManager.session true (e.picture (e.selectPictureTiming frame.pts)) answer.submit).1
    answer.packet answer.add
  rw [write, if_neg (by simp [h.opened]), if_neg hdims]
  dsimp only
  rw [if_neg (by simp [h.converted])]
  refine ⟨⟨calls ++ more, ?_, ?_⟩, hrest⟩
  · rw [hmore, hsubmit, List.cons_append]
  · rw [hsubmit] at hwithin
    exact hwithin

theorem write_rejected {frame : FrameView} {answer : NvencCpuAnswer} (h : ¬ e.Admits frame answer) :
    ∃ status : Status, e.write frame answer = (status, e) ∧ status.result ≠ .ok := by
  unfold write
  split
  · exact ⟨_, rfl, nofun⟩
  · rename_i hopened
    split
    · exact ⟨_, rfl, nofun⟩
    · rename_i hdims
      dsimp only
      split
      · exact ⟨_, rfl, by assumption⟩
      · rename_i hconverted
        simp only [not_or, ne_eq, not_not] at hdims hconverted
        exact absurd ⟨Bool.eq_false_iff.mpr hopened, hdims.1, hdims.2, hconverted⟩ h

/-- A frame from the GPU comes to a session of its own context. -/
def binds (e : NvidiaWebmEncoder) (frame : Option CudaFrame) : Bool :=
  !e.closed && (prepareNvencCudaFrame frame e.width e.height).isOk && e.sessionManager.externalContext.isNone &&
    decide (e.frameIndex = 0)

theorem binds_cases {frame : Option CudaFrame} (h : e.binds frame = true) :
    ∃ input view, frame = some input ∧ prepareNvencCudaFrame (some input) e.width e.height = .ok view ∧
      e.closed = false ∧ e.sessionManager.externalContext = none ∧ e.frameIndex = 0 := by
  simp only [binds, Bool.and_eq_true, Bool.not_eq_true', Option.isNone_iff_eq_none, decide_eq_true_eq] at h
  obtain ⟨⟨⟨hopened, hprepared⟩, hexternal⟩, hindex⟩ := h
  cases hprepare : prepareNvencCudaFrame frame e.width e.height with
  | error status =>
      rw [hprepare] at hprepared
      cases hprepared
  | ok view =>
      obtain ⟨input, rfl, -⟩ := prepareNvencCudaFrame_ok hprepare
      exact ⟨input, view, rfl, hprepare, hopened, hexternal, hindex⟩

/-- The submission of `writeGpu`, behind the binding. -/
theorem cudaSubmission_within (e : NvidiaWebmEncoder) (timing : PictureTiming) (answer : NvencGpuAnswer) :
    let submitted := submitNvencCudaFrame e.sessionManager.session (e.picture timing) answer.submit
    let finished := (e.call submitted.2).finish timing submitted.1 answer.packet answer.add
    (∃ calls, finished.2.calls = e.calls ++ .register e.sessionManager.session :: calls ∧
        Within e.sessionManager.session (.register e.sessionManager.session :: calls)) ∧
      finished.2.sessionManager = e.sessionManager ∧ finished.2.closed = e.closed := by
  intro submitted finished
  obtain ⟨calls, hsubmit, hwithin⟩ :=
    submitNvencCudaFrame_within e.sessionManager.session (e.picture timing) answer.submit
  obtain ⟨⟨more, hmore, hwithin⟩, hrest⟩ :=
    submission_within (hsubmit ▸ hwithin) timing submitted.1 answer.packet answer.add
  refine ⟨⟨calls ++ more, ?_, ?_⟩, hrest⟩
  · rw [hmore, hsubmit, List.cons_append]
  · rw [hsubmit] at hwithin
    exact hwithin

/-- A frame that does not bind the session is rejected, or it belongs to the context that has been bound. -/
theorem writeGpu_unbound {frame : Option CudaFrame} (answer : NvencGpuAnswer) (hbinds : e.binds frame = false) :
    (∃ status : Status, e.writeGpu frame answer = (status, e) ∧ status.result ≠ .ok) ∨
      e.sessionManager.externalContext ≠ none ∧
        (∃ calls, (e.writeGpu frame answer).2.calls = e.calls ++ .register e.sessionManager.session :: calls ∧
          Within e.sessionManager.session (.register e.sessionManager.session :: calls)) ∧
        (e.writeGpu frame answer).2.sessionManager = e.sessionManager ∧
        (e.writeGpu frame answer).2.closed = e.closed := by
  unfold writeGpu
  split
  · exact .inl ⟨_, rfl, nofun⟩
  · rename_i hopened
    split
    · rename_i status hprepare
      exact .inl ⟨status, rfl, prepareNvencCudaFrame_error hprepare⟩
    · rename_i input hprepare
      obtain ⟨frame, rfl, -⟩ := prepareNvencCudaFrame_ok hprepare
      have hsubmitted : e.sessionManager.externalContext = none → e.frameIndex ≠ 0 := by
        intro hexternal hindex
        simp [binds, hprepare, hexternal, hindex, hopened, Except.isOk, Except.toBool] at hbinds
      obtain ⟨status, hbind, hexternal⟩ :=
        e.sessionManager.bindCudaContext_unbound input.contextHandle frame.frame answer.init hsubmitted
      rw [Option.map_some, hbind]
      dsimp only
      split
      · rename_i hbad
        exact .inl ⟨status, by simp [call], hbad⟩
      · rename_i hgood
        obtain ⟨hcalls, hrest⟩ := cudaSubmission_within e (e.selectPictureTiming input.ptsNs) answer
        have hsame : { e.call [] with sessionManager := e.sessionManager } = e := by simp [call]
        rw [hsame]
        exact .inr ⟨hexternal (not_not.mp hgood), hcalls, hrest⟩

/-- A frame that binds the session finds it live when the initialization succeeds. -/
theorem writeGpu_bound {frame : Option CudaFrame} {answer : NvencGpuAnswer} (hbinds : e.binds frame = true)
    (hsucceeds : answer.init.succeeds true = true) :
    ∃ quiet calls session, (e.writeGpu frame answer).2.calls = e.calls ++ (quiet ++ .register session :: calls) ∧
      Quiet quiet ∧ Within session (.register session :: calls) ∧ session.Live ∧
      (e.writeGpu frame answer).2.sessionManager.session = session ∧ (e.writeGpu frame answer).2.closed = e.closed := by
  obtain ⟨frame, input, rfl, hprepare, hopened, hexternal, hindex⟩ := binds_cases hbinds
  cases hbind : e.sessionManager.bindCudaContext (some input.contextHandle) (some frame.frame) 0 answer.init with
  | mk bound more =>
    obtain ⟨m, quiet⟩ := more
    obtain ⟨hok, hlive⟩ := (NvencSessionManager.bindCudaContext_made hexternal hbind).1.live hsucceeds
    simp only [writeGpu, hopened, hprepare, Option.map_some, hindex, hbind, hok, Bool.false_eq_true, ne_eq,
      not_true_eq_false, ↓reduceIte]
    obtain ⟨⟨calls, hcalls, hwithin⟩, hmanager, hclosed⟩ :=
      cudaSubmission_within { e.call quiet with sessionManager := m }
        (selectPictureTiming { e.call quiet with sessionManager := m } input.ptsNs) answer
    refine ⟨quiet, calls, m.session, ?_, NvencSessionManager.bindCudaContext_quiet hbind, hwithin, hlive, ?_, ?_⟩
    · rw [← List.append_assoc]
      exact hcalls
    · exact congrArg NvencSessionManager.session hmanager
    · exact hclosed.trans hopened

/-- When the initialization fails there is no session. -/
theorem writeGpu_unmade {frame : Option CudaFrame} {answer : NvencGpuAnswer} (hbinds : e.binds frame = true)
    (hfails : answer.init.succeeds true = false) :
    ∃ quiet m, (e.writeGpu frame answer).2 = { e with calls := e.calls ++ quiet, sessionManager := m } ∧
      Quiet quiet ∧ m.session = .empty ∧ m.externalContext = none ∧ (e.writeGpu frame answer).1.result ≠ .ok := by
  obtain ⟨frame, input, rfl, hprepare, hopened, hexternal, hindex⟩ := binds_cases hbinds
  cases hbind : e.sessionManager.bindCudaContext (some input.contextHandle) (some frame.frame) 0 answer.init with
  | mk bound more =>
    obtain ⟨m, quiet⟩ := more
    obtain ⟨hmade, hunbound⟩ := NvencSessionManager.bindCudaContext_made hexternal hbind
    obtain ⟨hbad, hempty⟩ := hmade.empty hfails
    simp only [writeGpu, hopened, hprepare, Option.map_some, hindex, hbind, hbad, Bool.false_eq_true, ne_eq,
      not_false_eq_true, ↓reduceIte]
    exact ⟨quiet, m, by simp [call, hopened, hindex], NvencSessionManager.bindCudaContext_quiet hbind, hempty,
      hunbound hbad, trivial⟩

/-! ## The end of a sequence -/

/-- A flush has drained the session and creates the next one. -/
def restarts (e : NvidiaWebmEncoder) (eos : Bool) : Bool := !e.closed && decide (e.frameIndex ≠ 0) && eos

theorem flush_kept {answer : NvencFlushAnswer} (h : e.restarts answer.eos = false) :
    ∃ calls, (e.flush answer).2 = { e with calls := e.calls ++ calls } ∧
      (calls = [] ∨ calls = [.eos e.sessionManager.session] ∧ e.closed = false ∧ e.frameIndex ≠ 0) := by
  unfold flush
  split
  · exact ⟨[], by simp, .inl rfl⟩
  · rename_i hactive
    simp only [Bool.or_eq_true, decide_eq_true_eq, not_or, Bool.not_eq_true] at hactive
    have heos : answer.eos = false := by simpa [restarts, hactive] using h
    simp only [drainNvencSession, heos, nvencError, call]
    exact ⟨_, rfl, .inr ⟨rfl, hactive⟩⟩

theorem flush_restarted {answer : NvencFlushAnswer} (h : e.restarts answer.eos = true) :
    ∃ quiet m status, (e.flush answer).2 =
        { e with
          calls := e.calls ++ .eos e.sessionManager.session :: quiet, sessionManager := m, frameIndex := 0 } ∧
      Quiet quiet ∧ NvencSessionManager.Made status m (answer.init.succeeds false) ∧ m.externalContext = none := by
  simp only [restarts, Bool.and_eq_true, Bool.not_eq_true', decide_eq_true_eq] at h
  obtain ⟨⟨hopened, hindex⟩, heos⟩ := h
  cases hrestart : e.sessionManager.restartCpu answer.init with
  | mk status more =>
    obtain ⟨m, quiet⟩ := more
    obtain ⟨hmade, hexternal⟩ := NvencSessionManager.restartCpu_made hrestart
    refine ⟨quiet, m, status, ?_, NvencSessionManager.restartCpu_quiet hrestart, hmade, hexternal⟩
    simp [flush, drainNvencSession, call, hopened, hindex, heos, hrestart]

/-- Only a session with an encoder is drained before it is destroyed. -/
theorem close_ended (answer : NvencCloseAnswer) :
    (e.close answer).2.closed = true ∧
      ∃ calls, (e.close answer).2.calls = e.calls ++ calls ∧
        ∀ c ∈ calls, ∀ session, c.session = some session →
          session = e.sessionManager.session ∧ e.closed = false ∧ session.encoder.isSome := by
  unfold close
  split
  · rename_i hclosed
    exact ⟨hclosed, [], by simp, by simp⟩
  · rename_i hopened
    have hdestroyed : ∀ c ∈ destroyNvencSession e.sessionManager.session, ∀ session, c.session ≠ some session := by
      intro c hc session hsession
      rw [destroyNvencSession_quiet _ c hc] at hsession
      cases hsession
    split
    rename_i drained e₁ hdrain
    split at hdrain
    · rename_i hactive
      cases hdrain
      rw [Bool.and_eq_true] at hactive
      have hcalls : ∀ c ∈ .eos e.sessionManager.session :: destroyNvencSession e.sessionManager.session,
          ∀ session, c.session = some session →
            session = e.sessionManager.session ∧ e.closed = false ∧ session.encoder.isSome := by
        intro c hc session hsession
        cases List.mem_cons.mp hc with
        | inl hc =>
            rw [hc] at hsession
            cases hsession
            exact ⟨rfl, Bool.eq_false_iff.mpr hopened, hactive.1⟩
        | inr hc => exact absurd hsession (hdestroyed c hc session)
      dsimp only [drainNvencSession, NvencSessionManager.destroy, call]
      split
      · exact ⟨rfl, _, List.append_assoc _ [_] _, hcalls⟩
      · exact ⟨rfl, _, List.append_assoc _ [_] _, hcalls⟩
    · cases hdrain
      have hcalls : ∀ c ∈ destroyNvencSession e.sessionManager.session, ∀ session, c.session = some session →
          session = e.sessionManager.session ∧ e.closed = false ∧ session.encoder.isSome :=
        fun c hc session hsession => absurd hsession (hdestroyed c hc session)
      exact ⟨rfl, _, rfl, hcalls⟩

/-! ## Every call -/

/-- Every call into NVENC that the operation makes for a session is for a live one, and a write without one fails. -/
def Safe (e : NvidiaWebmEncoder) (op : NvencOp) : Prop :=
  ∃ calls, (e.run op).2.calls = e.calls ++ calls ∧
    (∀ c ∈ calls, ∀ session, c.session = some session → session.Live) ∧
    (op.writes = true → Quiet calls → (e.run op).1.result ≠ .ok)

/-- Whether the latest initialization of a session has failed, behind the operation. -/
def lostBehind (e : NvidiaWebmEncoder) (op : NvencOp) (lost : Bool) : Bool :=
  match op with
  | .writeGpu frame answer => if e.binds frame then !answer.init.succeeds true else lost
  | .flush answer => if e.restarts answer.eos then !answer.init.succeeds false else lost
  | _ => lost

/-- A frame from the CPU that gets past its checks does not come behind an initialization that has failed. -/
def Allowed (s : NvidiaWebmEncoder × Bool) : NvencOp → Prop
  | .write frame answer => s.1.Admits frame answer → s.2 = false
  | _ => True

/-- The calls of an encoder, with what has become of the latest initialization. -/
def Watched : NvidiaWebmEncoder × Bool → NvencOp → NvidiaWebmEncoder × Bool → Prop :=
  Watch (fun e op e' => (e.run op).2 = e') lostBehind

/-- While the encoder is open its session is live, or the latest initialization has failed and there is none. -/
structure Held (e : NvidiaWebmEncoder) (lost : Bool) : Prop where
  live : e.closed = false → lost = false → e.sessionManager.session.Live
  empty : e.closed = false → lost = true →
    e.sessionManager.session = .empty ∧ e.sessionManager.externalContext = none ∧ e.frameIndex = 0

/-- A write that leaves the session alone and submits to it. -/
theorem Held.submitted (op : NvencOp) {lost : Bool} (h : e.Held lost) (hopened : e.closed = false) (hlost : lost = false)
    {c : NvencCall} {calls : List NvencCall} (hcalls : (e.run op).2.calls = e.calls ++ c :: calls)
    (hwithin : Within e.sessionManager.session (c :: calls)) (hmanager : (e.run op).2.sessionManager = e.sessionManager) :
    e.Safe op ∧ (e.run op).2.Held lost := by
  have hlive := h.live hopened hlost
  constructor
  · refine ⟨c :: calls, hcalls, ?_, ?_⟩
    · intro c' hc session hsession
      rw [hwithin c' hc] at hsession
      cases hsession
      exact hlive
    · intro _ hquiet
      have hnone := hquiet c List.mem_cons_self
      rw [hwithin c List.mem_cons_self] at hnone
      cases hnone
  · constructor
    · intro _ _
      rw [hmanager]
      exact hlive
    · intro _ hlost'
      rw [hlost] at hlost'
      cases hlost'

/-- A write that is rejected. -/
theorem Held.rejected (op : NvencOp) {lost : Bool} (h : e.Held lost) {status : Status}
    (hrun : e.run op = (status, e)) (hbad : status.result ≠ .ok) : e.Safe op ∧ (e.run op).2.Held lost := by
  rw [Safe, hrun]
  exact ⟨⟨[], by simp, by simp, fun _ _ => hbad⟩, h⟩

theorem Held.of_closed (hclosed : e.closed = true) (lost : Bool) : e.Held lost :=
  ⟨by simp [hclosed], by simp [hclosed]⟩

theorem Held.of_live (hlive : e.sessionManager.session.Live) : e.Held false := ⟨fun _ _ => hlive, by simp⟩

theorem writeGpu_safe {lost : Bool} (h : e.Held lost) (frame : Option CudaFrame) (answer : NvencGpuAnswer) :
    e.Safe (.writeGpu frame answer) ∧
      (e.writeGpu frame answer).2.Held (e.lostBehind (.writeGpu frame answer) lost) := by
  cases hbinds : e.binds frame with
  | false =>
      simp only [lostBehind, hbinds, Bool.false_eq_true, ↓reduceIte]
      obtain ⟨status, hrun, hbad⟩ | ⟨hexternal, ⟨calls, hcalls, hwithin⟩, hmanager, hclosed⟩ :=
        writeGpu_unbound answer hbinds
      · exact h.rejected (.writeGpu frame answer) hrun hbad
      · cases hopened : e.closed with
        | true =>
            have hrun : e.run (.writeGpu frame answer) = (closedError, e) := by simp [run, writeGpu, hopened]
            exact h.rejected _ hrun fun hok => by cases hok
        | false =>
            have hlost : lost = false :=
              Bool.eq_false_iff.mpr fun hlost => hexternal (h.empty hopened hlost).2.1
            exact h.submitted (.writeGpu frame answer) hopened hlost hcalls hwithin hmanager
  | true =>
      cases hsucceeds : answer.init.succeeds true with
      | true =>
          simp only [lostBehind, hbinds, hsucceeds, Bool.not_true, ↓reduceIte]
          obtain ⟨quiet, calls, session, hcalls, hquiet, hwithin, hlive, hsession, hclosed⟩ :=
            writeGpu_bound hbinds hsucceeds
          constructor
          · refine ⟨quiet ++ .register session :: calls, hcalls, ?_, ?_⟩
            · intro c hc session' hsession'
              cases List.mem_append.mp hc with
              | inl hc =>
                  rw [hquiet c hc] at hsession'
                  cases hsession'
              | inr hc =>
                  rw [hwithin c hc] at hsession'
                  cases hsession'
                  exact hlive
            · intro _ hnone
              have hregisters := hnone (.register session) (by simp)
              cases hregisters
          · apply Held.of_live
            rw [hsession]
            exact hlive
      | false =>
          simp only [lostBehind, hbinds, hsucceeds, Bool.not_false, ↓reduceIte]
          obtain ⟨quiet, m, hstate, hquiet, hempty, hexternal, hbad⟩ := writeGpu_unmade hbinds hsucceeds
          obtain ⟨input, view, -, -, hopened, -, hindex⟩ := binds_cases hbinds
          constructor
          · refine ⟨quiet, by rw [run, hstate], ?_, fun _ _ => hbad⟩
            intro c hc session hsession
            rw [hquiet c hc] at hsession
            cases hsession
          · rw [hstate]
            exact ⟨by simp, fun _ _ => ⟨hempty, hexternal, hindex⟩⟩

theorem flush_safe {lost : Bool} (h : e.Held lost) (answer : NvencFlushAnswer) :
    e.Safe (.flush answer) ∧ (e.flush answer).2.Held (e.lostBehind (.flush answer) lost) := by
  have heos (hopened : e.closed = false) (hindex : e.frameIndex ≠ 0) : e.sessionManager.session.Live := by
    apply h.live hopened
    exact Bool.eq_false_iff.mpr fun hlost => hindex (h.empty hopened hlost).2.2
  cases hrestarts : e.restarts answer.eos with
  | false =>
      obtain ⟨calls, hstate, hcalls⟩ := flush_kept hrestarts
      simp only [lostBehind, hrestarts, Bool.false_eq_true, ↓reduceIte]
      constructor
      · refine ⟨calls, by rw [run, hstate], ?_, nofun⟩
        intro c hc session hsession
        obtain rfl | ⟨rfl, hopened, hindex⟩ := hcalls
        · cases hc
        · cases List.mem_singleton.mp hc
          cases hsession
          exact heos hopened hindex
      · rw [hstate]
        exact ⟨h.live, h.empty⟩
  | true =>
      obtain ⟨quiet, m, status, hstate, hquiet, hmade, hexternal⟩ := flush_restarted hrestarts
      simp only [restarts, Bool.and_eq_true, Bool.not_eq_true', decide_eq_true_eq] at hrestarts
      constructor
      · refine ⟨_, by rw [run, hstate], ?_, nofun⟩
        intro c hc session hsession
        cases List.mem_cons.mp hc with
        | inl hc =>
            rw [hc] at hsession
            cases hsession
            exact heos hrestarts.1.1 hrestarts.1.2
        | inr hc =>
            rw [hquiet c hc] at hsession
            cases hsession
      · rw [hstate]
        simp only [lostBehind, restarts, hrestarts.1.1, hrestarts.1.2, hrestarts.2, Bool.not_false, ne_eq,
          not_false_eq_true, decide_true, Bool.and_self, ↓reduceIte]
        cases hsucceeds : answer.init.succeeds false with
        | true => exact .of_live (hmade.live hsucceeds).2
        | false => exact ⟨by simp, fun _ _ => ⟨(hmade.empty hsucceeds).2, hexternal, rfl⟩⟩

theorem close_safe {lost : Bool} (h : e.Held lost) (answer : NvencCloseAnswer) :
    e.Safe (.close answer) ∧ (e.close answer).2.Held lost := by
  obtain ⟨hclosed, calls, hcalls, hsessions⟩ := e.close_ended answer
  refine ⟨⟨calls, hcalls, ?_, nofun⟩, .of_closed hclosed lost⟩
  intro c hc session hsession
  obtain ⟨rfl, hopened, hencoder⟩ := hsessions c hc session hsession
  apply h.live hopened
  apply Bool.eq_false_iff.mpr
  intro hlost
  rw [(h.empty hopened hlost).1] at hencoder
  cases hencoder

/-- The next call is safe and keeps the session, if it is allowed. -/
theorem run_safe {lost : Bool} (h : e.Held lost) {op : NvencOp} (hallowed : Allowed (e, lost) op) :
    e.Safe op ∧ (e.run op).2.Held (e.lostBehind op lost) := by
  cases op with
  | write frame answer =>
      by_cases hadmits : e.Admits frame answer
      · obtain ⟨⟨calls, hcalls, hwithin⟩, hmanager, -⟩ := write_admitted hadmits
        exact h.submitted (.write frame answer) hadmits.opened (hallowed hadmits) hcalls hwithin hmanager
      · obtain ⟨status, hrun, hbad⟩ := write_rejected hadmits
        exact h.rejected _ hrun hbad
  | writeGpu frame answer => exact writeGpu_safe h frame answer
  | flush answer => exact flush_safe h answer
  | close answer => exact close_safe h answer

theorem safe_iff {lost : Bool} (h : e.Held lost) (op : NvencOp) : e.Safe op ↔ Allowed (e, lost) op := by
  constructor
  · intro hsafe
    cases op with
    | write frame answer =>
        intro hadmits
        obtain ⟨calls, hcalls, hlive, -⟩ := hsafe
        obtain ⟨⟨calls', hcalls', -⟩, -, -⟩ := write_admitted hadmits
        rw [run, hcalls', List.append_cancel_left_eq] at hcalls
        apply Bool.eq_false_iff.mpr
        intro hlost
        have hempty := hlive (.lockInput e.sessionManager.session) (hcalls ▸ List.mem_cons_self) _ rfl
        rw [(h.empty hadmits.opened hlost).1] at hempty
        exact NvencSession.empty_not_live hempty
    | _ => trivial
  · exact fun hallowed => (run_safe h hallowed).1

theorem create_held {config : Config} {av1Encode : Bool} {api : Option String} {init : NvencInit}
    {muxer : Option String} (h : create config av1Encode api init muxer = .ok e) : e.Held false := by
  unfold create at h
  split at h
  · cases h
  · cases api with
    | some error => cases h
    | none =>
        dsimp only at h
        cases hinit : NvencSessionManager.initializeSession ⟨none, .empty, none⟩ none init with
        | mk status more =>
          obtain ⟨m, calls⟩ := more
          have hmade := (NvencSessionManager.initializeSession_made hinit).1
          simp only [NvencSessionManager.initializeCpu, NvencSession.empty, Option.isSome_none, Bool.or_self,
            Bool.false_eq_true, ↓reduceIte] at h
          rw [show (⟨none, false, none, none, none⟩ : NvencSession) = .empty from rfl, hinit] at h
          dsimp only at h
          split at h
          · cases h
          · rename_i hgood
            cases muxer with
            | some error => cases h
            | none =>
                cases h
                apply Held.of_live
                cases hsucceeds : init.succeeds false with
                | true => exact (hmade.live hsucceeds).2
                | false => exact absurd (hmade.empty hsucceeds).1 hgood

/-- Behind allowed calls a call is safe when it is allowed, and only then. -/
theorem reached_safe_iff {config : Config} {av1Encode : Bool} {api : Option String} {init : NvencInit}
    {muxer : Option String} {start : NvidiaWebmEncoder} (hcreate : create config av1Encode api init muxer = .ok start)
    {ops : List NvencOp} {s : NvidiaWebmEncoder × Bool}
    (hrun : Run (Restrict Watched Allowed) (start, false) ops s) (op : NvencOp) : s.1.Safe op ↔ Allowed s op := by
  apply safe_iff
  apply hrun.invariant (I := fun s => s.1.Held s.2) (create_held hcreate)
  rintro ⟨e, lost⟩ op ⟨e', lost'⟩ hheld ⟨⟨rfl, rfl⟩, hallowed⟩
  exact (run_safe hheld hallowed).2

end NvidiaWebmEncoder

end MkvCodec.Backend
