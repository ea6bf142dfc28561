import MkvCodec.Backend.CpuFeeds
import MkvCodec.Backend.Lemmas.Nvenc

/-!
# The NVIDIA encoder as a feed

This encoder counts in nanoseconds: a time stamp goes to NVENC and into the container as it comes, and a frame without
one follows the latest by one frame duration.
-/

namespace MkvCodec.Backend

/-- What a call asks for. -/
def NvencOp.request : NvencOp → Option Int
  | .write frame _ => some frame.pts
  | .writeGpu (some frame) _ => some frame.desc.pts
  | _ => none

/-- The duration of a frame as a `uint64_t` is exact. -/
theorem durationNanoseconds_eq (config : Config) :
    durationNanoseconds config.fpsNum config.fpsDen = config.fpsDen * 1000000000 / config.fpsNum := by
  have hden := config.fpsDen_lt
  rw [durationNanoseconds, u64_of_lt (by omega)]

theorem durationNanoseconds_lt (config : Config) : durationNanoseconds config.fpsNum config.fpsDen < 2 ^ 63 := by
  have hden := config.fpsDen_lt
  have hle : config.fpsDen * 1000000000 / config.fpsNum ≤ config.fpsDen * 1000000000 := Nat.div_le_self _ _
  rw [durationNanoseconds_eq]
  omega

namespace NvidiaWebmEncoder

variable {config : Config} {e e' e'' : NvidiaWebmEncoder} {status : Status}

structure Rated (config : Config) (e : NvidiaWebmEncoder) : Prop where
  num : e.fpsNum = config.fpsNum
  den : e.fpsDen = config.fpsDen

/-- Between `e` and `e'` NVENC has taken what the request asks for, and the container what has come back. -/
structure FeedsNvenc (e e' : NvidiaWebmEncoder) (taken : List Nat) : Prop where
  num : e'.fpsNum = e.fpsNum
  den : e'.fpsDen = e.fpsDen
  calls : ∃ calls, e'.calls = e.calls ++ calls ∧ calls.filterMap NvencCall.submitted = taken ∧
    e'.muxer.timestamps = e.muxer.timestamps ++ calls.filterMap NvencCall.returned

theorem FeedsNvenc.trans {taken taken' : List Nat} (h : FeedsNvenc e e' taken) (h' : FeedsNvenc e' e'' taken') :
    FeedsNvenc e e'' (taken ++ taken') := by
  obtain ⟨calls, hcalls, hsub, hts⟩ := h.calls
  obtain ⟨calls', hcalls', hsub', hts'⟩ := h'.calls
  refine ⟨h'.num.trans h.num, h'.den.trans h.den, calls ++ calls', ?_, ?_, ?_⟩
  · rw [hcalls', hcalls, List.append_assoc]
  · rw [List.filterMap_append, hsub, hsub']
  · rw [hts', hts, List.filterMap_append, List.append_assoc]

/-- Calls that submit nothing. -/
theorem FeedsNvenc.of_quiet {calls : List NvencCall} (hquiet : Quiet calls) (hnum : e'.fpsNum = e.fpsNum)
    (hden : e'.fpsDen = e.fpsDen) (hcalls : e'.calls = e.calls ++ calls)
    (hts : e'.muxer.timestamps = e.muxer.timestamps) : FeedsNvenc e e' [] :=
  ⟨hnum, hden, calls, hcalls, hquiet.submitted, by rw [hts, hquiet.returned, List.append_nil]⟩

theorem finish_feeds {timing : PictureTiming} {submitted : Status} {packet : Option NvencPacket} {add : AddAnswer}
    (h : e.finish timing submitted packet add = (status, e')) (hok : status.result = .ok) :
    submitted.result = .ok ∧ FeedsNvenc e e' [] ∧ e'.nextPts = (e.commitPicture timing).nextPts := by
  unfold finish at h
  split at h
  · rename_i hbad
    cases h
    exact absurd hok hbad
  · rename_i hgood
    cases hmux : muxNvencPacket e.sessionManager.session e.muxer (durationNanoseconds e.fpsNum e.fpsDen) packet add with
    | mk muxed more =>
      obtain ⟨muxer, calls⟩ := more
      rw [hmux] at h
      dsimp only at h
      split at h
      · rename_i hbad
        cases h
        exact absurd hok hbad
      · cases h
        obtain ⟨hsub, hts⟩ := muxNvencPacket_ok hmux hok
        exact ⟨not_not.mp hgood, ⟨rfl, rfl, calls, rfl, hsub, hts⟩, rfl⟩

theorem selectPictureTiming_nat {n : Nat} (hn : e.nextPts = n) (requested : Int) :
    (e.selectPictureTiming requested).ptsNs = selectPts n requested := by
  unfold selectPictureTiming selectPts
  dsimp only
  split
  · omega
  · exact hn

/-- The counter moves on from the picture by the duration of a frame. -/
theorem commitPicture_nat (hrated : e.Rated config) {n : Nat} (hn : e.nextPts = n) {requested : Int}
    (hno : selectPts n requested + durationNanoseconds config.fpsNum config.fpsDen < 2 ^ 63) :
    (e.commitPicture (e.selectPictureTiming requested)).nextPts =
      (advance (durationNanoseconds config.fpsNum config.fpsDen) n requested : Nat) := by
  have hduration : (e.selectPictureTiming requested).durationNs =
      (durationNanoseconds config.fpsNum config.fpsDen : Nat) := by
    rw [selectPictureTiming, hrated.num, hrated.den]
    exact asInt64_of_lt (durationNanoseconds_lt config)
  have hcast : i64 ((e.selectPictureTiming requested).ptsNs + (e.selectPictureTiming requested).durationNs) =
      (selectPts n requested + durationNanoseconds config.fpsNum config.fpsDen : Nat) := by
    rw [e.selectPictureTiming_nat hn, hduration]
    exact i64_of_nat hno
  rw [commitPicture, hcast, hn, advance]
  dsimp only
  omega

/-! ## Calls -/

/-- A frame that asks for `requested` has been taken, and the counter has moved on from it. -/
structure Takes (e e' : NvidiaWebmEncoder) (requested : Int) : Prop where
  feeds : FeedsNvenc e e' [asUInt64 (e.selectPictureTiming requested).ptsNs]
  next : e'.nextPts = (e.commitPicture (e.selectPictureTiming requested)).nextPts

theorem write_takes {frame : FrameView} {answer : NvencCpuAnswer} (h : e.write frame answer = (status, e'))
    (hok : status.result = .ok) : Takes e e' frame.pts := by
  unfold write at h
  split at h
  · cases h
    cases hok
  · split at h
    · cases h
      cases hok
    · dsimp only at h
      split at h
      · rename_i hbad
        cases h
        exact absurd hok hbad
      · cases hsubmit : submitNvencCpuFrame e.sessionManager.session true
            (e.picture (e.selectPictureTiming frame.pts)) answer.submit with
        | mk submitted calls =>
          rw [hsubmit] at h
          obtain ⟨hgood, hfinish, hnext⟩ := finish_feeds h hok
          have hcalls := submitNvencCpuFrame_ok hsubmit hgood
          have hsend : FeedsNvenc e (e.call calls) [asUInt64 (e.selectPictureTiming frame.pts).ptsNs] := by
            rw [hcalls]
            exact ⟨rfl, rfl, _, rfl, rfl, (List.append_nil _).symm⟩
          exact ⟨hsend.trans hfinish, hnext⟩

theorem prepareNvencCudaFrame_ok {frame : Option CudaFrame} {width height : Nat} {view : NvencCudaFrameView}
    (h : prepareNvencCudaFrame frame width height = .ok view) :
    ∃ input, frame = some input ∧ view.ptsNs = input.desc.pts := by
  unfold prepareNvencCudaFrame at h
  split at h
  · cases h
  · rename_i input
    apply Exists.intro input
    dsimp only at h
    split at h
    · cases h
    · split at h
      · cases h
      · split at h
        · cases h
        · split at h
          · cases h
          · split at h
            · cases h
            · split at h
              · cases h
              · cases h
                exact ⟨rfl, rfl⟩

theorem prepareNvencCudaFrame_error {frame : Option CudaFrame} {width height : Nat} {status : Status}
    (h : prepareNvencCudaFrame frame width height = .error status) : status.result ≠ .ok := by
  unfold prepareNvencCudaFrame at h
  split at h
  · cases h
    nofun
  · rename_i input
    dsimp only at h
    split at h
    · cases h
      nofun
    · split at h
      · cases h
        nofun
      · split at h
        · cases h
          nofun
        · split at h
          · rename_i hbad
            cases h
            exact hbad
          · split at h
            · rename_i hnative
              cases h
              exact input.native_error _ hnative
            · split at h
              · cases h
                nofun
              · cases h

theorem writeGpu_takes {frame : Option CudaFrame} {answer : NvencGpuAnswer}
    (h : e.writeGpu frame answer = (status, e')) (hok : status.result = .ok) :
    ∃ input, frame = some input ∧ Takes e e' input.desc.pts := by
  unfold writeGpu at h
  split at h
  · cases h
    cases hok
  · split at h
    · rename_i hprepare
      cases h
      exact absurd hok (prepareNvencCudaFrame_error hprepare)
    · rename_i view hprepare
      obtain ⟨input, hframe, hpts⟩ := prepareNvencCudaFrame_ok hprepare
      apply Exists.intro input
      cases hbind : e.sessionManager.bindCudaContext (some view.contextHandle) (frame.map CudaFrame.frame) e.frameIndex
          answer.init with
      | mk bound more =>
        obtain ⟨sessionManager, calls⟩ := more
        rw [hbind] at h
        dsimp only at h
        split at h
        · rename_i hbad
          cases h
          exact absurd hok hbad
        · have hopen : FeedsNvenc e { e.call calls with sessionManager := sessionManager } [] :=
            .of_quiet (NvencSessionManager.bindCudaContext_quiet hbind) rfl rfl rfl rfl
          rw [hpts] at h
          cases hsubmit : submitNvencCudaFrame sessionManager.session
              (e.picture (e.selectPictureTiming input.desc.pts)) answer.submit with
          | mk submitted calls' =>
            change NvidiaWebmEncoder.finish
              (call { e.call calls with sessionManager := sessionManager }
                (submitNvencCudaFrame sessionManager.session (e.picture (e.selectPictureTiming input.desc.pts))
                  answer.submit).2)
              (e.selectPictureTiming input.desc.pts)
              (submitNvencCudaFrame sessionManager.session (e.picture (e.selectPictureTiming input.desc.pts))
                answer.submit).1 answer.packet answer.add = (status, e') at h
            rw [hsubmit] at h
            obtain ⟨hgood, hfinish, hnext⟩ := finish_feeds h hok
            have hcalls := submitNvencCudaFrame_ok hsubmit hgood
            have hsend : FeedsNvenc { e.call calls with sessionManager := sessionManager }
                (call { e.call calls with sessionManager := sessionManager } calls')
                [asUInt64 (e.selectPictureTiming input.desc.pts).ptsNs] := by
              rw [hcalls]
              exact ⟨rfl, rfl, _, rfl, rfl, (List.append_nil _).symm⟩
            exact ⟨hframe, hopen.trans (hsend.trans hfinish), hnext⟩

theorem flush_feeds {answer : NvencFlushAnswer} (h : e.flush answer = (status, e')) (hok : status.result = .ok) :
    FeedsNvenc e e' [] ∧ e'.nextPts = e.nextPts := by
  unfold flush at h
  split at h
  · cases h
    exact ⟨.of_quiet .nil rfl rfl (List.append_nil _).symm rfl, rfl⟩
  · dsimp only at h
    split at h
    · rename_i hbad
      cases h
      exact absurd hok hbad
    · cases hrestart : (e.drainNvencSession answer.eos).2.sessionManager.restartCpu answer.init with
      | mk restarted more =>
        obtain ⟨sessionManager, calls⟩ := more
        rw [hrestart] at h
        cases h
        have hquiet := NvencSessionManager.restartCpu_quiet hrestart
        constructor
        · refine ⟨rfl, rfl, .eos e.sessionManager.session :: calls, ?_, ?_, ?_⟩
          · exact List.append_assoc _ [_] calls
          · exact hquiet.submitted
          · exact (List.append_nil _).symm.trans (congrArg _ hquiet.returned.symm)
        · rfl

theorem close_feeds {answer : NvencCloseAnswer} (h : e.close answer = (status, e')) (hok : status.result = .ok) :
    FeedsNvenc e e' [] ∧ e'.nextPts = e.nextPts := by
  unfold close at h
  split at h
  · cases h
    exact ⟨.of_quiet .nil rfl rfl (List.append_nil _).symm rfl, rfl⟩
  · cases hdrain : if e.sessionManager.session.encoder.isSome && decide (0 < e.frameIndex) then
        e.drainNvencSession answer.eos else (.ok, e) with
    | mk drained e₁ =>
      rw [hdrain] at h
      dsimp only at h
      have hfirst : FeedsNvenc e e₁ [] ∧ e₁.nextPts = e.nextPts := by
        split at hdrain
        · cases hdrain
          exact ⟨⟨rfl, rfl, [.eos e.sessionManager.session], rfl, rfl, (List.append_nil _).symm⟩, rfl⟩
        · cases hdrain
          exact ⟨.of_quiet .nil rfl rfl (List.append_nil _).symm rfl, rfl⟩
      split at h
      · rename_i hbad
        cases h
        exact absurd hok hbad
      · cases h
        have hrest : FeedsNvenc e₁
            { e₁ with
              muxer := (e₁.muxer.finalize answer.finalize).2
              calls := e₁.calls ++ destroyNvencSession e₁.sessionManager.session } [] :=
          .of_quiet (destroyNvencSession_quiet _) rfl rfl rfl (WebmMuxer.finalize_timestamps rfl)
        obtain ⟨hnum, hden, hcalls⟩ := hfirst.1.trans hrest
        exact ⟨⟨hnum, hden, hcalls⟩, hfirst.2⟩

/-- The calls of the encoder that succeed. -/
def Accepts (e : NvidiaWebmEncoder) (op : NvencOp) (e' : NvidiaWebmEncoder) : Prop :=
  ∃ status : Status, e.run op = (status, e') ∧ status.result = .ok

theorem Accepts.takes {op : NvencOp} (h : Accepts e op e') :
    (∃ requested, op.request = some requested ∧ Takes e e' requested) ∨
      op.request = none ∧ FeedsNvenc e e' [] ∧ e'.nextPts = e.nextPts := by
  obtain ⟨status, hrun, hok⟩ := h
  cases op with
  | write frame answer => exact .inl ⟨_, rfl, write_takes hrun hok⟩
  | writeGpu frame answer =>
      obtain ⟨input, rfl, htakes⟩ := writeGpu_takes hrun hok
      exact .inl ⟨_, rfl, htakes⟩
  | flush answer => exact .inr ⟨rfl, flush_feeds hrun hok⟩
  | close answer => exact .inr ⟨rfl, close_feeds hrun hok⟩

/-- As long as the counter does not overflow, time stamps and counter are those of the natural numbers. -/
theorem Accepts.feeds {n : Nat} (hrated : e.Rated config) (hn : e.nextPts = n) {op : NvencOp}
    (hno : ∀ r, op.request = some r → selectPts n r + durationNanoseconds config.fpsNum config.fpsDen < 2 ^ 63)
    (h : Accepts e op e') :
    FeedsNvenc e e' (op.request.elim [] fun r => [selectPts n r]) ∧
      e'.nextPts = (op.request.elim n (advance (durationNanoseconds config.fpsNum config.fpsDen) n) : Nat) := by
  cases h.takes with
  | inl htakes =>
      obtain ⟨requested, hrequest, hfeeds, hnext⟩ := htakes
      have hsmall := hno requested hrequest
      have hstamp : asUInt64 (e.selectPictureTiming requested).ptsNs = selectPts n requested := by
        rw [selectPictureTiming_nat hn]
        exact asUInt64_of_nat (by omega)
      rw [hstamp] at hfeeds
      rw [hrequest]
      exact ⟨hfeeds, hnext.trans (commitPicture_nat hrated hn hsmall)⟩
  | inr hquiet =>
      rw [hquiet.1]
      exact ⟨hquiet.2.1, hquiet.2.2.trans hn⟩

end NvidiaWebmEncoder

def nvencFeed (config : Config) : Feed NvidiaWebmEncoder NvencOp Nat where
  accepts := NvidiaWebmEncoder.Accepts
  request := NvencOp.request
  inv e := e.Rated config
  next e := e.nextPts
  submitted e := e.calls.filterMap NvencCall.submitted
  returned e := e.calls.filterMap NvencCall.returned
  timestamps e := e.muxer.timestamps
  unit := durationNanoseconds config.fpsNum config.fpsDen
  encode p := p
  decode t := t
  step := by
    intro e op e' n hinv hnext hno haccepts
    obtain ⟨⟨hnum, hden, calls, hcalls, hsub, hts⟩, hnext'⟩ := haccepts.feeds hinv hnext hno
    refine ⟨⟨hnum.trans hinv.num, hden.trans hinv.den⟩, hnext', ?_, calls.filterMap NvencCall.returned, ?_, ?_⟩
    · rw [hcalls, List.filterMap_append, hsub]
    · rw [hcalls, List.filterMap_append]
    · rw [hts, List.map_id']

end MkvCodec.Backend
