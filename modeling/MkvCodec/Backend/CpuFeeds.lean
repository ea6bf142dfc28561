import MkvCodec.Backend.Feed
import MkvCodec.Backend.Lemmas.Packets

/-!
# The CPU encoders as feeds

Both CPU encoders count in frames, give the codec the number of the frame, and convert it when it comes back.
-/

namespace MkvCodec.Backend

namespace FrameTiming

theorem select_nat {t : FrameTiming} {n : Nat} (hn : t.nextPts = n) (requested : Int) :
    t.select requested = selectPts n requested := by
  unfold select selectPts
  split
  · omega
  · exact hn

theorem commit_nat {t : FrameTiming} {n : Nat} (hn : t.nextPts = n) {requested : Int}
    (h : selectPts n requested + 1 < 2 ^ 63) :
    (t.commit (t.select requested)).nextPts = (advance 1 n requested : Nat) := by
  have hcast : i64 (t.select requested + 1) = (selectPts n requested + 1 : Nat) := by
    rw [t.select_nat hn]
    exact i64_of_nat h
  rw [commit, hcast, hn, advance]
  dsimp only
  omega

/-- What a call that asks for a frame, or for none, makes of the timing. -/
def answer (t : FrameTiming) (request : Option Int) : FrameTiming := request.elim t fun r => t.commit (t.select r)

theorem answer_rates (t : FrameTiming) (request : Option Int) :
    (t.answer request).fpsNum = t.fpsNum ∧ (t.answer request).fpsDen = t.fpsDen := by
  cases request with
  | none => exact ⟨rfl, rfl⟩
  | some r => exact ⟨rfl, rfl⟩

theorem answer_nat {t : FrameTiming} {n : Nat} (hn : t.nextPts = n) (request : Option Int)
    (h : ∀ r, request = some r → selectPts n r + 1 < 2 ^ 63) :
    (t.answer request).nextPts = (request.elim n (advance 1 n) : Nat) := by
  cases request with
  | none => exact hn
  | some r => exact commit_nat hn (h r rfl)

end FrameTiming

theorem WebmMuxer.finalize_timestamps {m m' : WebmMuxer} {answer : FinalizeAnswer} {status : Status}
    (h : m.finalize answer = (status, m')) : m'.timestamps = m.timestamps := by
  have hframes := m.finalize_frames answer
  rw [h] at hframes
  rw [timestamps, timestamps, hframes]

/-! ## Encoders that count in frames -/

/-- The part of a CPU encoder that the time stamps go through, with calls `C` into the codec. -/
structure CpuView (C : Type*) where
  timing : FrameTiming
  calls : List C
  muxer : WebmMuxer

section

variable {S O C : Type*} (submitted returned : C → Option Int)

/-- Between `v` and `v'` the codec has taken what the request asks for, and the container what has come back. -/
structure Feeds (v v' : CpuView C) (request : Option Int) : Prop where
  timing : v'.timing = v.timing.answer request
  calls : ∃ calls, v'.calls = v.calls ++ calls ∧
    calls.filterMap submitted = request.elim [] (fun r => [v.timing.select r]) ∧
    v'.muxer.timestamps = v.muxer.timestamps ++ (calls.filterMap returned).map v.timing.toNanoseconds

namespace Feeds

variable {submitted returned} {v v' v'' : CpuView C} {request : Option Int}

theorem refl (v : CpuView C) : Feeds submitted returned v v none := ⟨rfl, [], by simp, rfl, by simp⟩

theorem trans (h : Feeds submitted returned v v' request) (h' : Feeds submitted returned v' v'' none) :
    Feeds submitted returned v v'' request := by
  obtain ⟨htiming, calls, hcalls, hsub, hts⟩ := h
  obtain ⟨htiming', calls', hcalls', hsub', hts'⟩ := h'
  have hsame : v'.timing.toNanoseconds = v.timing.toNanoseconds := by
    have hrates := v.timing.answer_rates request
    rw [← htiming] at hrates
    funext p
    rw [FrameTiming.toNanoseconds, FrameTiming.toNanoseconds, hrates.1, hrates.2]
  constructor
  · rw [htiming', htiming]
    rfl
  · apply Exists.intro (calls ++ calls')
    constructor
    · rw [hcalls', hcalls, List.append_assoc]
    · constructor
      · rw [List.filterMap_append, hsub, hsub']
        simp
      · rw [hts', hts, List.filterMap_append, List.map_append, List.append_assoc, hsame]

/-- A step without a call. -/
theorem of_eq (htiming : v'.timing = v.timing) (hcalls : v'.calls = v.calls)
    (hts : v'.muxer.timestamps = v.muxer.timestamps) : Feeds submitted returned v v' none :=
  ⟨htiming, [], by simp [hcalls], rfl, by simp [hts]⟩

/-- Steps that neither submit nor return anything. -/
theorem of_calls {calls : List C} (htiming : v'.timing = v.timing) (hcalls : v'.calls = v.calls ++ calls)
    (hsub : calls.filterMap submitted = []) (hret : calls.filterMap returned = [])
    (hts : v'.muxer.timestamps = v.muxer.timestamps) : Feeds submitted returned v v' none :=
  ⟨htiming, calls, hcalls, hsub, by rw [hts, hret]; simp⟩

/-- The call that submits a frame, with the timing that is then committed. -/
theorem of_submission {c : C} {requested : Int} (htiming : v'.timing = v.timing.answer (some requested))
    (hcalls : v'.calls = v.calls ++ [c]) (hsub : submitted c = some (v.timing.select requested))
    (hret : returned c = none) (hmuxer : v'.muxer = v.muxer) : Feeds submitted returned v v' (some requested) :=
  ⟨htiming, [c], hcalls, by simp [hsub], by simp [hret, hmuxer]⟩

end Feeds

/-- An encoder whose successful calls feed its codec. -/
def cpuFeed (view : S → CpuView C) (accepts : S → O → S → Prop) (request : O → Option Int)
    (hfeeds : ∀ {e o e'}, accepts e o e' → Feeds submitted returned (view e) (view e') (request o))
    (fpsNum fpsDen : Nat) : Feed S O Int where
  accepts := accepts
  request := request
  inv e := (view e).timing.fpsNum = fpsNum ∧ (view e).timing.fpsDen = fpsDen
  next e := (view e).timing.nextPts
  submitted e := (view e).calls.filterMap submitted
  returned e := (view e).calls.filterMap returned
  timestamps e := (view e).muxer.timestamps
  unit := 1
  encode p := p
  decode p := toNanoseconds fpsNum fpsDen p
  step := by
    intro e op e' n hinv hnext hno haccepts
    obtain ⟨htiming, calls, hcalls, hsub, hts⟩ := hfeeds haccepts
    have hrates := (view e).timing.answer_rates (request op)
    refine ⟨?_, ?_, ?_, calls.filterMap returned, ?_, ?_⟩
    · rw [htiming, hrates.1, hrates.2]
      exact hinv
    · rw [htiming]
      exact FrameTiming.answer_nat hnext (request op) hno
    · rw [hcalls, List.filterMap_append, hsub]
      simp only [FrameTiming.select_nat hnext]
    · rw [hcalls, List.filterMap_append]
    · rw [hts, ← hinv.1, ← hinv.2]
      rfl

end

/-! ## VP9 -/

/-- The time stamp of a frame that libvpx has taken. -/
def VpxCall.submitted : VpxCall → Option Int
  | .encode pts none => some pts
  | _ => none

theorem vpxGets_submitted (packets : List (VpxPacket × AddAnswer)) :
    (vpxGets packets).filterMap VpxCall.submitted = [] := by
  rw [List.filterMap_eq_nil_iff]
  intro call hcall
  obtain ⟨p, -, rfl⟩ := List.mem_map.mp hcall
  rfl

def Vp9Op.request : Vp9Op → Option Int
  | .write frame _ => some frame.pts
  | _ => none

namespace CpuVp9Encoder

variable {e e' : CpuVp9Encoder} {status : Status}

def view (e : CpuVp9Encoder) : CpuView VpxCall := ⟨e.timing, e.calls, e.muxer⟩

/-- A successful part of a call that asks for `request`. -/
abbrev FeedsVpx (e e' : CpuVp9Encoder) (request : Option Int) : Prop :=
  Feeds VpxCall.submitted VpxCall.returned e.view e'.view request

theorem collectPackets_feeds {packets : List (VpxPacket × AddAnswer)} (h : e.collectPackets packets = (status, e'))
    (hok : status.result = .ok) : FeedsVpx e e' none := by
  obtain ⟨heq, hts⟩ := collectPackets_ok h hok
  constructor
  · rw [heq]
    rfl
  · exact ⟨vpxGets packets, by rw [heq]; rfl, vpxGets_submitted packets, hts⟩

theorem write_feeds {frame : FrameView} {answer : Vp9WriteAnswer} (h : e.write frame answer = (status, e'))
    (hok : status.result = .ok) : FeedsVpx e e' (some frame.pts) := by
  unfold write at h
  split at h
  · cases h
    cases hok
  · split at h
    · cases h
      cases hok
    · dsimp only at h
      split at h
      · rename_i hbad
        cases h
        exact absurd hok hbad
      · unfold encodeFrame at h
        split at h
        · cases h
          cases hok
        · dsimp only at h
          split at h
          · cases h
            cases hok
          · rename_i herror
            rw [herror] at h
            have hsend : FeedsVpx e
                { e.call (.encode (e.timing.select frame.pts) none) with
                  timing := e.timing.commit (e.timing.select frame.pts) } (some frame.pts) :=
              .of_submission rfl rfl rfl rfl rfl
            exact hsend.trans (collectPackets_feeds h hok)

theorem flush_feeds {answer : VpxAnswer} (h : e.flush answer = (status, e')) (hok : status.result = .ok) :
    FeedsVpx e e' none := by
  unfold flush at h
  split at h
  · cases h
    exact .refl e.view
  · unfold flushCodec at h
    split at h
    · cases h
      cases hok
    · have hcall : FeedsVpx e (e.call .flush) none := .of_calls rfl rfl rfl rfl rfl
      exact hcall.trans (collectPackets_feeds h hok)

theorem destroyCodec_feeds (e : CpuVp9Encoder) : FeedsVpx e (destroyCodec e) none := by
  unfold destroyCodec
  split
  · exact .refl e.view
  · exact .of_calls rfl rfl rfl rfl rfl

theorem close_feeds {answer : Vp9CloseAnswer} (h : e.close answer = (status, e')) (hok : status.result = .ok) :
    FeedsVpx e e' none := by
  unfold close at h
  split at h
  · cases h
    exact .refl e.view
  · cases hflush : if e.codecInitialized then e.flush answer.flush else (.ok, e) with
    | mk flushed e₁ =>
      rw [hflush] at h
      dsimp only at h
      have hfirst : flushed.result = .ok → FeedsVpx e e₁ none := by
        intro hgood
        split at hflush
        · exact flush_feeds hflush hgood
        · cases hflush
          exact .refl e.view
      split at h
      · rename_i hgood
        cases hfinal : e₁.muxer.finalize answer.finalize with
        | mk final muxer =>
          rw [hfinal] at h
          cases h
          have hmux : FeedsVpx e₁ { e₁ with muxer := muxer } none :=
            .of_eq rfl rfl (WebmMuxer.finalize_timestamps hfinal)
          exact (hfirst hgood).trans (hmux.trans (destroyCodec_feeds _))
      · rename_i hbad
        cases h
        exact absurd hok hbad

/-- The calls of the encoder that succeed. -/
def Accepts (e : CpuVp9Encoder) (op : Vp9Op) (e' : CpuVp9Encoder) : Prop :=
  ∃ status : Status, e.run op = (status, e') ∧ status.result = .ok

theorem Accepts.feeds {op : Vp9Op} (h : Accepts e op e') : FeedsVpx e e' op.request := by
  obtain ⟨status, hrun, hok⟩ := h
  cases op with
  | write frame answer => exact write_feeds hrun hok
  | flush answer => exact flush_feeds hrun hok
  | close answer => exact close_feeds hrun hok

end CpuVp9Encoder

def vp9Feed : Nat → Nat → Feed CpuVp9Encoder Vp9Op Int :=
  cpuFeed VpxCall.submitted VpxCall.returned CpuVp9Encoder.view CpuVp9Encoder.Accepts Vp9Op.request
    CpuVp9Encoder.Accepts.feeds

/-! ## AV1 -/

/-- The time stamp of a picture that SVT-AV1 has taken. -/
def SvtCall.submitted : SvtCall → Option Int
  | .sendPicture _ pts true => some pts
  | _ => none

theorem svtGets_submitted (packets : List SvtPacket) :
    (packets.map SvtCall.getPacket).filterMap SvtCall.submitted = [] := by
  rw [List.filterMap_eq_nil_iff]
  intro call hcall
  obtain ⟨p, -, rfl⟩ := List.mem_map.mp hcall
  rfl

def Av1Op.request : Av1Op → Option Int
  | .write frame _ => some frame.pts
  | _ => none

namespace CpuAv1Encoder

variable {e e' : CpuAv1Encoder} {status : Status}

def view (e : CpuAv1Encoder) : CpuView SvtCall := ⟨e.timing, e.calls, e.muxer⟩

/-- A successful part of a call that asks for `request`. -/
abbrev FeedsSvt (e e' : CpuAv1Encoder) (request : Option Int) : Prop :=
  Feeds SvtCall.submitted SvtCall.returned e.view e'.view request

theorem collectPackets_feeds {packets : List SvtAnswer} {failed : Bool}
    (h : e.collectPackets failed packets = (status, e')) (hok : status.result = .ok) : FeedsSvt e e' none := by
  obtain ⟨gets, heq, hts⟩ := collectPackets_ok h hok
  constructor
  · rw [heq]
    rfl
  · exact ⟨gets.map .getPacket, by rw [heq]; rfl, svtGets_submitted gets, hts⟩

theorem initializeCodec_feeds {answer : SvtInit} (h : e.initializeCodec answer = (status, e')) :
    FeedsSvt e e' none := by
  unfold initializeCodec at h
  split at h
  · cases h
    exact .of_calls rfl rfl rfl rfl rfl
  · dsimp only at h
    split at h
    · cases h
      exact .of_calls rfl (List.append_assoc _ _ _) rfl rfl rfl
    · split at h
      · cases h
        exact .of_calls rfl (List.append_assoc _ _ _) rfl rfl rfl
      · cases h
        exact .of_calls rfl (List.append_assoc _ _ _) rfl rfl rfl

theorem destroyCodec_eq (e : CpuAv1Encoder) :
    destroyCodec e =
      { e with
        codec := false, codecInitialized := false, eosSent := false, framesInSequence := 0
        calls := e.calls ++ ((if e.codecInitialized then [.deinit] else []) ++ if e.codec then [.deinitHandle] else []) } := by
  obtain ⟨codec, initialized, _, _, _, _, _, _, _, _, _, _, _⟩ := e
  cases codec with
  | false => cases initialized <;> simp [destroyCodec, call]
  | true => cases initialized <;> simp [destroyCodec, call]

theorem destroyCodec_feeds (e : CpuAv1Encoder) : FeedsSvt e (destroyCodec e) none := by
  rw [destroyCodec_eq]
  refine .of_calls rfl rfl ?_ ?_ rfl
  · cases e.codecInitialized <;> cases e.codec <;> rfl
  · cases e.codecInitialized <;> cases e.codec <;> rfl

theorem endSequence_feeds {answer : SvtEnd} (h : e.endSequence answer = (status, e')) (hok : status.result = .ok) :
    FeedsSvt e e' none := by
  unfold endSequence at h
  split at h
  · cases h
    exact .refl e.view
  · dsimp only at h
    split at h
    · cases h
      cases hok
    · have hsend : FeedsSvt e { e.call [.sendEos e.handle answer.sent] with eosSent := true } none :=
        .of_calls rfl rfl rfl rfl rfl
      exact hsend.trans (collectPackets_feeds h hok)

theorem write_feeds {frame : FrameView} {answer : Av1WriteAnswer} (h : e.write frame answer = (status, e'))
    (hok : status.result = .ok) : FeedsSvt e e' (some frame.pts) := by
  unfold write at h
  split at h
  · cases h
    cases hok
  · split at h
    · cases h
      cases hok
    · dsimp only at h
      split at h
      · rename_i hbad
        cases h
        exact absurd hok hbad
      · unfold encodeFrame at h
        dsimp only at h
        split at h
        · cases h
          cases hok
        · rename_i hsent
          have hsent' : answer.sent = true := by simpa using hsent
          rw [hsent'] at h
          have hsend : FeedsSvt e
              { e.call [.sendPicture e.handle (e.timing.select frame.pts) true] with
                timing := e.timing.commit (e.timing.select frame.pts), framesInSequence := e.framesInSequence + 1 }
              (some frame.pts) := .of_submission rfl rfl rfl rfl rfl
          exact hsend.trans (collectPackets_feeds h hok)

theorem flush_feeds {answer : Av1FlushAnswer} (h : e.flush answer = (status, e')) (hok : status.result = .ok) :
    FeedsSvt e e' none := by
  unfold flush at h
  split at h
  · cases h
    exact .refl e.view
  · split at h
    · cases h
      exact .refl e.view
    · cases hend : e.endSequence answer.ended with
      | mk ended e₁ =>
        rw [hend] at h
        dsimp only at h
        split at h
        · rename_i hbad
          cases h
          exact absurd hok hbad
        · rename_i hgood
          have hfirst := endSequence_feeds hend (not_not.mp hgood)
          exact hfirst.trans ((destroyCodec_feeds e₁).trans (initializeCodec_feeds h))

theorem close_feeds {answer : Av1CloseAnswer} (h : e.close answer = (status, e')) (hok : status.result = .ok) :
    FeedsSvt e e' none := by
  unfold close at h
  split at h
  · cases h
    exact .refl e.view
  · cases hend : if e.codecInitialized && !e.eosSent then e.endSequence answer.ended else (.ok, e) with
    | mk ended e₁ =>
      rw [hend] at h
      dsimp only at h
      have hfirst : ended.result = .ok → FeedsSvt e e₁ none := by
        intro hgood
        split at hend
        · exact endSequence_feeds hend hgood
        · cases hend
          exact .refl e.view
      split at h
      · rename_i hgood
        cases hfinal : e₁.muxer.finalize answer.finalize with
        | mk final muxer =>
          rw [hfinal] at h
          cases h
          have hmux : FeedsSvt e₁ { e₁ with muxer := muxer } none :=
            .of_eq rfl rfl (WebmMuxer.finalize_timestamps hfinal)
          exact (hfirst hgood).trans (hmux.trans (destroyCodec_feeds _))
      · rename_i hbad
        cases h
        exact absurd hok hbad

/-- The calls of the encoder that succeed. -/
def Accepts (e : CpuAv1Encoder) (op : Av1Op) (e' : CpuAv1Encoder) : Prop :=
  ∃ status : Status, e.run op = (status, e') ∧ status.result = .ok

theorem Accepts.feeds {op : Av1Op} (h : Accepts e op e') : FeedsSvt e e' op.request := by
  obtain ⟨status, hrun, hok⟩ := h
  cases op with
  | write frame answer => exact write_feeds hrun hok
  | flush answer => exact flush_feeds hrun hok
  | close answer => exact close_feeds hrun hok

end CpuAv1Encoder

def av1Feed : Nat → Nat → Feed CpuAv1Encoder Av1Op Int :=
  cpuFeed SvtCall.submitted SvtCall.returned CpuAv1Encoder.view CpuAv1Encoder.Accepts Av1Op.request
    CpuAv1Encoder.Accepts.feeds

end MkvCodec.Backend
