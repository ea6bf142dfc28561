import MkvCodec.Backend.GpuPts
import MkvCodec.Backend.NvencLive

/-!
# Live codec sessions

A flush of the CPU AV1 encoder destroys its component handle; when the flush fails nothing replaces it. What is submitted
goes to a live session as long as no frame from the CPU comes behind such a failure, for SVT-AV1 and for NVENC.
-/

namespace MkvCodec.Backend

open Concurrency

/-- There is a component handle, and it has been initialized. -/
structure SvtHandle.Live (handle : SvtHandle) : Prop where
  codec : handle.codec = true
  initialized : handle.initialized = true

/-- The handle that a call submits to. -/
def SvtCall.handle : SvtCall → Option SvtHandle
  | .sendPicture handle _ _ => some handle
  | .sendEos handle _ => some handle
  | _ => none

def SvtInit.succeeds (answer : SvtInit) : Bool := answer.handle && answer.parameters && answer.init

def Av1Op.writes : Av1Op → Bool
  | .write _ _ => true
  | _ => false

namespace CpuAv1Encoder

variable {e e' : CpuAv1Encoder} {status : Status} {lost : Bool}

/-- Packets have been collected: the handle and the sequence are the same. -/
structure Collected (e e' : CpuAv1Encoder) : Prop where
  handle : e'.handle = e.handle
  eosSent : e'.eosSent = e.eosSent
  closed : e'.closed = e.closed
  calls : ∃ calls, e'.calls = e.calls ++ calls ∧ ∀ c ∈ calls, c.handle = none

theorem Collected.refl (e : CpuAv1Encoder) : Collected e e := ⟨rfl, rfl, rfl, [], by simp, by simp⟩

/-- One more packet in front. -/
theorem Collected.packet {packet : SvtPacket} {muxer : WebmMuxer}
    (h : Collected { e.call [.getPacket packet] with muxer := muxer } e') : Collected e e' := by
  obtain ⟨hhandle, heos, hclosed, calls, hcalls, hnone⟩ := h
  refine ⟨hhandle, heos, hclosed, .getPacket packet :: calls, ?_, ?_⟩
  · rw [hcalls, call, List.append_assoc]
    rfl
  · intro c hc
    cases List.mem_cons.mp hc with
    | inl hc => rw [hc]; rfl
    | inr hc => exact hnone c hc

theorem collectPackets_collected (failed : Bool) (packets : List SvtAnswer) (e : CpuAv1Encoder) :
    Collected e (e.collectPackets failed packets).2 := by
  induction packets generalizing e with
  | nil =>
      unfold collectPackets
      split
      · exact .refl e
      · exact .refl e
  | cons head rest ih =>
      obtain ⟨packet, answer⟩ := head
      unfold collectPackets
      dsimp only
      split
      · split
        · exact (Collected.refl _).packet
        · exact (ih _).packet
      · split
        · exact (Collected.refl _).packet
        · split
          · exact (Collected.refl _).packet
          · exact (ih _).packet

/-! ## The parts of a call -/

theorem encodeFrame_calls (e : CpuAv1Encoder) (requestedPts : Int) (answer : Av1WriteAnswer) :
    (encodeFrame e requestedPts answer).2.handle = e.handle ∧
      (encodeFrame e requestedPts answer).2.eosSent = e.eosSent ∧
      (encodeFrame e requestedPts answer).2.closed = e.closed ∧
      ∃ pts sent calls, (encodeFrame e requestedPts answer).2.calls = e.calls ++ .sendPicture e.handle pts sent :: calls ∧
        ∀ c ∈ calls, c.handle = none := by
  unfold encodeFrame
  dsimp only
  split
  · exact ⟨rfl, rfl, rfl, _, _, [], rfl, by simp⟩
  · obtain ⟨hhandle, heos, hclosed, calls, hcalls, hnone⟩ := collectPackets_collected answer.packets.failed
      answer.packets.packets
      { e.call [.sendPicture e.handle (e.timing.select requestedPts) answer.sent] with
        timing := e.timing.commit (e.timing.select requestedPts), framesInSequence := e.framesInSequence + 1 }
    exact ⟨hhandle, heos, hclosed, _, _, calls, hcalls.trans (List.append_assoc _ [_] _), hnone⟩

/-- Only a sequence with frames on an initialized handle is ended. -/
theorem endSequence_calls (e : CpuAv1Encoder) (answer : SvtEnd) :
    (endSequence e answer).2.closed = e.closed ∧
      ∃ calls, (endSequence e answer).2.calls = e.calls ++ calls ∧
        ∀ c ∈ calls, ∀ handle, c.handle = some handle →
          handle = e.handle ∧ e.codecInitialized = true ∧ e.framesInSequence ≠ 0 := by
  unfold endSequence
  split
  · exact ⟨rfl, [], by simp, by simp⟩
  · rename_i hactive
    simp only [Bool.or_eq_true, Bool.not_eq_true', decide_eq_true_eq, not_or, Bool.not_eq_false] at hactive
    have heos (calls : List SvtCall) (hnone : ∀ c ∈ calls, c.handle = none) :
        ∀ c ∈ .sendEos e.handle answer.sent :: calls, ∀ handle, c.handle = some handle →
          handle = e.handle ∧ e.codecInitialized = true ∧ e.framesInSequence ≠ 0 := by
      intro c hc handle hhandle
      cases List.mem_cons.mp hc with
      | inl hc =>
          rw [hc] at hhandle
          cases hhandle
          exact ⟨rfl, hactive⟩
      | inr hc =>
          rw [hnone c hc] at hhandle
          cases hhandle
    dsimp only
    split
    · exact ⟨rfl, _, rfl, heos [] (by simp)⟩
    · obtain ⟨-, -, hclosed, calls, hcalls, hnone⟩ := collectPackets_collected answer.packets.failed
        answer.packets.packets { e.call [.sendEos e.handle answer.sent] with eosSent := true }
      exact ⟨hclosed, _, hcalls.trans (List.append_assoc _ [_] _), heos calls hnone⟩

theorem destroyCodec_calls (e : CpuAv1Encoder) :
    ∃ calls, (destroyCodec e).calls = e.calls ++ calls ∧ ∀ c ∈ calls, c.handle = none := by
  rw [destroyCodec_eq]
  refine ⟨_, rfl, ?_⟩
  cases e.codecInitialized with
  | false => cases e.codec <;> simp [SvtCall.handle]
  | true => cases e.codec <;> simp [SvtCall.handle]

/-- An initialization that succeeds gives a live handle, and one that fails none. -/
theorem initializeCodec_made (hcodec : e.codecInitialized = false) (answer : SvtInit) :
    (∃ calls, (e.initializeCodec answer).2.calls = e.calls ++ calls ∧ ∀ c ∈ calls, c.handle = none) ∧
      if answer.succeeds then (e.initializeCodec answer).2.handle.Live
      else (e.initializeCodec answer).2.codecInitialized = false ∧
        (e.initializeCodec answer).2.framesInSequence = e.framesInSequence := by
  obtain ⟨handle, parameters, init⟩ := answer
  cases handle with
  | false => exact ⟨⟨[.initHandle], rfl, by simp [SvtCall.handle]⟩, hcodec, rfl⟩
  | true =>
      cases parameters with
      | false => exact ⟨⟨[.initHandle, .setParameter], List.append_assoc _ [_] _, by simp [SvtCall.handle]⟩, hcodec, rfl⟩
      | true =>
          cases init with
          | false =>
              exact ⟨⟨[.initHandle, .setParameter, .init], List.append_assoc _ [_] _, by simp [SvtCall.handle]⟩, hcodec, rfl⟩
          | true =>
              exact ⟨⟨[.initHandle, .setParameter, .init], List.append_assoc _ [_] _, by simp [SvtCall.handle]⟩, rfl, rfl⟩

/-! ## Every call -/

/-- A frame gets past the checks of `write`. -/
structure Admits (e : CpuAv1Encoder) (frame : FrameView) (answer : Av1WriteAnswer) : Prop where
  opened : e.closed = false
  accepting : e.eosSent = false
  width : frame.width = e.width
  height : frame.height = e.height
  converted : (convertCpuFrameToI420 frame e.width e.height e.image "AV1" answer.libyuv).result = .ok

/-- Every submission of the operation goes to a live handle, and a write without one fails. -/
def Safe (e : CpuAv1Encoder) (op : Av1Op) : Prop :=
  ∃ calls, (e.run op).2.calls = e.calls ++ calls ∧ (∀ c ∈ calls, ∀ handle, c.handle = some handle → handle.Live) ∧
    (op.writes = true → (∀ c ∈ calls, c.handle = none) → (e.run op).1.result ≠ .ok)

/-- A flush ends the sequence. -/
def ends (e : CpuAv1Encoder) : Bool := !e.closed && decide (e.framesInSequence ≠ 0)

/-- The sequence ends without an error, and the next handle is initialized. -/
def restarts (e : CpuAv1Encoder) (answer : Av1FlushAnswer) : Bool :=
  decide ((endSequence e answer.ended).1.result = .ok) && answer.init.succeeds

/-- Whether the latest flush of a sequence has failed, behind the operation. -/
def lostBehind (e : CpuAv1Encoder) (op : Av1Op) (lost : Bool) : Bool :=
  match op with
  | .flush answer => if e.ends then !e.restarts answer else lost
  | _ => lost

/-- A frame that gets past its checks does not come behind a flush that has failed. -/
def Allowed (s : CpuAv1Encoder × Bool) : Av1Op → Prop
  | .write frame answer => s.1.Admits frame answer → s.2 = false
  | _ => True

/-- The calls of an encoder, with what has become of the latest flush. -/
def Watched : CpuAv1Encoder × Bool → Av1Op → CpuAv1Encoder × Bool → Prop :=
  Watch (fun e op e' => (e.run op).2 = e') lostBehind

/-- While the encoder is open its handle is live, or the latest flush has failed and there is none. -/
structure Held (e : CpuAv1Encoder) (lost : Bool) : Prop where
  live : e.closed = false → lost = false → e.handle.Live
  gone : e.closed = false → lost = true → e.codecInitialized = false ∧ e.framesInSequence = 0

theorem Held.of_closed (hclosed : e.closed = true) (lost : Bool) : e.Held lost :=
  ⟨by simp [hclosed], by simp [hclosed]⟩

theorem Held.of_live (hlive : e.handle.Live) : e.Held false := ⟨fun _ _ => hlive, by simp⟩

theorem Held.of_gone (hcodec : e.codecInitialized = false) (hframes : e.framesInSequence = 0) : e.Held true :=
  ⟨by simp, fun _ _ => ⟨hcodec, hframes⟩⟩

theorem write_admitted {frame : FrameView} {answer : Av1WriteAnswer} (h : e.Admits frame answer) :
    e.write frame answer = encodeFrame e frame.pts answer := by
  rw [write, if_neg (by simp [h.opened, h.accepting]), if_neg (by simp [h.width, h.height])]
  dsimp only
  rw [if_neg (by simp [h.converted])]

theorem write_rejected {frame : FrameView} {answer : Av1WriteAnswer} (h : ¬ e.Admits frame answer) :
    ∃ status : Status, e.write frame answer = (status, e) ∧ status.result ≠ .ok := by
  unfold write
  split
  · exact ⟨_, rfl, nofun⟩
  · rename_i hopened
    split
    · exact ⟨_, rfl, nofun⟩
    · rename_i hdims
      dsimp only
      split
      · exact ⟨_, rfl, by assumption⟩
      · rename_i hconverted
        simp only [Bool.or_eq_true, not_or, Bool.not_eq_true, ne_eq, not_not] at hopened hdims hconverted
        exact absurd ⟨hopened.1, hopened.2, hdims.1, hdims.2, hconverted⟩ h

theorem write_safe (h : e.Held lost) {frame : FrameView} {answer : Av1WriteAnswer}
    (hallowed : Allowed (e, lost) (.write frame answer)) :
    e.Safe (.write frame answer) ∧ (e.write frame answer).2.Held lost := by
  by_cases hadmits : e.Admits frame answer
  · have hlost : lost = false := hallowed hadmits
    have hlive := h.live hadmits.opened hlost
    obtain ⟨hhandle, -, -, pts, sent, calls, hcalls, hnone⟩ := encodeFrame_calls e frame.pts answer
    rw [Safe, run, write_admitted hadmits]
    constructor
    · refine ⟨_, hcalls, ?_, ?_⟩
      · intro c hc handle hc'
        cases List.mem_cons.mp hc with
        | inl hc =>
            rw [hc] at hc'
            cases hc'
            exact hlive
        | inr hc =>
            rw [hnone c hc] at hc'
            cases hc'
      · intro _ hquiet
        have hsubmits := hquiet (.sendPicture e.handle pts sent) List.mem_cons_self
        cases hsubmits
    · rw [hlost]
      apply Held.of_live
      rw [hhandle]
      exact hlive
  · obtain ⟨status, hrun, hbad⟩ := write_rejected hadmits
    rw [Safe, run, hrun]
    exact ⟨⟨[], by simp, by simp, fun _ _ => hbad⟩, h⟩

theorem flush_kept {answer : Av1FlushAnswer} (h : e.ends = false) : e.flush answer = (.ok, e) := by
  unfold flush
  split
  · rfl
  · rename_i hopened
    rw [if_pos (by simpa [ends, hopened] using h)]

/-- A flush that ends the sequence submits to the handle before it destroys it. -/
theorem flush_ended (answer : Av1FlushAnswer) (h : e.ends = true) :
    (∃ calls, (e.flush answer).2.calls = e.calls ++ calls ∧
        ∀ c ∈ calls, ∀ handle, c.handle = some handle → handle = e.handle) ∧
      if e.restarts answer then (e.flush answer).2.handle.Live
      else (e.flush answer).2.codecInitialized = false ∧ (e.flush answer).2.framesInSequence = 0 := by
  simp only [ends, Bool.and_eq_true, Bool.not_eq_true', decide_eq_true_eq] at h
  obtain ⟨-, calls, hcalls, hhandle⟩ := endSequence_calls e answer.ended
  obtain ⟨calls', hcalls', hnone⟩ := destroyCodec_calls (endSequence e answer.ended).2
  have hdestroyed : (destroyCodec (endSequence e answer.ended).2).codecInitialized = false ∧
      (destroyCodec (endSequence e answer.ended).2).framesInSequence = 0 := by
    rw [destroyCodec_eq]
    exact ⟨rfl, rfl⟩
  have htwo : ∀ more : List SvtCall, (∀ c ∈ more, c.handle = none) →
      ∀ c ∈ calls ++ (calls' ++ more), ∀ handle, c.handle = some handle → handle = e.handle := by
    intro more hmore c hc handle hc'
    simp only [List.mem_append] at hc
    obtain hc | hc | hc := hc
    · exact (hhandle c hc handle hc').1
    · rw [hnone c hc] at hc'
      cases hc'
    · rw [hmore c hc] at hc'
      cases hc'
  rw [flush, if_neg (by simp [h.1]), if_neg h.2]
  dsimp only
  by_cases hok : (endSequence e answer.ended).1.result = .ok
  · rw [if_neg (by simp [hok])]
    obtain ⟨⟨more, hmore, hquiet⟩, hmade⟩ := initializeCodec_made hdestroyed.1 answer.init
    refine ⟨⟨calls ++ (calls' ++ more), ?_, htwo more hquiet⟩, ?_⟩
    · rw [hmore, hcalls', hcalls, List.append_assoc, List.append_assoc]
    · rw [hdestroyed.2] at hmade
      simpa [restarts, hok] using hmade
  · rw [if_pos hok]
    refine ⟨⟨calls ++ (calls' ++ []), ?_, htwo [] (by simp)⟩, ?_⟩
    · rw [hcalls', hcalls, List.append_assoc, List.append_nil]
    · rw [if_neg (by simp [restarts, hok])]
      exact hdestroyed

theorem flush_safe (h : e.Held lost) (answer : Av1FlushAnswer) :
    e.Safe (.flush answer) ∧ (e.flush answer).2.Held (e.lostBehind (.flush answer) lost) := by
  cases hends : e.ends with
  | false =>
      rw [Safe, run, flush_kept hends, lostBehind, hends]
      exact ⟨⟨[], by simp, by simp, fun hwrites => by cases hwrites⟩, h⟩
  | true =>
      obtain ⟨⟨calls, hcalls, hhandle⟩, hmade⟩ := flush_ended answer hends
      have hactive := hends
      simp only [ends, Bool.and_eq_true, Bool.not_eq_true', decide_eq_true_eq] at hactive
      have hlive : e.handle.Live := by
        apply h.live hactive.1
        exact Bool.eq_false_iff.mpr fun hlost => hactive.2 (h.gone hactive.1 hlost).2
      constructor
      · refine ⟨calls, hcalls, ?_, fun hwrites => by cases hwrites⟩
        intro c hc handle hc'
        rw [hhandle c hc handle hc']
        exact hlive
      · rw [lostBehind, hends, if_pos rfl]
        cases hrestarts : e.restarts answer with
        | true =>
            rw [hrestarts] at hmade
            exact .of_live hmade
        | false =>
            rw [hrestarts] at hmade
            exact .of_gone hmade.1 hmade.2

/-- A close submits to the handle if it is initialized, and then destroys it. -/
theorem close_ended (answer : Av1CloseAnswer) :
    (e.close answer).2.closed = true ∧
      ∃ calls, (e.close answer).2.calls = e.calls ++ calls ∧
        ∀ c ∈ calls, ∀ handle, c.handle = some handle →
          handle = e.handle ∧ e.closed = false ∧ e.codecInitialized = true := by
  unfold close
  split
  · rename_i hclosed
    exact ⟨hclosed, [], by simp, by simp⟩
  · rename_i hopened
    split
    rename_i ended e₁ hended
    have hfirst : ∃ calls, e₁.calls = e.calls ++ calls ∧ ∀ c ∈ calls, ∀ handle, c.handle = some handle →
        handle = e.handle ∧ e.closed = false ∧ e.codecInitialized = true := by
      split at hended
      · obtain ⟨-, calls, hcalls, hhandle⟩ := endSequence_calls e answer.ended
        rw [hended] at hcalls
        refine ⟨calls, hcalls, fun c hc handle hc' => ?_⟩
        obtain ⟨heq, hcodec, -⟩ := hhandle c hc handle hc'
        exact ⟨heq, Bool.eq_false_iff.mpr hopened, hcodec⟩
      · cases hended
        exact ⟨[], by simp, by simp⟩
    obtain ⟨calls, hcalls, hhandle⟩ := hfirst
    split
    rename_i status muxer hfinalize
    obtain ⟨calls', hcalls', hnone⟩ := destroyCodec_calls { e₁ with muxer := muxer }
    refine ⟨rfl, calls ++ calls', ?_, ?_⟩
    · change (destroyCodec { e₁ with muxer := muxer }).calls = _
      rw [hcalls', hcalls, List.append_assoc]
    · intro c hc handle hc'
      cases List.mem_append.mp hc with
      | inl hc => exact hhandle c hc handle hc'
      | inr hc =>
          rw [hnone c hc] at hc'
          cases hc'

theorem close_safe (h : e.Held lost) (answer : Av1CloseAnswer) :
    e.Safe (.close answer) ∧ (e.close answer).2.Held lost := by
  obtain ⟨hclosed, calls, hcalls, hhandle⟩ := e.close_ended answer
  refine ⟨⟨calls, hcalls, ?_, nofun⟩, .of_closed hclosed lost⟩
  intro c hc handle hc'
  obtain ⟨rfl, hopened, hcodec⟩ := hhandle c hc handle hc'
  apply h.live hopened
  apply Bool.eq_false_iff.mpr
  intro hlost
  rw [(h.gone hopened hlost).1] at hcodec
  cases hcodec

/-- The next call is safe and keeps the handle, if it is allowed. -/
theorem run_safe (h : e.Held lost) {op : Av1Op} (hallowed : Allowed (e, lost) op) :
    e.Safe op ∧ (e.run op).2.Held (e.lostBehind op lost) := by
  cases op with
  | write frame answer => exact write_safe h hallowed
  | flush answer => exact flush_safe h answer
  | close answer => exact close_safe h answer

theorem safe_iff (h : e.Held lost) (op : Av1Op) : e.Safe op ↔ Allowed (e, lost) op := by
  constructor
  · intro hsafe
    cases op with
    | write frame answer =>
        intro hadmits
        obtain ⟨calls, hcalls, hlive, -⟩ := hsafe
        obtain ⟨-, -, -, pts, sent, calls', hcalls', -⟩ := encodeFrame_calls e frame.pts answer
        rw [run, write_admitted hadmits, hcalls', List.append_cancel_left_eq] at hcalls
        apply Bool.eq_false_iff.mpr
        intro hlost
        have hinitialized := (hlive (.sendPicture e.handle pts sent) (hcalls ▸ List.mem_cons_self) _ rfl).initialized
        rw [handle, (h.gone hadmits.opened hlost).1] at hinitialized
        cases hinitialized
    | _ => trivial
  · exact fun hallowed => (run_safe h hallowed).1

theorem reached_safe_iff {config : Config} {ops : List Av1Op} {s : CpuAv1Encoder × Bool}
    (hrun : Run (Restrict Watched Allowed) (created config, false) ops s) (op : Av1Op) : s.1.Safe op ↔ Allowed s op := by
  apply safe_iff
  apply hrun.invariant (I := fun s => s.1.Held s.2) (.of_live ⟨rfl, rfl⟩)
  rintro ⟨e, lost⟩ op ⟨e', lost'⟩ hheld ⟨⟨rfl, rfl⟩, hallowed⟩
  exact (run_safe hheld hallowed).2

end CpuAv1Encoder

/-! ## Both encoders -/

/-- In the runs where no frame from the CPU gets past its checks behind a failure, every submission is to a live session,
and the first such frame is submitted to none. -/
theorem live_submissions_iff (config : Config) :
    (∀ {av1Encode : Bool} {api : Option String} {init : NvencInit} {muxer : Option String} {start : NvidiaWebmEncoder},
      NvidiaWebmEncoder.create config av1Encode api init muxer = .ok start →
      ∀ {ops : List NvencOp} {s : NvidiaWebmEncoder × Bool},
        Run (Restrict NvidiaWebmEncoder.Watched NvidiaWebmEncoder.Allowed) (start, false) ops s →
        ∀ op, s.1.Safe op ↔ NvidiaWebmEncoder.Allowed s op) ∧
      ∀ {ops : List Av1Op} {s : CpuAv1Encoder × Bool},
        Run (Restrict CpuAv1Encoder.Watched CpuAv1Encoder.Allowed) (.created config, false) ops s →
        ∀ op, s.1.Safe op ↔ CpuAv1Encoder.Allowed s op :=
  ⟨fun hcreate _ _ hrun op => NvidiaWebmEncoder.reached_safe_iff hcreate hrun op,
    fun hrun op => CpuAv1Encoder.reached_safe_iff hrun op⟩

/-! ## A bind and a flush that fail -/

def smallNvencWrite : NvencOp :=
  .write (smallFrame 0) ⟨true, ⟨true, true, .success⟩, some ⟨[0], 0, 0, true⟩, smallAdd⟩

/-- A frame from the GPU whose context no session can be opened on. -/
def failedBind : NvencOp :=
  .writeGpu (some (smallCudaFrame 0))
    ⟨⟨none, .failed none, true, true, none, none⟩, ⟨true, true, true⟩, some ⟨[0], 0, 0, true⟩, smallAdd⟩

def smallAv1Write : Av1Op := .write (smallFrame 0) ⟨true, true, [(⟨false, [0], 0, true⟩, smallAdd)], false⟩

/-- A flush whose end-of-stream picture is rejected. -/
def failedAv1Flush : Av1Op := .flush ⟨⟨false, [], false⟩, ⟨true, true, true⟩⟩

theorem bind_failed : ∃ start s, NvidiaWebmEncoder.create videoConfig true none smallInit none = .ok start ∧
    Run (Restrict NvidiaWebmEncoder.Watched NvidiaWebmEncoder.Allowed) (start, false) [failedBind] s ∧
    ¬ NvidiaWebmEncoder.Allowed s smallNvencWrite := by
  refine ⟨_, (_, true), rfl, .single ⟨⟨rfl, rfl⟩, trivial⟩, fun h => ?_⟩
  have hlost := h ⟨rfl, rfl, rfl, rfl⟩
  cases hlost

theorem flush_failed : ∃ s,
    Run (Restrict CpuAv1Encoder.Watched CpuAv1Encoder.Allowed) (.created videoConfig, false)
      ([smallAv1Write] ++ [failedAv1Flush]) s ∧ ¬ CpuAv1Encoder.Allowed s smallAv1Write := by
  have hwrite : Run (Restrict CpuAv1Encoder.Watched CpuAv1Encoder.Allowed) (.created videoConfig, false) [smallAv1Write]
      (_, false) := .single ⟨⟨rfl, rfl⟩, fun _ => rfl⟩
  refine ⟨(_, true), hwrite.append (.single ⟨⟨rfl, rfl⟩, trivial⟩), fun h => ?_⟩
  have hlost := h ⟨rfl, rfl, rfl, rfl, rfl⟩
  cases hlost

theorem live_submissions_small :
    (∃ start s, NvidiaWebmEncoder.create videoConfig true none smallInit none = .ok start ∧
      Run (Restrict NvidiaWebmEncoder.Watched NvidiaWebmEncoder.Allowed) (start, false) [failedBind] s ∧
      (s.1.Safe smallNvencWrite ↔ NvidiaWebmEncoder.Allowed s smallNvencWrite)) ∧
    ∃ s : CpuAv1Encoder × Bool,
      Run (Restrict CpuAv1Encoder.Watched CpuAv1Encoder.Allowed) (.created videoConfig, false)
        ([smallAv1Write] ++ [failedAv1Flush]) s ∧
      (s.1.Safe smallAv1Write ↔ CpuAv1Encoder.Allowed s smallAv1Write) := by
  obtain ⟨start, s, hcreate, hrun, -⟩ := bind_failed
  obtain ⟨s', hrun', -⟩ := flush_failed
  exact ⟨⟨start, s, hcreate, hrun, (live_submissions_iff videoConfig).1 hcreate hrun smallNvencWrite⟩,
    s', hrun', (live_submissions_iff videoConfig).2 hrun' smallAv1Write⟩

/-- Behind a bind that fails, a frame from the CPU is submitted to no session; behind a flush that fails, to no handle. -/
theorem dead_submissions :
    (¬ ∀ (config : Config) (av1Encode : Bool) (api : Option String) (init : NvencInit) (muxer : Option String)
      (start : NvidiaWebmEncoder), NvidiaWebmEncoder.create config av1Encode api init muxer = .ok start →
      ∀ ops s, Run NvidiaWebmEncoder.Watched (start, false) ops s → ∀ op, s.1.Safe op) ∧
    ¬ ∀ (config : Config) (ops : List Av1Op) (s : CpuAv1Encoder × Bool),
      Run CpuAv1Encoder.Watched (.created config, false) ops s → ∀ op, s.1.Safe op := by
  constructor
  · intro h
    obtain ⟨start, s, hcreate, hrun, hforbidden⟩ := bind_failed
    apply hforbidden
    rw [← NvidiaWebmEncoder.reached_safe_iff hcreate hrun]
    exact h _ _ _ _ _ _ hcreate _ _ hrun.of_restrict _
  · intro h
    obtain ⟨s, hrun, hforbidden⟩ := flush_failed
    apply hforbidden
    rw [← CpuAv1Encoder.reached_safe_iff hrun]
    exact h _ _ _ hrun.of_restrict _

end MkvCodec.Backend
