import MkvCodec.Backend.NvencFeed
import MkvCodec.Backend.FrameLayout

/-!
# Automatic time stamps stay ahead

A write without a time stamp takes the counter of its encoder. The counter is to be ahead of everything that the codec has
accepted. What a call can do to it is said once, for an encoder of any kind, with failures of the codec and of the
container; the three encoders that count are of that kind.
-/

namespace MkvCodec.Backend

open Concurrency (Run Restrict)

/-- The time stamp that a write gives to the codec. -/
def chosenPts (next requested : Int) : Int := if 0 ≤ requested then requested else next

/-- What one call offers to the codec, with whether it is accepted, and the counter behind it. `taken` says that the
codec would accept a picture, `written` that the container would take its packet. -/
inductive Moves (unit next : Int) (request : Option Int) (taken written : Prop) : List (Int × Bool) → Int → Prop
  | quiet : Moves unit next request taken written [] next
  | rejected {r : Int} : request = some r → Moves unit next request taken written [(chosenPts next r, false)] next
  | accepted {r : Int} : request = some r → taken →
      Moves unit next request taken written [(chosenPts next r, true)] (max next (i64 (chosenPts next r + unit)))
  | lost {r : Int} : request = some r → taken → ¬ written →
      Moves unit next request taken written [(chosenPts next r, true)] next

/-- An encoder with states `S` that answers calls `O`. `offered` are the time stamps that the codec has been given so far,
each with whether it was accepted; `next` is the counter and `unit` what it leaves behind a picture. `moves` is the law of
one call on counters of an `int64_t`. -/
structure Stamped (S O : Type*) where
  run : S → O → S
  request : O → Option Int
  taken : O → Prop
  written : S → O → Prop
  offered : S → List (Int × Bool)
  next : S → Int
  unit : S → Int
  moves : ∀ s o, 0 ≤ next s → next s < 2 ^ 63 → (∀ r, request o = some r → r < 2 ^ 63) →
    ∃ new, offered (run s o) = offered s ++ new ∧
      Moves (unit s) (next s) (request o) (taken o) (written s o) new (next (run s o))

namespace Stamped

variable {S O : Type*} (E : Stamped S O) {s : S} {o : O}

/-- The counter is ahead of every time stamp that the codec has accepted. -/
structure Ahead (s : S) : Prop where
  nonneg : 0 ≤ E.next s
  lt : E.next s < 2 ^ 63
  ahead : ∀ p, (p, true) ∈ E.offered s → p < E.next s

/-- A call whose time stamp is an `int64_t`, and one with room for a frame behind it if the codec accepts it. A frame lasts,
and its packet gets into the container. -/
structure Careful (s : S) (o : O) : Prop where
  int64 : ∀ r, E.request o = some r → r < 2 ^ 63
  room : E.taken o → ∀ r, E.request o = some r → chosenPts (E.next s) r + E.unit s < 2 ^ 63
  lasts : E.taken o → 0 < E.unit s
  written : E.taken o → E.written s o

/-- An automatic time stamp is greater than every accepted one. Where nothing is accepted the counter stays, and no sum of
the counter overflows. -/
def Fine (s : S) (o : O) : Prop :=
  ∃ new, E.offered (E.run s o) = E.offered s ++ new ∧
    (∀ r, E.request o = some r → r < 0 → ∀ p ∈ new, ∀ q, (q, true) ∈ E.offered s → q < p.1) ∧
    ((∀ p ∈ new, p.2 = false) → E.next (E.run s o) = E.next s) ∧
    ∀ p ∈ new, p.2 = true → p.1 + E.unit s < 2 ^ 63

theorem chosenPts_nonneg {next requested : Int} (h : 0 ≤ next) : 0 ≤ chosenPts next requested := by
  unfold chosenPts
  split
  · assumption
  · exact h

theorem i64_of_range {n : Int} (h : 0 ≤ n) (hlt : n < 2 ^ 63) : i64 n = n := by
  obtain ⟨k, rfl⟩ := Int.eq_ofNat_of_zero_le h
  exact i64_of_nat (by exact_mod_cast hlt)

theorem i64_chosenPts {next requested : Int} (h : 0 ≤ next ∧ next < 2 ^ 63) (hrequested : requested < 2 ^ 63) :
    i64 (chosenPts next requested) = chosenPts next requested := by
  refine i64_of_range (chosenPts_nonneg h.1) ?_
  unfold chosenPts
  split
  · exact hrequested
  · exact h.2

variable {E}

/-- What one careful call does. -/
theorem Ahead.step (h : E.Ahead s) (hc : E.Careful s o) : E.Ahead (E.run s o) ∧ E.Fine s o := by
  obtain ⟨new, hnew, hmoves⟩ := E.moves s o h.nonneg h.lt hc.int64
  -- an automatic write is given the counter
  have hauto : ∀ r, r < 0 → ∀ q, (q, true) ∈ E.offered s → q < chosenPts (E.next s) r := by
    intro r hr q hq
    rw [chosenPts, if_neg (by omega)]
    exact h.ahead q hq
  generalize hnext : E.next (E.run s o) = next' at hmoves
  cases hmoves with
  | quiet =>
      refine ⟨⟨hnext ▸ h.nonneg, hnext ▸ h.lt, ?_⟩, [], hnew, by simp, fun _ => hnext, by simp⟩
      rw [hnew, List.append_nil, hnext]
      exact h.ahead
  | @rejected r hrequest =>
      refine ⟨⟨hnext ▸ h.nonneg, hnext ▸ h.lt, ?_⟩, _, hnew, ?_, fun _ => hnext, by simp⟩
      · rw [hnew, hnext]
        simpa using h.ahead
      · rintro r' hr' hneg p hp
        obtain rfl : r = r' := Option.some.inj (hrequest.symm.trans hr')
        obtain rfl := List.mem_singleton.mp hp
        exact hauto r hneg
  | @accepted r hrequest htaken =>
      have hroom := hc.room htaken r hrequest
      have hunit := hc.lasts htaken
      have hchosen : 0 ≤ chosenPts _ r := chosenPts_nonneg h.nonneg
      have hlt := h.lt
      rw [i64_of_range (by omega) hroom] at hnext
      refine ⟨⟨by rw [hnext]; omega, by rw [hnext]; omega, ?_⟩, _, hnew, ?_, by simp, ?_⟩
      · intro p hp
        rw [hnew, List.mem_append, List.mem_singleton, Prod.mk.injEq] at hp
        rw [hnext]
        rcases hp with hp | ⟨rfl, -⟩
        · have := h.ahead p hp
          omega
        · omega
      · rintro r' hr' hneg p hp
        obtain rfl : r = r' := Option.some.inj (hrequest.symm.trans hr')
        obtain rfl := List.mem_singleton.mp hp
        exact hauto r hneg
      · intro p hp _
        obtain rfl := List.mem_singleton.mp hp
        exact hroom
  | lost hrequest htaken hlost => exact absurd (hc.written htaken) hlost

/-- In every run of careful calls the counter stays ahead, and every further careful call is fine. -/
def Keeps (E : Stamped S O) (init : S) : Prop :=
  ∀ (ops : List O) (s : S), Run (Restrict (fun s o t => t = E.run s o) E.Careful) init ops s →
    E.Ahead s ∧ ∀ o, E.Careful s o → E.Fine s o

theorem Ahead.keeps {init : S} (h : E.Ahead init) : E.Keeps init := by
  intro ops s hrun
  have hahead : E.Ahead s := hrun.invariant h fun hs hst => hst.1 ▸ (hs.step hst.2).1
  exact ⟨hahead, fun o hc => (hahead.step hc).2⟩

end Stamped

/-! ## VP9 -/

/-- A time stamp that libvpx is given, and whether it is accepted. -/
def VpxCall.offered : VpxCall → Option (Int × Bool)
  | .encode pts error => some (pts, error.isNone)
  | _ => none

namespace CpuVp9Encoder

/-- The timing, and what the codec has been offered. -/
def counter (e : CpuVp9Encoder) : FrameTiming × List (Int × Bool) := (e.timing, e.calls.filterMap VpxCall.offered)

theorem call_counter (e : CpuVp9Encoder) {c : VpxCall} (h : c.offered = none) : (e.call c).counter = e.counter := by
  rw [counter, counter, call, List.filterMap_append, List.filterMap_cons_none h, List.filterMap_nil, List.append_nil]

theorem collectPackets_counter (e : CpuVp9Encoder) (packets : List (VpxPacket × AddAnswer)) :
    (e.collectPackets packets).2.counter = e.counter := by
  induction packets generalizing e with
  | nil => rfl
  | cons head rest ih =>
      obtain ⟨packet, answer⟩ := head
      have hcall : (e.call (.getPacket packet)).counter = e.counter := e.call_counter rfl
      simp only [collectPackets]
      split
      · exact (ih _).trans hcall
      split
      · exact hcall
      · exact (ih _).trans hcall

theorem flush_counter (e : CpuVp9Encoder) (answer : VpxAnswer) : (e.flush answer).2.counter = e.counter := by
  have hcall : (e.call .flush).counter = e.counter := e.call_counter rfl
  unfold flush flushCodec
  split
  · rfl
  split
  · exact hcall
  · exact (collectPackets_counter _ _).trans hcall

theorem destroyCodec_counter (e : CpuVp9Encoder) : e.destroyCodec.counter = e.counter := by
  unfold destroyCodec
  split
  · rfl
  · exact e.call_counter rfl

theorem close_counter (e : CpuVp9Encoder) (answer : Vp9CloseAnswer) : (e.close answer).2.counter = e.counter := by
  unfold close
  split
  · rfl
  · have hflush : (if e.codecInitialized then e.flush answer.flush else (.ok, e)).2.counter = e.counter := by
      split
      · exact e.flush_counter answer.flush
      · rfl
    exact (destroyCodec_counter _).trans hflush

/-- A write offers the chosen time stamp if it gets as far as libvpx, and counts if libvpx accepts it. -/
theorem write_moves (e : CpuVp9Encoder) (frame : FrameView) (answer : Vp9WriteAnswer) (written : Prop) :
    ∃ new, (e.write frame answer).2.counter.2 = e.counter.2 ++ new ∧
      Moves 1 e.timing.nextPts (some frame.pts) (answer.encode.error = none) written new
        (e.write frame answer).2.counter.1.nextPts := by
  unfold write
  split
  · exact ⟨[], (List.append_nil _).symm, .quiet⟩
  split
  · exact ⟨[], (List.append_nil _).symm, .quiet⟩
  dsimp only
  split
  · exact ⟨[], (List.append_nil _).symm, .quiet⟩
  unfold encodeFrame
  split
  · exact ⟨[], (List.append_nil _).symm, .quiet⟩
  dsimp only
  split
  · rename_i error herror
    refine ⟨[(e.timing.select frame.pts, false)], ?_, .rejected rfl⟩
    rw [counter, call, List.filterMap_append, herror]
    rfl
  · rename_i herror
    refine ⟨[(e.timing.select frame.pts, true)], ?_, ?_⟩
    · rw [collectPackets_counter, herror]
      exact List.filterMap_append
    · rw [collectPackets_counter]
      exact .accepted rfl herror

end CpuVp9Encoder

def vp9Stamped : Stamped CpuVp9Encoder Vp9Op where
  run e op := (e.run op).2
  request := Vp9Op.request
  taken
    | .write _ answer => answer.encode.error = none
    | _ => False
  written _ _ := True
  offered e := e.counter.2
  next e := e.counter.1.nextPts
  unit _ := 1
  moves := by
    intro e op _ _ _
    cases op with
    | write frame answer => exact e.write_moves frame answer True
    | flush answer =>
        rw [CpuVp9Encoder.run, e.flush_counter]
        exact ⟨[], (List.append_nil _).symm, .quiet⟩
    | close answer =>
        rw [CpuVp9Encoder.run, e.close_counter]
        exact ⟨[], (List.append_nil _).symm, .quiet⟩

/-! ## AV1 -/

/-- A time stamp that SVT-AV1 is given, and whether it is accepted. -/
def SvtCall.offered : SvtCall → Option (Int × Bool)
  | .sendPicture _ pts sent => some (pts, sent)
  | _ => none

namespace CpuAv1Encoder

/-- The timing, and what the codec has been offered. -/
def counter (e : CpuAv1Encoder) : FrameTiming × List (Int × Bool) := (e.timing, e.calls.filterMap SvtCall.offered)

theorem call_counter (e : CpuAv1Encoder) {cs : List SvtCall} (h : cs.filterMap SvtCall.offered = []) :
    (e.call cs).counter = e.counter := by
  rw [counter, counter, call, List.filterMap_append, h, List.append_nil]

theorem collectPackets_counter (e : CpuAv1Encoder) (failed : Bool) (packets : List SvtAnswer) :
    (e.collectPackets failed packets).2.counter = e.counter := by
  induction packets generalizing e with
  | nil =>
      unfold collectPackets
      split <;> rfl
  | cons head rest ih =>
      obtain ⟨packet, answer⟩ := head
      have hcall : (e.call [.getPacket packet]).counter = e.counter := e.call_counter rfl
      simp only [collectPackets]
      split
      · split
        · exact hcall
        · exact (ih _).trans hcall
      split
      · exact hcall
      split
      · exact hcall
      · exact (ih _).trans hcall

theorem destroyCodec_counter (e : CpuAv1Encoder) : e.destroyCodec.counter = e.counter := by
  have hquiet : ((if e.codecInitialized then [SvtCall.deinit] else []) ++
      if e.codec then [SvtCall.deinitHandle] else []).filterMap SvtCall.offered = [] := by
    cases e.codecInitialized <;> cases e.codec <;> rfl
  rw [destroyCodec_eq, counter, counter, List.filterMap_append, hquiet, List.append_nil]

theorem initializeCodec_counter (e : CpuAv1Encoder) (answer : SvtInit) :
    (e.initializeCodec answer).2.counter = e.counter := by
  have hinit : (e.call [.initHandle]).counter = e.counter := e.call_counter rfl
  unfold initializeCodec
  split
  · exact hinit
  dsimp only
  split
  · exact (call_counter _ rfl).trans hinit
  split
  · exact (call_counter _ rfl).trans hinit
  · exact (call_counter { e.call [.initHandle] with codec := true } rfl).trans hinit

theorem endSequence_counter (e : CpuAv1Encoder) (answer : SvtEnd) : (e.endSequence answer).2.counter = e.counter := by
  have hsend : (e.call [.sendEos e.handle answer.sent]).counter = e.counter := e.call_counter rfl
  unfold endSequence
  split
  · rfl
  dsimp only
  split
  · exact hsend
  · exact (collectPackets_counter _ _ _).trans hsend

theorem flush_counter (e : CpuAv1Encoder) (answer : Av1FlushAnswer) : (e.flush answer).2.counter = e.counter := by
  unfold flush
  split
  · rfl
  split
  · rfl
  dsimp only
  split
  · exact (destroyCodec_counter _).trans (e.endSequence_counter answer.ended)
  · exact (initializeCodec_counter _ _).trans
      ((destroyCodec_counter _).trans (e.endSequence_counter answer.ended))

theorem close_counter (e : CpuAv1Encoder) (answer : Av1CloseAnswer) : (e.close answer).2.counter = e.counter := by
  unfold close
  split
  · rfl
  · have hended : (if e.codecInitialized && !e.eosSent then e.endSequence answer.ended else (.ok, e)).2.counter =
        e.counter := by
      split
      · exact e.endSequence_counter answer.ended
      · rfl
    exact (destroyCodec_counter _).trans hended

/-- A write offers the chosen time stamp if it gets as far as SVT-AV1, and counts if SVT-AV1 accepts it. -/
theorem write_moves (e : CpuAv1Encoder) (frame : FrameView) (answer : Av1WriteAnswer) (written : Prop) :
    ∃ new, (e.write frame answer).2.counter.2 = e.counter.2 ++ new ∧
      Moves 1 e.timing.nextPts (some frame.pts) (answer.sent = true) written new
        (e.write frame answer).2.counter.1.nextPts := by
  unfold write
  split
  · exact ⟨[], (List.append_nil _).symm, .quiet⟩
  split
  · exact ⟨[], (List.append_nil _).symm, .quiet⟩
  dsimp only
  split
  · exact ⟨[], (List.append_nil _).symm, .quiet⟩
  unfold encodeFrame
  dsimp only
  cases hsent : answer.sent with
  | false =>
      refine ⟨[(e.timing.select frame.pts, false)], ?_, .rejected rfl⟩
      exact List.filterMap_append
  | true =>
      refine ⟨[(e.timing.select frame.pts, true)], ?_, ?_⟩
      · rw [if_neg (by decide), collectPackets_counter]
        exact List.filterMap_append
      · rw [if_neg (by decide), collectPackets_counter]
        exact .accepted rfl rfl

end CpuAv1Encoder

def av1Stamped : Stamped CpuAv1Encoder Av1Op where
  run e op := (e.run op).2
  request := Av1Op.request
  taken
    | .write _ answer => answer.sent = true
    | _ => False
  written _ _ := True
  offered e := e.counter.2
  next e := e.counter.1.nextPts
  unit _ := 1
  moves := by
    intro e op _ _ _
    cases op with
    | write frame answer => exact e.write_moves frame answer True
    | flush answer =>
        rw [CpuAv1Encoder.run, e.flush_counter]
        exact ⟨[], (List.append_nil _).symm, .quiet⟩
    | close answer =>
        rw [CpuAv1Encoder.run, e.close_counter]
        exact ⟨[], (List.append_nil _).symm, .quiet⟩

/-! ## NVENC -/

/-- A time stamp that NVENC is given, and whether it is accepted. -/
def NvencCall.offered : NvencCall → Option (Int × Bool)
  | .encode _ picture encoded => some (asInt64 picture.inputTimeStamp, encoded)
  | _ => none

theorem Quiet.offered {calls : List NvencCall} (h : Quiet calls) : calls.filterMap NvencCall.offered = [] := by
  rw [List.filterMap_eq_nil_iff]
  intro c hc
  have hquiet := h c hc
  cases c with
  | encode session picture encoded => cases hquiet
  | _ => rfl

/-- The calls of a submission that offers `pts`. -/
inductive Submits (pts : Int) (taken : Prop) : Status × List NvencCall → Prop
  | quiet {status : Status} {calls : List NvencCall} : status.result ≠ .ok → calls.filterMap NvencCall.offered = [] →
      Submits pts taken (status, calls)
  | rejected {status : Status} {calls : List NvencCall} : status.result ≠ .ok →
      calls.filterMap NvencCall.offered = [(pts, false)] → Submits pts taken (status, calls)
  | accepted {status : Status} {calls : List NvencCall} : status.result = .ok → taken →
      calls.filterMap NvencCall.offered = [(pts, true)] → Submits pts taken (status, calls)

theorem submitNvencCpuFrame_submits (session : NvencSession) (nv12 : Bool) (picture : NvencPicture)
    (answer : NvencCpuSubmit) : Submits (asInt64 picture.inputTimeStamp) (answer.encoded = .success)
      (submitNvencCpuFrame session nv12 picture answer) := by
  unfold submitNvencCpuFrame
  split
  · exact .quiet nofun rfl
  split
  · exact .quiet nofun rfl
  split
  · exact .quiet nofun rfl
  cases hencoded : answer.encoded with
  | success => exact .accepted rfl rfl rfl
  | needMoreInput => exact .rejected nofun rfl
  | failed => exact .rejected nofun rfl

theorem submitNvencCudaFrame_submits (session : NvencSession) (picture : NvencPicture) (answer : NvencGpuSubmit) :
    Submits (asInt64 picture.inputTimeStamp) (answer.encoded = true) (submitNvencCudaFrame session picture answer) := by
  unfold submitNvencCudaFrame
  split
  · exact .quiet nofun rfl
  split
  · exact .quiet nofun rfl
  cases hencoded : answer.encoded with
  | true => exact .accepted rfl rfl rfl
  | false => exact .rejected nofun rfl

/-- Whether a packet gets into the container does not depend on the session, and no picture is offered on the way. -/
theorem muxNvencPacket_offered (session session' : NvencSession) (muxer : WebmMuxer) (defaultDurationNs : Nat)
    (packet : Option NvencPacket) (answer : AddAnswer) :
    (muxNvencPacket session muxer defaultDurationNs packet answer).1 =
        (muxNvencPacket session' muxer defaultDurationNs packet answer).1 ∧
      (muxNvencPacket session muxer defaultDurationNs packet answer).2.2.filterMap NvencCall.offered = [] := by
  unfold muxNvencPacket
  split
  · exact ⟨rfl, rfl⟩
  · dsimp only
    split <;> exact ⟨rfl, rfl⟩

namespace NvidiaWebmEncoder

variable {e : NvidiaWebmEncoder}

/-- The counter, and what the codec has been offered. -/
def counter (e : NvidiaWebmEncoder) : Int × List (Int × Bool) := (e.nextPts, e.calls.filterMap NvencCall.offered)

/-- The duration of a picture, as it is added to its time stamp. -/
def unit (e : NvidiaWebmEncoder) : Int := asInt64 (durationNanoseconds e.fpsNum e.fpsDen)

/-- The packet of an accepted picture gets into the container. -/
def Writes (e : NvidiaWebmEncoder) (packet : Option NvencPacket) (add : AddAnswer) : Prop :=
  (muxNvencPacket .empty e.muxer (durationNanoseconds e.fpsNum e.fpsDen) packet add).1.result = .ok

theorem call_counter {calls : List NvencCall} (h : calls.filterMap NvencCall.offered = []) :
    (e.call calls).counter = e.counter := by
  rw [counter, counter, call, List.filterMap_append, h, List.append_nil]

/-- What a submission and the packet behind it do to the counter. -/
theorem finish_moves {pts r : Int} {taken : Prop} {submitted : Status × List NvencCall} (packet : Option NvencPacket)
    (add : AddAnswer) (hpts : pts = chosenPts e.nextPts r) (h : Submits pts taken submitted) :
    ∃ new, ((e.call submitted.2).finish (e.selectPictureTiming r) submitted.1 packet add).2.counter.2 =
        e.counter.2 ++ new ∧
      Moves e.unit e.nextPts (some r) taken (e.Writes packet add) new
        ((e.call submitted.2).finish (e.selectPictureTiming r) submitted.1 packet add).2.counter.1 := by
  subst hpts
  unfold finish
  cases h with
  | quiet hbad hquiet =>
      rw [if_pos hbad]
      exact ⟨[], List.filterMap_append.trans (congrArg _ hquiet), .quiet⟩
  | rejected hbad hoffer =>
      rw [if_pos hbad]
      exact ⟨_, List.filterMap_append.trans (congrArg _ hoffer), .rejected rfl⟩
  | @accepted status calls hok htaken hoffer =>
      rw [if_neg (not_not.mpr hok)]
      obtain ⟨hsame, hquiet⟩ := muxNvencPacket_offered (e.call calls).sessionManager.session .empty e.muxer
        (durationNanoseconds e.fpsNum e.fpsDen) packet add
      have hcounter : ((e.call calls).call (muxNvencPacket (e.call calls).sessionManager.session e.muxer
          (durationNanoseconds e.fpsNum e.fpsDen) packet add).2.2).counter = (e.call calls).counter :=
        call_counter hquiet
      have hhistory : (e.call calls).counter.2 = e.counter.2 ++ [(chosenPts e.nextPts r, true)] :=
        List.filterMap_append.trans (congrArg _ hoffer)
      dsimp only
      split
      case isTrue hlost =>
        refine ⟨_, (congrArg Prod.snd hcounter).trans hhistory, .lost rfl htaken ?_⟩
        rw [Writes, ← hsame]
        exact hlost
      case isFalse hgood => exact ⟨_, (congrArg Prod.snd hcounter).trans hhistory, .accepted rfl htaken⟩

theorem write_moves (frame : FrameView) (answer : NvencCpuAnswer) (hnext : 0 ≤ e.nextPts ∧ e.nextPts < 2 ^ 63)
    (hpts : frame.pts < 2 ^ 63) :
    ∃ new, (e.write frame answer).2.counter.2 = e.counter.2 ++ new ∧
      Moves e.unit e.nextPts (some frame.pts) (answer.submit.encoded = .success) (e.Writes answer.packet answer.add) new
        (e.write frame answer).2.counter.1 := by
  unfold write
  split
  · exact ⟨[], (List.append_nil _).symm, .quiet⟩
  split
  · exact ⟨[], (List.append_nil _).symm, .quiet⟩
  dsimp only
  split
  · exact ⟨[], (List.append_nil _).symm, .quiet⟩
  refine finish_moves _ _ ?_ (submitNvencCpuFrame_submits _ _ _ _)
  exact Stamped.i64_chosenPts hnext hpts

theorem writeGpu_moves (frame : Option CudaFrame) (answer : NvencGpuAnswer)
    (hnext : 0 ≤ e.nextPts ∧ e.nextPts < 2 ^ 63)
    (hpts : ∀ r, (NvencOp.writeGpu frame answer).request = some r → r < 2 ^ 63) :
    ∃ new, (e.writeGpu frame answer).2.counter.2 = e.counter.2 ++ new ∧
      Moves e.unit e.nextPts (NvencOp.writeGpu frame answer).request (answer.submit.encoded = true)
        (e.Writes answer.packet answer.add) new (e.writeGpu frame answer).2.counter.1 := by
  unfold writeGpu
  split
  · exact ⟨[], (List.append_nil _).symm, .quiet⟩
  split
  · exact ⟨[], (List.append_nil _).symm, .quiet⟩
  rename_i view hprepare
  obtain ⟨input, hframe, hview⟩ := prepareNvencCudaFrame_ok hprepare
  subst hframe
  rw [hview]
  cases hbind : e.sessionManager.bindCudaContext (some view.contextHandle) (some input.frame) e.frameIndex
      answer.init with
  | mk bound more =>
    obtain ⟨sessionManager, calls⟩ := more
    have hcounter : (e.call calls).counter = e.counter :=
      call_counter (NvencSessionManager.bindCudaContext_quiet hbind).offered
    rw [Option.map_some, hbind]
    dsimp only
    split
    · exact ⟨[], (congrArg Prod.snd hcounter).trans (List.append_nil _).symm, .quiet⟩
    have hsubmit := submitNvencCudaFrame_submits sessionManager.session
      (e.picture (e.selectPictureTiming input.desc.pts)) answer.submit
    have hmoves := finish_moves (e := { e.call calls with sessionManager := sessionManager }) answer.packet answer.add
      (Stamped.i64_chosenPts hnext (hpts _ rfl)) hsubmit
    rw [show ({ e.call calls with sessionManager := sessionManager } : NvidiaWebmEncoder).counter = e.counter
      from hcounter] at hmoves
    exact hmoves

theorem flush_counter (answer : NvencFlushAnswer) : (e.flush answer).2.counter = e.counter := by
  have hdrain : (e.drainNvencSession answer.eos).2.counter = e.counter := call_counter rfl
  unfold flush
  split
  · rfl
  dsimp only
  split
  · exact hdrain
  cases hrestart : e.sessionManager.restartCpu answer.init with
  | mk status more =>
    have hquiet := (NvencSessionManager.restartCpu_quiet hrestart).offered
    have hcalls : (e.drainNvencSession answer.eos).2.sessionManager.restartCpu answer.init = (status, more) := hrestart
    rw [hcalls]
    exact (call_counter hquiet).trans hdrain

theorem close_counter (answer : NvencCloseAnswer) : (e.close answer).2.counter = e.counter := by
  unfold close
  split
  · rfl
  · have hdrain : (if e.sessionManager.session.encoder.isSome && decide (0 < e.frameIndex) then
        e.drainNvencSession answer.eos else (.ok, e)).2.counter = e.counter := by
      split
      · exact call_counter rfl
      · rfl
    generalize (if e.sessionManager.session.encoder.isSome && decide (0 < e.frameIndex) then
        e.drainNvencSession answer.eos else (.ok, e)) = drained at hdrain ⊢
    dsimp only
    split
    · exact (call_counter (destroyNvencSession_quiet _).offered).trans hdrain
    · exact (call_counter (destroyNvencSession_quiet _).offered).trans hdrain

end NvidiaWebmEncoder

def nvencStamped : Stamped NvidiaWebmEncoder NvencOp where
  run e op := (e.run op).2
  request := NvencOp.request
  taken
    | .write _ answer => answer.submit.encoded = .success
    | .writeGpu _ answer => answer.submit.encoded = true
    | _ => False
  written e
    | .write _ answer => e.Writes answer.packet answer.add
    | .writeGpu _ answer => e.Writes answer.packet answer.add
    | _ => True
  offered e := e.counter.2
  next e := e.counter.1
  unit := NvidiaWebmEncoder.unit
  moves := by
    intro e op hnonneg hlt hint
    cases op with
    | write frame answer => exact e.write_moves frame answer ⟨hnonneg, hlt⟩ (hint _ rfl)
    | writeGpu frame answer => exact e.writeGpu_moves frame answer ⟨hnonneg, hlt⟩ hint
    | flush answer =>
        rw [NvidiaWebmEncoder.run, e.flush_counter]
        exact ⟨[], (List.append_nil _).symm, .quiet⟩
    | close answer =>
        rw [NvidiaWebmEncoder.run, e.close_counter]
        exact ⟨[], (List.append_nil _).symm, .quiet⟩

/-! ## The three encoders -/

/-- Nothing has been offered to a new NVENC encoder. -/
theorem NvidiaWebmEncoder.create_counter {cfg : Config} {av1Encode : Bool} {api muxer : Option String} {init : NvencInit}
    {e : NvidiaWebmEncoder} (h : create cfg av1Encode api init muxer = .ok e) : e.counter = (0, []) := by
  unfold create at h
  split at h
  · cases h
  split at h
  · cases h
  cases hinit : NvencSessionManager.initializeCpu ⟨none, .empty, none⟩ init with
  | mk status more =>
    obtain ⟨sessionManager, calls⟩ := more
    rw [hinit] at h
    dsimp only at h
    split at h
    · cases h
    split at h
    · cases h
    cases h
    have hquiet : Quiet calls := by
      unfold NvencSessionManager.initializeCpu at hinit
      rw [if_neg (by decide)] at hinit
      exact NvencSessionManager.initializeSession_quiet hinit
    rw [counter, hquiet.offered]

theorem Stamped.ahead_of_fresh {S O : Type*} {E : Stamped S O} {s : S} (hnext : E.next s = 0) (hoffered : E.offered s = []) :
    E.Ahead s := by
  refine ⟨by omega, by omega, ?_⟩
  rw [hoffered]
  nofun

/-- In every run of careful calls, with failures of the codec and of the container in any pattern that the condition
leaves, the counters of the three encoders stay ahead of what the codec has accepted. -/
theorem automatic_pts_ahead (cfg : Config) :
    vp9Stamped.Keeps (.created cfg) ∧ av1Stamped.Keeps (.created cfg) ∧
      ∀ (av1Encode : Bool) (api muxer : Option String) (init : NvencInit) (e : NvidiaWebmEncoder),
        NvidiaWebmEncoder.create cfg av1Encode api init muxer = .ok e → nvencStamped.Keeps e := by
  refine ⟨(Stamped.ahead_of_fresh rfl rfl).keeps, (Stamped.ahead_of_fresh rfl rfl).keeps, ?_⟩
  intro av1Encode api muxer init e h
  have hfresh := NvidiaWebmEncoder.create_counter h
  have hahead : nvencStamped.Ahead e := Stamped.ahead_of_fresh (congrArg Prod.fst hfresh) (congrArg Prod.snd hfresh)
  exact hahead.keeps

/-- The encoder after some calls. -/
def Stamped.after {S O : Type*} (E : Stamped S O) (s : S) (ops : List O) : S := ops.foldl E.run s

/-- A write of a small frame that libvpx takes without a packet. -/
def vp9Write (pts : Int) : Vp9Op := .write { bgraFrame 2 2 8 with pts := pts } ⟨true, true, none, []⟩

/-- A session that opens with all its buffers. -/
def sessionOpens : NvencInit := ⟨some 1, .opened 2, true, true, some 3, some 4⟩

/-- A write of a small frame that NVENC takes, with its packet. -/
def nvencWrite (pts : Int) (packet : Option NvencPacket) : NvencOp :=
  .write { bgraFrame 2 2 8 with pts := pts } ⟨true, ⟨true, true, .success⟩, packet, ⟨true, true⟩⟩

/-- The greatest explicit time stamp is followed by an automatic 0. NVENC is given one time stamp twice where the packet
of the first picture is lost, and where a picture lasts for less than a nanosecond. -/
theorem automatic_pts_collide :
    vp9Stamped.offered (vp9Stamped.after (.created twoByTwo) [vp9Write (2 ^ 63 - 1), vp9Write (-1)]) =
      [(2 ^ 63 - 1, true), (0, true)] ∧
    (NvidiaWebmEncoder.create (.small .av1 30 1 (by decide) (by decide)) true none sessionOpens none).map
        (fun e => nvencStamped.offered (nvencStamped.after e [nvencWrite (-1) none, nvencWrite (-1) none])) =
      .ok [(0, true), (0, true)] ∧
    (NvidiaWebmEncoder.create (.small .av1 4000000000 1 (by decide) (by decide)) true none sessionOpens none).map
        (fun e => nvencStamped.offered (nvencStamped.after e
          [nvencWrite (-1) (some ⟨[1], 0, 0, true⟩), nvencWrite (-1) (some ⟨[1], 0, 0, true⟩)])) =
      .ok [(0, true), (0, true)] :=
  ⟨rfl, rfl, rfl⟩

theorem vp9Write_careful {e : CpuVp9Encoder} {pts : Int} (hpts : pts < 2 ^ 63)
    (hroom : chosenPts (vp9Stamped.next e) pts + 1 < 2 ^ 63) : vp9Stamped.Careful e (vp9Write pts) where
  int64 := by rintro _ ⟨⟩; exact hpts
  room := by rintro - _ ⟨⟩; exact hroom
  lasts _ := Int.zero_lt_one
  written _ := trivial

/-- A write of a small frame to NVENC whose packet gets into the container. -/
def nvencWritten (pts : Int) : NvencOp := nvencWrite pts (some ⟨[1], 0, 0, true⟩)

theorem nvencWritten_careful {e : NvidiaWebmEncoder} {pts : Int} (hpts : pts < 2 ^ 63)
    (hroom : chosenPts (nvencStamped.next e) pts + e.unit < 2 ^ 63) (hunit : 0 < e.unit)
    (hwrites : e.Writes (some ⟨[1], 0, 0, true⟩) ⟨true, true⟩) : nvencStamped.Careful e (nvencWritten pts) where
  int64 := by rintro _ ⟨⟩; exact hpts
  room := by rintro - _ ⟨⟩; exact hroom
  lasts _ := hunit
  written _ := hwrites

/-- Automatic writes go on from an explicit time stamp, and from each other. -/
theorem automatic_pts_ahead_small :
    (vp9Stamped.Ahead (vp9Stamped.after (.created twoByTwo) [vp9Write 5, vp9Write (-1)]) ∧
      vp9Stamped.offered (vp9Stamped.after (.created twoByTwo) [vp9Write 5, vp9Write (-1)]) = [(5, true), (6, true)]) ∧
    ∃ e, NvidiaWebmEncoder.create (.small .av1 30 1 (by decide) (by decide)) true none sessionOpens none = .ok e ∧
      nvencStamped.Ahead (nvencStamped.after e [nvencWritten (-1), nvencWritten 50000000, nvencWritten (-1)]) ∧
      nvencStamped.offered (nvencStamped.after e [nvencWritten (-1), nvencWritten 50000000, nvencWritten (-1)]) =
        [(0, true), (50000000, true), (83333333, true)] := by
  have hvp9 := (automatic_pts_ahead twoByTwo).1 ([vp9Write 5] ++ [vp9Write (-1)]) _
    (.append (.single ⟨rfl, vp9Write_careful (by decide) (by decide)⟩)
      (.single ⟨rfl, vp9Write_careful (by decide) (by decide)⟩))
  refine ⟨⟨hvp9.1, rfl⟩, _, rfl, ?_, rfl⟩
  have hnvenc := (automatic_pts_ahead (.small .av1 30 1 (by decide) (by decide))).2.2 true none none sessionOpens _ rfl
    ([nvencWritten (-1)] ++ [nvencWritten 50000000] ++ [nvencWritten (-1)]) _
    (.append (.append (.single ⟨rfl, nvencWritten_careful (by decide) (by decide) (by decide) (by rfl)⟩)
      (.single ⟨rfl, nvencWritten_careful (by decide) (by decide) (by decide) (by rfl)⟩))
      (.single ⟨rfl, nvencWritten_careful (by decide) (by decide) (by decide) (by rfl)⟩))
  exact hnvenc.1

end MkvCodec.Backend
