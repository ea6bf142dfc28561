import MkvCodec.Decoder.Lemmas.Reads
import MkvCodec.Decoder.Refinement

/-!
# A failed decoder

What reads return after one of them has returned an error, or the end of the stream. The worker of a decoder
that prefetches comes to an end with its first result that is not a frame. The synchronous read keeps nothing
of an error, and reads on.
-/

namespace MkvCodec.Decoder

open Concurrency

variable {F B X : Type*} {backend : Backend F B X} {capacity : Nat}

/-! ## Reads that have failed -/

/-- I/O and codec errors, and what an exception becomes. -/
def breaks : Result → Bool
  | .errorIo | .errorCodec | .errorInternal => true
  | _ => false

/-- A read has returned an I/O or codec error, or the backend threw. -/
def Broken (s : DecoderState F B) : Prop := ∃ status, .failed status ∈ returns s ∧ breaks status.result = true

/-- A read has returned `END_OF_STREAM`. -/
def Ended (s : DecoderState F B) : Prop := ∃ status, .failed status ∈ returns s ∧ status.result = .endOfStream

/-- The decoder is being closed, or is closed. -/
def Closed (a : MkvcDecoder F Vp9) : Prop := a.stopRequested = true ∨ a.backend.closed = true

def ReadReturn.isError : ReadReturn F → Bool
  | .frame _ => false
  | .failed status => status.result.isError

theorem isError_of_breaks {result : Result} (h : breaks result = true) : result.isError = true := by
  cases result <;> first | rfl | cases h

theorem ReadEnd.isError_of_failed {ended : ReadEnd F} {m : String} (h : ended.failed = true) :
    (ended.returned m).isError = true := by
  cases ended with
  | frame f => cases h
  | ended status hne => exact h
  | threw what => rfl

/-! ## With the worker -/

/-- The worker has left with `status`, and nothing is left in the queue. -/
structure Over (status : Status) (a : MkvcDecoder F B) (w : WorkerPc F) : Prop where
  exited : w = .exited
  finished : a.workerFinished = true
  result : ⟨a.workerResult, a.workerError⟩ = status
  queue : a.stopRequested = false → a.queue = []

theorem WorkerMove.not_over {a : MkvcDecoder F B} {w : WorkerPc F} {e : Choice X} {o : WorkerSection F B}
    {status : Status} (h : WorkerMove backend capacity a w e o) : ¬ Over status a w := by
  intro hover
  have hw := hover.exited
  cases h with
  | leave hw' =>
      rcases hw' with rfl | ⟨ended, rfl⟩
      · cases hw
      · cases hw
  | _ => cases hw

section

variable {b : B} {ls : List (DecoderLabel X)} {s : DecoderState F B}

/-- A result that the reader of a prefetching decoder has seen is that of the worker. -/
theorem decoder_over (h : DecoderRun backend capacity b ls s) (hcap : 0 < capacity) {status : Status}
    (hmem : .failed status ∈ returns s) (hne : status ≠ closing) : Over status s.shared s.worker := by
  obtain ⟨frames, taken, final, refused, hp⟩ := decoder_prefetched h hcap
  have hworker := hp.worker
  rw [hp.returned] at hmem
  simp only [List.mem_append, List.mem_map, List.mem_replicate, reduceCtorEq, and_false, exists_false, false_or,
    ReadReturn.failed.injEq, hne, or_false] at hmem
  obtain ⟨hfinal, rfl⟩ := hmem
  obtain ⟨hfin, rfl⟩ := hp.at_end hfinal
  refine ⟨?_, hfin, rfl, fun hstop => ?_⟩
  · cases hw : s.worker with
    | exited => rfl
    | notStarted => rw [hw] at hworker; exact hworker.elim
    | wait | read | record =>
        rw [hw] at hworker
        exact absurd (hfin.symm.trans hworker.2) (by simp)
  · rw [(hp.queue hstop).1, List.drop_length]

end

/-! ## Without the worker -/

section

variable {ls : List (DecoderLabel (List Answer))} {s t : DecoderState DecodedFrame Vp9}

/-- Once a read of the backend has ended with the end of the stream, the backend has nothing more to give. -/
theorem reads_over (h : DecoderRun vp9 capacity .opened ls s) {ended : ReadEnd DecodedFrame}
    (hmem : ended ∈ s.shared.reads) (hframe : ended.frame? = none) (hend : ended.failed = false) :
    s.shared.backend.Over := by
  have hread {a : MkvcDecoder DecodedFrame Vp9} {answers : List Answer} {ended' : ReadEnd DecodedFrame} {b : Vp9}
      (hread : vp9.read answers a.backend = some (ended', b)) (hover : ended ∈ a.reads → a.backend.Over)
      (hmem : ended ∈ a.reads ++ [ended']) : b.Over := by
    rcases List.mem_append.mp hmem with hmem | hmem
    · rw [((hover hmem).read hread).1]
      exact hover hmem
    · rw [List.mem_singleton.mp hmem] at hframe hend
      exact Vp9.over_of_end hread hframe hend
  refine decoder_invariant (P := fun _ _ => True) (I := fun a _ _ => ended ∈ a.reads → a.backend.Over)
    (h.mono fun _ _ _ hst => ⟨hst, trivial⟩) (by simp [DecoderState.init, MkvcDecoder.init]) ?_ ?_ hmem
  · intro s e o hs _ hmove
    generalize s.worker = w at hmove
    cases hmove with
    | read hr => exact hread hr hs
    | _ => exact hs
  · intro s i e sec hs _ hmove
    generalize (s.client i).pc = pc at hmove
    cases hmove with
    | readSync hr => exact hread hr hs
    | close => exact fun _ => .inr (Vp9.close_closed _)
    | _ => exact hs

theorem sync_over (h : DecoderRun vp9 0 .opened ls s) (hended : Ended s) : s.shared.backend.Over := by
  obtain ⟨status, hmem, hresult⟩ := hended
  rw [(sync_returns h).2] at hmem
  obtain ⟨ended, hmem, hret⟩ := List.mem_map.mp hmem
  cases ended with
  | frame f => cases hret
  | ended status hne =>
      cases hret
      exact reads_over h hmem rfl (by simp [ReadEnd.failed, hresult, Result.isError])
  | threw what =>
      cases hret
      cases hresult

/-! ## Every later read -/

/-- What a decoder keeps from `s` on, once a read has failed or has come to the end. -/
structure Stays (s t : DecoderState DecodedFrame Vp9) (later : List (ReadReturn DecodedFrame)) : Prop where
  returned : returns t = returns s ++ later
  closed : Closed s.shared → Closed t.shared
  broken : Broken s → t.shared.backend.fed = s.shared.backend.fed ∧ ∀ r ∈ later, r.isError = true
  ended : Ended s → ∀ r ∈ later,
    r.seen = (.endOfStream, none) ∨ Closed t.shared ∧ r.seen = (.errorInvalidState, none)

theorem Broken.mono {later : List (ReadReturn DecodedFrame)} (h : Broken s) (hret : returns t = returns s ++ later) :
    Broken t := by
  obtain ⟨status, hmem, hbreaks⟩ := h
  exact ⟨status, by rw [hret]; exact List.mem_append_left _ hmem, hbreaks⟩

theorem Ended.mono {later : List (ReadReturn DecodedFrame)} (h : Ended s) (hret : returns t = returns s ++ later) :
    Ended t := by
  obtain ⟨status, hmem, hresult⟩ := h
  exact ⟨status, by rw [hret]; exact List.mem_append_left _ hmem, hresult⟩

theorem Stays.trans {u : DecoderState DecodedFrame Vp9} {later later' : List (ReadReturn DecodedFrame)}
    (h : Stays s t later) (h' : Stays t u later') : Stays s u (later ++ later') := by
  refine ⟨by rw [h'.returned, h.returned, List.append_assoc], fun hc => h'.closed (h.closed hc), ?_, ?_⟩
  · intro hb
    obtain ⟨hfed, herrors⟩ := h.broken hb
    obtain ⟨hfed', herrors'⟩ := h'.broken (hb.mono h.returned)
    refine ⟨hfed'.trans hfed, fun r hr => ?_⟩
    rcases List.mem_append.mp hr with hr | hr
    · exact herrors r hr
    · exact herrors' r hr
  · intro he r hr
    rcases List.mem_append.mp hr with hr | hr
    · exact (h.ended he r hr).imp_right fun hclosed => ⟨h'.closed hclosed.1, hclosed.2⟩
    · exact h'.ended (he.mono h.returned) r hr

/-- The calls of a synchronous read behind a failed one give the codec no packet and end badly, or the decoder
has been closed. -/
def Refuses (s : DecoderState DecodedFrame Vp9) : DecoderLabel (List Answer) → Prop
  | .client .reader (.backend answers) => Broken s → s.shared.backend.Refused answers
  | _ => True

theorem closing_not_breaks {status : Status} (h : breaks status.result = true) : status ≠ closing := by
  rintro rfl
  cases h

theorem closing_not_ended {status : Status} (h : status.result = .endOfStream) : status ≠ closing := by
  rintro rfl
  cases h

theorem WorkerMove.stays_failed {e : Choice (List Answer)} {o : WorkerSection DecodedFrame Vp9}
    (hrun : DecoderRun vp9 capacity .opened ls s)
    (h : WorkerMove vp9 capacity s.shared s.worker e o) (sl : Party → Option Cond) :
    Stays s ⟨o.shared, o.loc, s.client, o.sleep, sl⟩ [] := by
  refine ⟨by simp, fun hclosed => ?_, fun hb => ?_, fun _ r hr => by cases hr⟩
  · generalize s.worker = w at h
    cases h with
    | read hread => exact hclosed.imp_right (Vp9.read_closed hread).trans
    | _ => exact hclosed
  · -- a worker that can still step has not come to an end
    exfalso
    rcases Nat.eq_zero_or_pos capacity with rfl | hcap
    · rw [(sync_returns hrun).1] at h
      cases h with
      | leave hw => rcases hw with hw | ⟨ended, hw⟩ <;> cases hw
    · obtain ⟨status, hmem, hbreaks⟩ := hb
      exact h.not_over (decoder_over hrun hcap hmem (closing_not_breaks hbreaks))

theorem ClientMove.closed {a : MkvcDecoder DecodedFrame Vp9} {party : Party} {pc : ClientPc}
    {e : Choice (List Answer)} {sec : Section DecodedFrame Vp9} (h : ClientMove vp9 capacity a party pc e sec)
    (hclosed : Closed a) : Closed sec.shared := by
  cases h with
  | readSync hread => exact hclosed.imp_right (Vp9.read_closed hread).trans
  | stop => exact .inl rfl
  | close => exact .inr (Vp9.close_closed _)
  | _ => exact hclosed

/-- A section of the closer returns nothing to the reader and feeds no packet. -/
theorem ClientMove.closer_fed {a : MkvcDecoder DecodedFrame Vp9} {pc : ClientPc} {e : Choice (List Answer)}
    {sec : Section DecodedFrame Vp9} (h : ClientMove vp9 capacity a .closer pc e sec)
    (hat : Party.At capacity a .closer pc) : sec.shared.backend.fed = a.backend.fed := by
  cases h with
  | close => exact Vp9.close_fed _
  | readSync => cases hat
  | _ => rfl

/-- What a section of the reader returns behind a failed read, or behind the end of the stream. -/
theorem ClientMove.stays_failed {e : Choice (List Answer)} {sec : Section DecodedFrame Vp9}
    (hrun : DecoderRun vp9 capacity .opened ls s)
    (h : ClientMove vp9 capacity s.shared .reader (s.client .reader).pc e sec)
    (hrefuses : Refuses s (.client .reader e)) :
    (Broken s → sec.shared.backend.fed = s.shared.backend.fed ∧ ∀ r ∈ sec.returned, r.isError = true) ∧
      (Ended s → ∀ r ∈ sec.returned,
        r.seen = (.endOfStream, none) ∨ Closed sec.shared ∧ r.seen = (.errorInvalidState, none)) := by
  have hat := (decoder_at hrun .reader).2
  generalize (s.client .reader).pc = pc at h hat
  cases h with
  | start | asleep => exact ⟨fun _ => ⟨rfl, by simp [goto]⟩, fun _ => by simp [goto]⟩
  | refused hstop =>
      refine ⟨fun _ => ⟨rfl, ?_⟩, fun _ r hr => ?_⟩
      · rintro r ⟨⟩
        rfl
      · cases hr
        exact .inr ⟨.inl hstop, rfl⟩
  | take hstop hqueue =>
      have hover {status : Status} (h : Over status s.shared s.worker) : False := by
        rw [h.queue hstop] at hqueue
        cases hqueue
      constructor
      · rintro ⟨status, hmem, hbreaks⟩
        exact (hover (decoder_over hrun hat hmem (closing_not_breaks hbreaks))).elim
      · rintro ⟨status, hmem, hresult⟩
        exact (hover (decoder_over hrun hat hmem (closing_not_ended hresult))).elim
  | final hstop hempty hfin =>
      constructor
      · rintro ⟨status, hmem, hbreaks⟩
        obtain rfl := (decoder_over hrun hat hmem (closing_not_breaks hbreaks)).result
        refine ⟨rfl, ?_⟩
        rintro r ⟨⟩
        exact isError_of_breaks hbreaks
      · rintro ⟨status, hmem, hresult⟩ r ⟨⟩
        obtain rfl := (decoder_over hrun hat hmem (closing_not_ended hresult)).result
        exact .inl (congrArg (·, none) hresult)
  | @readSync answers ended b hread =>
      obtain rfl : capacity = 0 := hat
      constructor
      · intro hb
        obtain ⟨hfailed, hfed⟩ := (Vp9.read_refused hread).mpr (hrefuses hb)
        refine ⟨hfed, ?_⟩
        rintro r ⟨⟩
        exact ReadEnd.isError_of_failed hfailed
      · rintro he r ⟨⟩
        obtain ⟨rfl, status, hne, rfl, hresult⟩ := (sync_over hrun he).read hread
        rcases hresult with hresult | ⟨hclosed, hresult⟩
        · exact .inl (by simp [ReadEnd.returned, ReadReturn.seen, hresult])
        · exact .inr ⟨.inr hclosed, by simp [ReadEnd.returned, ReadReturn.seen, hresult]⟩
  | stop | join | clear | close => cases hat

theorem Step.stays_failed {l : DecoderLabel (List Answer)} (hrun : DecoderRun vp9 capacity .opened ls s)
    (hst : Step vp9 capacity s l t) (hrefuses : Refuses s l) : ∃ later, Stays s t later := by
  cases l with
  | worker e =>
      obtain ⟨_, o, ho, rfl⟩ := hst.worker_inv
      exact ⟨[], (workerAct_move ho).stays_failed hrun _⟩
  | client party e =>
      obtain ⟨_, o, ho, rfl⟩ := hst.client_inv
      obtain ⟨sec, hmove, rfl⟩ := clientAct_move ho
      obtain ⟨hparty, hat⟩ := decoder_at hrun party
      rw [hparty] at hmove
      cases party with
      | reader =>
          obtain ⟨hbroken, hended⟩ := hmove.stays_failed hrun hrefuses
          refine ⟨sec.returned.toList, by simp [returns, Client.after], hmove.closed, fun hb => ?_, fun he => ?_⟩
          · simpa using hbroken hb
          · simpa using hended he
      | closer =>
          refine ⟨[], by simp [returns], hmove.closed, fun _ => ⟨hmove.closer_fed hat, ?_⟩, fun _ => ?_⟩
          · exact fun r hr => by cases hr
          · exact fun r hr => by cases hr
  | wakeWorker =>
      rw [hst.wakeWorker_inv]
      exact ⟨[], by simp [returns], id, fun _ => ⟨rfl, by simp⟩, fun _ => by simp⟩
  | wake party =>
      rw [hst.wake_inv]
      exact ⟨[], by simp [returns], id, fun _ => ⟨rfl, by simp⟩, fun _ => by simp⟩

/-- A decoder that prefetches keeps an error: behind it no packet is fed and every read returns an error. Without
the worker the same holds when every read behind an error is refused. Behind the end of the stream every read
returns the end of the stream, until the decoder is closed. -/
theorem failed_stays_failed (hrun : DecoderRun vp9 capacity .opened ls s) {ls' : List (DecoderLabel (List Answer))}
    (h : Run (Restrict (Step vp9 capacity) Refuses) s ls' t) : ∃ later, returns t = returns s ++ later ∧
      (Broken s → t.shared.backend.fed = s.shared.backend.fed ∧ ∀ r ∈ later, r.isError = true) ∧
      (Ended s → ∀ r ∈ later,
        r.seen = (.endOfStream, none) ∨ Closed t.shared ∧ r.seen = (.errorInvalidState, none)) := by
  suffices h : ∃ later, Stays s t later by
    obtain ⟨later, hstays⟩ := h
    exact ⟨later, hstays.returned, hstays.broken, hstays.ended⟩
  induction h with
  | nil => exact ⟨[], by simp, id, fun _ => ⟨rfl, by simp⟩, fun _ => by simp⟩
  | snoc hrun' hst ih =>
      obtain ⟨later, hstays⟩ := ih
      obtain ⟨later', hstays'⟩ := Step.stays_failed (hrun.append hrun'.of_restrict) hst.1 hst.2
      exact ⟨later ++ later', hstays.trans hstays'⟩

/-! ## A synchronous read resumes behind an error -/

def smallPacket (ptsNs : Int) : EncodedPacket := ⟨[0x82], ptsNs⟩

def smallImage : Image := ⟨true, 2, 2, none, fun _ => ⟨1, fun _ => 0⟩, fun _ => 2⟩

/-- The first packet is corrupt. -/
def corruptRead : List (DecoderLabel (List Answer)) :=
  [.client .reader .call,
    .client .reader (.backend [.demux (.packet (smallPacket 0)), .decode ⟨some "Corrupt frame detected", []⟩])]

/-- The second is not. -/
def nextRead : List (DecoderLabel (List Answer)) :=
  [.client .reader .call,
    .client .reader (.backend [.demux (.packet (smallPacket 1)), .decode ⟨none, [smallImage]⟩])]

/-- The file cannot be read any further. -/
def brokenRead : List (DecoderLabel (List Answer)) :=
  [.client .reader .call, .client .reader (.backend [.demux (.failed "read error")])]

theorem failed_read_resumes : ∃ (s t : DecoderState DecodedFrame Vp9) (frame : DecodedFrame),
    DecoderRun vp9 0 .opened corruptRead s ∧ Run (Step vp9 0) s nextRead t ∧
      returns s = [.failed ⟨.errorCodec, "Corrupt frame detected"⟩] ∧ Broken s ∧
      returns t = returns s ++ [.frame frame] ∧
      t.shared.backend.fed = s.shared.backend.fed ++ [smallPacket 1] :=
  ⟨_, _, _, Program.run_of_exec rfl, Program.run_of_exec rfl, rfl, ⟨_, List.mem_singleton_self _, rfl⟩, rfl, rfl⟩

theorem broken_read_refused : ∃ s t : DecoderState DecodedFrame Vp9,
    DecoderRun vp9 0 .opened corruptRead s ∧ Run (Restrict (Step vp9 0) Refuses) s brokenRead t ∧ Broken s ∧
      (returns t).length = 2 :=
  ⟨_, _, Program.run_of_exec rfl,
    Program.restrict_of_along rfl ⟨trivial, fun _ => .inr ⟨rfl, .inl rfl⟩, trivial⟩,
    ⟨_, List.mem_singleton_self _, rfl⟩, rfl⟩

theorem failed_stays_failed_small : ∃ s t : DecoderState DecodedFrame Vp9,
    DecoderRun vp9 0 .opened corruptRead s ∧ Run (Restrict (Step vp9 0) Refuses) s brokenRead t ∧
      (returns t).length = 2 ∧ t.shared.backend.fed = s.shared.backend.fed ∧
      ∃ later, returns t = returns s ++ later ∧ ∀ r ∈ later, r.isError = true := by
  obtain ⟨s, t, hrun, h, hb, hlen⟩ := broken_read_refused
  obtain ⟨later, hret, hbroken, -⟩ := failed_stays_failed hrun h
  obtain ⟨hfed, herrors⟩ := hbroken hb
  exact ⟨s, t, hrun, h, hlen, hfed, later, hret, herrors⟩

end

end MkvCodec.Decoder
