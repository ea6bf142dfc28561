import MkvCodec.Decoder.Lemmas.Move

/-!
# Prefetching refines synchronous reading

The worker reads the backend ahead, through a queue, up to the first result that is not a frame. Until the
decoder is stopped the application sees the frames in the order of the backend and then that result, again
and again.
-/

namespace MkvCodec.Decoder

open Concurrency

variable {F B X : Type*} {backend : Backend F B X} {capacity : Nat}

/-! ## What is on its way to the reader -/

/-- The frame that the worker has read and not yet queued. -/
def WorkerPc.held : WorkerPc F → List F
  | .record (.frame frame) => [frame]
  | _ => []

/-- What the worker has read, when `frames` is all that it has ever queued. -/
def WorkerPc.Queued (a : MkvcDecoder F B) (frames : List F) : WorkerPc F → Prop
  | .notStarted => False
  | .wait | .read => a.reads = frames.map .frame ∧ a.workerFinished = false
  | .record ended => a.reads = frames.map .frame ++ [ended] ∧ a.workerFinished = false
  | .exited =>
      (a.workerFinished = true → ∃ ended : ReadEnd F, a.reads = frames.map .frame ++ [ended] ∧
        ended.frame? = none ∧ ended.recorded = ⟨a.workerResult, a.workerError⟩) ∧
      (a.workerFinished = false → a.stopRequested = true)

/-- Of the frames that the worker has queued the reader has been given the first `taken`, then `final` times the
result of the worker, and since the stop `refused` times the refusal. -/
structure Prefetched (a : MkvcDecoder F B) (w : WorkerPc F) (rs : List (ReadReturn F)) (frames : List F)
    (taken final refused : Nat) : Prop where
  returned : rs = (frames.take taken).map .frame ++
    List.replicate final (.failed ⟨a.workerResult, a.workerError⟩) ++ List.replicate refused (.failed closing)
  taken_le : taken ≤ frames.length
  queue : a.stopRequested = false → a.queue = frames.drop taken ∧ refused = 0
  at_end : final ≠ 0 → a.workerFinished = true ∧ taken = frames.length
  worker : w.Queued a frames

theorem Prefetched.final_eq {a : MkvcDecoder F B} {w : WorkerPc F} {rs : List (ReadReturn F)}
    {frames : List F} {taken final refused : Nat} (h : Prefetched a w rs frames taken final refused)
    (hfin : a.workerFinished = false) : final = 0 := by
  by_contra hne
  have := (h.at_end hne).1
  rw [hfin] at this
  cases this

theorem WorkerMove.prefetched {a : MkvcDecoder F B} {w : WorkerPc F} {e : Choice X} {o : WorkerSection F B}
    {rs : List (ReadReturn F)} {frames : List F} {taken final refused : Nat}
    (h : WorkerMove backend capacity a w e o) (hp : Prefetched a w rs frames taken final refused) :
    ∃ frames', Prefetched o.shared o.loc rs frames' taken final refused := by
  have hworker := hp.worker
  cases h with
  | asleep | go => exact ⟨frames, hp.returned, hp.taken_le, hp.queue, hp.at_end, hworker⟩
  | read hread =>
      obtain ⟨hreads, hfin⟩ := hworker
      exact ⟨frames, hp.returned, hp.taken_le, hp.queue, hp.at_end, by rw [hreads], hfin⟩
  | leave hw hstop =>
      have hfin : a.workerFinished = false := by
        rcases hw with rfl | ⟨ended, rfl⟩
        · exact hworker.2
        · exact hworker.2
      refine ⟨frames, hp.returned, hp.taken_le, hp.queue, hp.at_end, fun hf => ?_, fun _ => hstop⟩
      exact absurd (hf.symm.trans hfin) (by simp)
  | @push frame hstop =>
      obtain ⟨hreads, hfin⟩ := hworker
      obtain ⟨hqueue, hrefused⟩ := hp.queue hstop
      refine ⟨frames ++ [frame], ?_, ?_, fun _ => ⟨?_, hrefused⟩, fun hne => ?_, ?_, hfin⟩
      · rw [List.take_append_of_le_length hp.taken_le]
        exact hp.returned
      · rw [List.length_append]
        exact Nat.le_add_right_of_le hp.taken_le
      · rw [List.drop_append_of_le_length hp.taken_le, hqueue]
      · exact absurd (hp.final_eq hfin) hne
      · simp [hreads]
  | @finish ended hend =>
      obtain ⟨hreads, hfin⟩ := hworker
      obtain rfl := hp.final_eq hfin
      refine ⟨frames, hp.returned, hp.taken_le, hp.queue, fun hne => absurd rfl hne, fun _ => ?_, fun hf => ?_⟩
      · exact ⟨ended, hreads, hend, rfl⟩
      · cases hf

/-- A section of the reader. -/
theorem ClientMove.prefetched {a : MkvcDecoder F B} {w : WorkerPc F} {pc : ClientPc} {e : Choice X}
    {sec : Section F B} {rs : List (ReadReturn F)} {frames : List F} {taken final refused : Nat}
    (h : ClientMove backend capacity a .reader pc e sec) (hat : Party.At capacity a .reader pc)
    (hcap : 0 < capacity) (hp : Prefetched a w rs frames taken final refused) :
    ∃ taken' final' refused',
      Prefetched sec.shared w (rs ++ sec.returned.toList) frames taken' final' refused' := by
  cases h with
  | start | asleep =>
      refine ⟨taken, final, refused, ?_⟩
      simp only [goto, Option.toList_none, List.append_nil]
      exact hp
  | refused hstop =>
      refine ⟨taken, final, refused + 1, ?_, hp.taken_le, fun hs => ?_, hp.at_end, hp.worker⟩
      · simp only [reply, Option.toList_some, List.replicate_succ', ← List.append_assoc, hp.returned]
      · exact absurd (hs.symm.trans hstop) (by simp)
  | @take frame rest hstop hqueue =>
      obtain ⟨hdrop, rfl⟩ := hp.queue hstop
      rw [hqueue] at hdrop
      have hlt : taken < frames.length := by
        by_contra hge
        rw [List.drop_eq_nil_of_le (Nat.not_lt.mp hge)] at hdrop
        cases hdrop
      obtain rfl : final = 0 := by
        by_contra hne
        have := (hp.at_end hne).2
        omega
      rw [List.drop_eq_getElem_cons hlt, List.cons.injEq] at hdrop
      refine ⟨taken + 1, 0, 0, ?_, hlt, fun _ => ⟨hdrop.2, rfl⟩, fun hne => absurd rfl hne, hp.worker⟩
      have htake : frames.take (taken + 1) = frames.take taken ++ [frame] := by
        rw [List.take_add_one, List.getElem?_eq_getElem hlt, ← hdrop.1]
        rfl
      simp only [reply, Option.toList_some, hp.returned, htake, List.map_append, List.map_cons, List.map_nil,
        List.replicate_zero, List.append_nil]
  | final hstop hempty hfin =>
      obtain ⟨hdrop, rfl⟩ := hp.queue hstop
      rw [hempty] at hdrop
      have hge := List.drop_eq_nil_iff.mp hdrop.symm
      have htaken := hp.taken_le
      refine ⟨taken, final + 1, 0, ?_, htaken, fun _ => ⟨hempty.trans hdrop, rfl⟩,
        fun _ => ⟨hfin, by omega⟩, hp.worker⟩
      simp only [reply, Option.toList_some, List.replicate_zero, List.append_nil, List.replicate_succ',
        ← List.append_assoc, hp.returned]
  | readSync hread => exact absurd hat (Nat.pos_iff_ne_zero.mp hcap)
  | stop | join | clear | close => cases hat

/-- A section of the closer. -/
theorem ClientMove.prefetched_closer {a : MkvcDecoder F B} {w : WorkerPc F} {pc : ClientPc} {e : Choice X}
    {sec : Section F B} {rs : List (ReadReturn F)} {frames : List F} {taken final refused : Nat}
    (h : ClientMove backend capacity a .closer pc e sec) (hat : Party.At capacity a .closer pc)
    (hp : Prefetched a w rs frames taken final refused) :
    Prefetched sec.shared w rs frames taken final refused := by
  obtain ⟨hreturned, htaken, hqueue, hfinal, hworker⟩ := hp
  cases h with
  | start | join => exact ⟨hreturned, htaken, hqueue, hfinal, hworker⟩
  | stop =>
      refine ⟨hreturned, htaken, by rintro ⟨⟩, hfinal, ?_⟩
      cases w with
      | exited => exact ⟨hworker.1, fun _ => rfl⟩
      | _ => exact hworker
  | clear =>
      refine ⟨hreturned, htaken, fun hs => ?_, hfinal, ?_⟩
      · exact absurd (hs.symm.trans hat.2.1) (by simp)
      · cases w <;> exact hworker
  | close => exact ⟨hreturned, htaken, hqueue, hfinal, by cases w <;> exact hworker⟩
  | asleep | refused | take | final | readSync => cases hat

section

variable {b : B} {ls : List (DecoderLabel X)} {s : DecoderState F B}

theorem decoder_prefetched (h : DecoderRun backend capacity b ls s) (hcap : 0 < capacity) :
    ∃ frames taken final refused, Prefetched s.shared s.worker (returns s) frames taken final refused := by
  induction h with
  | nil =>
      refine ⟨[], 0, 0, 0, rfl, Nat.le_refl 0, fun _ => ⟨rfl, rfl⟩, fun hne => absurd rfl hne, ?_⟩
      simp only [DecoderState.init, hcap, ↓reduceIte]
      exact ⟨rfl, rfl⟩
  | @snoc ls s l t hrun hst ih =>
      obtain ⟨frames, taken, final, refused, hp⟩ := ih
      cases l with
      | worker e =>
          obtain ⟨_, o, ho, rfl⟩ := hst.worker_inv
          obtain ⟨frames', hp'⟩ := (workerAct_move ho).prefetched hp
          exact ⟨frames', taken, final, refused, hp'⟩
      | client party e =>
          obtain ⟨_, o, ho, rfl⟩ := hst.client_inv
          obtain ⟨sec, hmove, rfl⟩ := clientAct_move ho
          obtain ⟨hparty, hat⟩ := decoder_at hrun party
          rw [hparty] at hmove
          cases party with
          | reader =>
              obtain ⟨taken', final', refused', hp'⟩ := hmove.prefetched hat hcap hp
              exact ⟨frames, taken', final', refused', by simpa [returns, Client.after] using hp'⟩
          | closer =>
              refine ⟨frames, taken, final, refused, ?_⟩
              simpa [returns] using hmove.prefetched_closer hat hp
      | wakeWorker => rw [hst.wakeWorker_inv]; exact ⟨frames, taken, final, refused, hp⟩
      | wake party => rw [hst.wake_inv]; exact ⟨frames, taken, final, refused, hp⟩

/-! ## The queue -/

/-- The worker reads only when there is room for one more frame. -/
def HasRoom (capacity : Nat) (a : MkvcDecoder F B) (w : WorkerPc F) : Prop :=
  a.queue.length ≤ capacity ∧ (w = .read ∨ (∃ ended, w = .record ended) → a.queue.length < capacity)

theorem WorkerMove.hasRoom {a : MkvcDecoder F B} {w : WorkerPc F} {e : Choice X} {o : WorkerSection F B}
    (h : WorkerMove backend capacity a w e o) (hr : HasRoom capacity a w) : HasRoom capacity o.shared o.loc := by
  obtain ⟨hle, hlt⟩ := hr
  cases h with
  | asleep => exact ⟨hle, hlt⟩
  | go hstop hroom => exact ⟨hle, fun _ => hroom⟩
  | read hread => exact ⟨hle, fun _ => hlt (.inl rfl)⟩
  | leave | finish => exact ⟨hle, by simp [workerReturn, workerFinish]⟩
  | push hstop =>
      have := hlt (.inr ⟨_, rfl⟩)
      refine ⟨?_, by simp⟩
      rw [List.length_append]
      exact this

theorem ClientMove.queue_le {a : MkvcDecoder F B} {party : Party} {pc : ClientPc} {e : Choice X}
    {sec : Section F B} (h : ClientMove backend capacity a party pc e sec) :
    sec.shared.queue.length ≤ a.queue.length := by
  cases h with
  | take hstop hqueue => rw [hqueue]; exact Nat.le_succ _
  | clear => exact Nat.zero_le _
  | _ => exact Nat.le_refl _

theorem decoder_hasRoom (h : DecoderRun backend capacity b ls s) : HasRoom capacity s.shared s.worker := by
  refine decoder_invariant (P := fun _ _ => True) (I := fun a w _ => HasRoom capacity a w)
    (h.mono fun _ _ _ hst => ⟨hst, trivial⟩) ⟨Nat.zero_le _, ?_⟩ ?_ ?_
  · intro hw
    simp only [DecoderState.init] at hw
    split at hw <;> rcases hw with hw | ⟨_, hw⟩ <;> cases hw
  · intro s e o hr _ hmove
    exact hmove.hasRoom hr
  · intro s i e sec hr _ hmove
    have hle := hmove.queue_le
    exact ⟨hle.trans hr.1, fun hw => Nat.lt_of_le_of_lt hle (hr.2 hw)⟩

/-! ## After the stop -/

theorem Step.after_stop {s t : DecoderState F B} {l : DecoderLabel X} (hrun : DecoderRun backend capacity b ls s)
    (hst : Step backend capacity s l t) (hcap : 0 < capacity) (hstop : s.shared.stopRequested = true) :
    t.shared.stopRequested = true ∧
      (returns t = returns s ∨ returns t = returns s ++ [.failed closing]) := by
  cases l with
  | worker e =>
      obtain ⟨_, o, ho, rfl⟩ := hst.worker_inv
      exact ⟨(workerAct_move ho).stays.1.trans hstop, .inl rfl⟩
  | client party e =>
      obtain ⟨_, o, ho, rfl⟩ := hst.client_inv
      obtain ⟨sec, hmove, rfl⟩ := clientAct_move ho
      obtain ⟨hparty, hat⟩ := decoder_at hrun party
      refine ⟨hmove.stays.1 hstop, ?_⟩
      cases party with
      | closer => exact .inl (by simp [returns])
      | reader =>
          rw [hparty] at hmove
          simp only [returns, Function.update_self, Client.after]
          generalize (s.client .reader).pc = pc at hmove hat
          cases hmove with
          | refused => exact .inr rfl
          | asleep hs | take hs | final hs => exact absurd (hs.symm.trans hstop) (by simp)
          | readSync => exact absurd hat (Nat.pos_iff_ne_zero.mp hcap)
          | stop | join | clear | close => cases hat
          | start => exact .inl (by simp [goto])
  | wakeWorker => rw [hst.wakeWorker_inv]; exact ⟨hstop, .inl rfl⟩
  | wake party => rw [hst.wake_inv]; exact ⟨hstop, .inl rfl⟩

theorem returns_after_stop {ls' : List (DecoderLabel X)} {t : DecoderState F B}
    (hrun : DecoderRun backend capacity b ls s) (hcap : 0 < capacity)
    (hstop : s.shared.stopRequested = true) (h : Run (Step backend capacity) s ls' t) :
    t.shared.stopRequested = true ∧ ∃ n, returns t = returns s ++ List.replicate n (.failed closing) := by
  induction h with
  | nil => exact ⟨hstop, 0, by simp⟩
  | @snoc ls' u l t hrun' hst ih =>
      obtain ⟨hstop', n, hn⟩ := ih
      obtain ⟨hstop'', hret⟩ := Step.after_stop (hrun.append hrun') hst hcap hstop'
      refine ⟨hstop'', ?_⟩
      rcases hret with hret | hret
      · exact ⟨n, hret.trans hn⟩
      · exact ⟨n + 1, by rw [hret, hn, List.replicate_succ', List.append_assoc]⟩

/-! ## The reader is never left asleep -/

/-- The sections of the worker up to the one that wakes the reader. -/
def WorkerPc.rank : WorkerPc F → Nat
  | .wait => 3
  | .read => 2
  | .record _ => 1
  | .notStarted | .exited => 0

theorem WorkerMove.progress {a : MkvcDecoder F B} {w : WorkerPc F} {e : Choice X} {o : WorkerSection F B}
    (h : WorkerMove backend capacity a w e o) (hcap : 0 < capacity) (hstop : a.stopRequested = false)
    (hempty : a.queue = []) : Cond.notEmpty ∈ o.notify ∨ o.loc.rank < w.rank := by
  cases h with
  | asleep _ hfull => rw [hempty] at hfull; exact absurd hcap (Nat.not_lt.mpr hfull)
  | go | read => exact .inr (by simp [WorkerPc.rank])
  | leave hw hs => exact absurd (hstop.symm.trans hs) (by simp)
  | push | finish => exact .inl (by simp [workerFinish])

/-- While a read sleeps the worker can go on, and it wakes the read in three sections. -/
theorem sleeping_read (hrun : DecoderRun backend capacity b ls s) (hcap : 0 < capacity)
    (hanswers : ∀ b, ∃ answers, (backend.read answers b).isSome = true) (hsl : s.sleep .reader ≠ none) :
    (∃ e t, Step backend capacity s (.worker e) t) ∧
      ∀ e t, Step backend capacity s (.worker e) t →
        t.sleep .reader = none ∨ t.worker.rank < s.worker.rank := by
  obtain ⟨c, hc⟩ := Option.ne_none_iff_exists'.mp hsl
  have hawait := decoder_awaits hrun
  have hnr := hawait.2 .reader c hc
  simp only [ClientReady, Classical.not_imp, not_or, Bool.not_eq_true, ne_eq, not_not] at hnr
  obtain ⟨rfl, hpc, hstop, hempty, hfin⟩ := hnr
  obtain ⟨frames, taken, final, refused, hp⟩ := decoder_prefetched hrun hcap
  have hworker := hp.worker
  have hawake : s.workerSleep = none := by
    by_contra hws
    obtain ⟨d, hd⟩ := Option.ne_none_iff_exists'.mp hws
    have hnr := hawait.1 d hd
    simp only [WorkerReady, Classical.not_imp, not_or, hempty] at hnr
    exact hnr.2.2.2 hcap
  refine ⟨?_, fun e t hst => ?_⟩
  · obtain ⟨e, o, ho⟩ : ∃ e o, workerAct backend capacity e s.shared s.worker = some o := by
      cases hw : s.worker with
      | notStarted => rw [hw] at hworker; exact hworker.elim
      | wait => exact ⟨.run, _, rfl⟩
      | read =>
          obtain ⟨answers, hsome⟩ := hanswers s.shared.backend
          obtain ⟨⟨ended, b'⟩, hread⟩ := Option.isSome_iff_exists.mp hsome
          refine ⟨.backend answers, ?_⟩
          simp only [workerAct, hread, Option.map_some]
          exact ⟨_, rfl⟩
      | record ended => exact ⟨.run, _, rfl⟩
      | exited =>
          rw [hw] at hworker
          have := hworker.2 hfin
          rw [hstop] at this
          cases this
    obtain ⟨t, ht⟩ := Program.exists_worker_step (p := program backend capacity) hawake ho
    exact ⟨e, t, ht⟩
  · obtain ⟨_, o, ho, rfl⟩ := hst.worker_inv
    rcases (workerAct_move ho).progress hcap hstop hempty with hn | hlt
    · exact .inl (by simp [hc, stillAsleep, hn])
    · exact .inr hlt

end

/-! ## Comparison with the synchronous read -/

/-- What is returned up to and including the first result that is not OK. -/
def upToEnd : List (ReadReturn F) → List (ReadReturn F)
  | [] => []
  | .frame f :: rest => .frame f :: upToEnd rest
  | .failed status :: _ => [.failed status]

theorem upToEnd_frames (frames : List F) (rs : List (ReadReturn F)) :
    upToEnd (frames.map .frame ++ rs) = frames.map .frame ++ upToEnd rs := by
  induction frames with
  | nil => rfl
  | cons f frames ih => simp only [List.map_cons, List.cons_append, upToEnd, ih]

/-- Frames read by the backend come back as they are. -/
theorem returned_frames (frames : List F) (m : String) :
    (frames.map ReadEnd.frame).map (ReadEnd.returned m) = frames.map .frame := by
  rw [List.map_map]
  rfl

theorem ReadEnd.returned_of_recorded {ended : ReadEnd F} (h : ended.frame? = none) :
    ended.returned "unknown decoder prefetch failure" = .failed ended.recorded := by
  cases ended with
  | frame f => cases h
  | ended status hne => rfl
  | threw what => rfl

theorem ReadEnd.recorded_ne_ok {ended : ReadEnd F} (h : ended.frame? = none) : ended.recorded.result ≠ .ok := by
  cases ended with
  | frame f => cases h
  | ended status hne => exact hne
  | threw what => simp [ReadEnd.recorded, guard]

section

variable {b : B} {ls : List (DecoderLabel X)} {s : DecoderState F B}

theorem sync_returns (h : DecoderRun backend 0 b ls s) :
    s.worker = .notStarted ∧
      returns s = s.shared.reads.map (ReadEnd.returned "unknown decoder read failure") := by
  induction h with
  | nil => exact ⟨rfl, rfl⟩
  | @snoc ls s l t hrun hst ih =>
      obtain ⟨hw, hret⟩ := ih
      cases l with
      | worker e =>
          obtain ⟨_, o, ho, rfl⟩ := hst.worker_inv
          have hmove := workerAct_move ho
          rw [hw] at hmove
          cases hmove with
          | leave hw => rcases hw with hw | ⟨ended, hw⟩ <;> cases hw
      | client party e =>
          obtain ⟨_, o, ho, rfl⟩ := hst.client_inv
          obtain ⟨sec, hmove, rfl⟩ := clientAct_move ho
          obtain ⟨hparty, hat⟩ := decoder_at hrun party
          rw [hparty] at hmove
          refine ⟨hw, ?_⟩
          generalize (s.client party).pc = pc at hmove hat
          cases party with
          | reader =>
              cases hmove with
              | start => simpa [returns, Client.after, goto] using hret
              | readSync hread =>
                  simp only [returns] at hret
                  simp [returns, Client.after, readCpuSync, reply, hret]
              | asleep | refused | take | final => exact absurd hat (Nat.lt_irrefl 0)
              | stop | join | clear | close => cases hat
          | closer =>
              have hsame : sec.shared.reads = s.shared.reads := by
                cases hmove with
                | readSync => cases hat
                | _ => rfl
              simpa [returns, hsame] using hret
      | wakeWorker => rw [hst.wakeWorker_inv]; exact ⟨hw, hret⟩
      | wake party => rw [hst.wake_inv]; exact ⟨hw, hret⟩

/-- The reads of a scripted backend are those of the script. -/
theorem scripted_reads {ends : Nat → ReadEnd F} {ls : List (DecoderLabel Unit)} {s : DecoderState F Nat}
    (h : DecoderRun (.scripted ends) capacity 0 ls s) :
    s.shared.reads = (List.range s.shared.reads.length).map ends ∧
      s.shared.backend = s.shared.reads.length := by
  refine decoder_invariant (P := fun _ _ => True)
    (I := fun a _ _ => a.reads = (List.range a.reads.length).map ends ∧ a.backend = a.reads.length)
    (h.mono fun _ _ _ hst => ⟨hst, trivial⟩) ⟨rfl, rfl⟩ ?_ ?_
  · intro s e o hs _ hmove
    obtain ⟨hreads, hlen⟩ := hs
    generalize s.worker = w at hmove
    cases hmove with
    | read hread =>
        cases hread
        simp [List.range_succ, ← hreads, hlen]
    | _ => exact ⟨hreads, hlen⟩
  · intro s i e sec hs _ hmove
    obtain ⟨hreads, hlen⟩ := hs
    generalize (s.client i).pc = pc at hmove
    cases hmove with
    | readSync hread =>
        cases hread
        simp [readCpuSync, reply, List.range_succ, ← hreads, hlen]
    | _ => exact ⟨hreads, hlen⟩

end

theorem map_range_add (ends : Nat → ReadEnd F) (m n : Nat) :
    (List.range (m + n)).map ends = (List.range m).map ends ++ (List.range n).map fun i => ends (m + i) := by
  rw [List.range_add, List.map_append, List.map_map]
  rfl

section

variable {ends : Nat → ReadEnd F} {ls : List (DecoderLabel Unit)} {s : DecoderState F Nat}

/-- What a prefetching decoder that has not been stopped owes to the synchronous one over the same backend. -/
structure RefinesSync (ends : Nat → ReadEnd F) (s : DecoderState F Nat) : Prop where
  same : ∀ {ls' : List (DecoderLabel Unit)} {t : DecoderState F Nat},
    DecoderRun (.scripted ends) 0 0 ls' t → (returns t).length = (returns s).length →
    (upToEnd (returns s)).map ReadReturn.seen = (upToEnd (returns t)).map ReadReturn.seen
  inOrder : ∃ frames status final,
    returns s = frames.map .frame ++ List.replicate final (.failed status) ∧
    frames ++ s.shared.queue ++ s.worker.held = s.shared.reads.filterMap ReadEnd.frame? ∧
    (final ≠ 0 → status.result ≠ .ok ∧ s.shared.queue = [] ∧ s.worker.held = [])

/-- The reads of a worker that has not been stopped. -/
theorem Prefetched.reads {a : MkvcDecoder F B} {w : WorkerPc F} {rs : List (ReadReturn F)} {frames : List F}
    {taken final refused : Nat} (h : Prefetched a w rs frames taken final refused)
    (hstop : a.stopRequested = false) : ∃ last, a.reads = frames.map .frame ++ last ∧
      last.filterMap ReadEnd.frame? = w.held ∧
      (a.workerFinished = true → ∃ ended : ReadEnd F, last = [ended] ∧ ended.frame? = none ∧
        ended.recorded = ⟨a.workerResult, a.workerError⟩) := by
  have hworker := h.worker
  cases w with
  | notStarted => exact hworker.elim
  | wait | read =>
      obtain ⟨hreads, hfin⟩ := hworker
      exact ⟨[], by simpa using hreads, rfl, fun hf => absurd (hf.symm.trans hfin) (by simp)⟩
  | record ended =>
      obtain ⟨hreads, hfin⟩ := hworker
      exact ⟨[ended], hreads, by cases ended <;> rfl, fun hf => absurd (hf.symm.trans hfin) (by simp)⟩
  | exited =>
      cases hf : a.workerFinished with
      | false => exact absurd (hstop.symm.trans (hworker.2 hf)) (by simp)
      | true =>
          obtain ⟨ended, hreads, hend, hrec⟩ := hworker.1 hf
          exact ⟨[ended], hreads, by simp [hend, WorkerPc.held], fun _ => ⟨ended, rfl, hend, hrec⟩⟩

theorem filterMap_frames (frames : List F) : (frames.map ReadEnd.frame).filterMap ReadEnd.frame? = frames := by
  rw [List.filterMap_map]
  exact List.filterMap_some

/-- A list of reads that begins with those of a script, cut or continued to a given length. -/
theorem script_prefix {before : List (ReadEnd F)} {k n : Nat} (h : before = (List.range k).map ends)
    (hle : n ≤ k) : (List.range n).map ends = before.take n := by
  rw [h, ← List.map_take, List.take_range, Nat.min_eq_left hle]

theorem Prefetched.same {frames : List F} {taken final : Nat}
    (h : Prefetched s.shared s.worker (returns s) frames taken final 0) (hstop : s.shared.stopRequested = false)
    (hrun : DecoderRun (.scripted ends) capacity 0 ls s) {ls' : List (DecoderLabel Unit)}
    {t : DecoderState F Nat} (ht : DecoderRun (.scripted ends) 0 0 ls' t)
    (hlen : (returns t).length = (returns s).length) :
    (upToEnd (returns s)).map ReadReturn.seen = (upToEnd (returns t)).map ReadReturn.seen := by
  obtain ⟨last, hreads, -, hlast⟩ := h.reads hstop
  have hscript := (scripted_reads hrun).1
  have hret := (sync_returns ht).2
  have hn : t.shared.reads.length = taken + final := by
    rw [hret, List.length_map] at hlen
    simp [hlen, h.returned, h.taken_le]
  rw [(scripted_reads ht).1, hn] at hret
  have hs := h.returned
  rw [List.replicate_zero, List.append_nil] at hs
  cases final with
  | zero =>
      -- so far there were only frames
      have hfirst := script_prefix (n := taken) hscript (by rw [hreads]; simp; have := h.taken_le; omega)
      rw [hreads, List.take_append_of_le_length (by simpa using h.taken_le), ← List.map_take] at hfirst
      rw [hret, hs, Nat.add_zero, hfirst, returned_frames, List.replicate_zero, List.append_nil]
  | succ final =>
      obtain ⟨hfin, rfl⟩ := h.at_end (Nat.succ_ne_zero final)
      obtain ⟨ended, rfl, hend, hrec⟩ := hlast hfin
      have hall : (List.range (frames.length + 1)).map ends = frames.map .frame ++ [ended] := by
        have hk : s.shared.reads.length = frames.length + 1 := by simp [hreads]
        rw [← hreads, hscript, hk]
      rw [show frames.length + (final + 1) = frames.length + 1 + final by omega, map_range_add, hall,
        List.map_append, List.map_append, returned_frames, List.append_assoc] at hret
      have hfinal := ended.returned_seen "unknown decoder read failure" "unknown decoder prefetch failure"
      rw [ReadEnd.returned_of_recorded hend, hrec] at hfinal
      rw [hs, hret, List.take_length, List.replicate_succ, upToEnd_frames, upToEnd_frames]
      simp only [List.map_append, List.map_cons, List.map_nil, upToEnd, List.append_cancel_left_eq,
        List.cons_append, List.nil_append]
      cases hr : ended.returned "unknown decoder read failure" with
      | frame f => rw [hr] at hfinal; simp [ReadReturn.seen] at hfinal
      | failed status => rw [hr] at hfinal; simp [upToEnd, hfinal]

theorem Prefetched.inOrder {a : MkvcDecoder F B} {w : WorkerPc F} {rs : List (ReadReturn F)} {frames : List F}
    {taken final : Nat} (h : Prefetched a w rs frames taken final 0) (hstop : a.stopRequested = false) :
    ∃ frames status final,
      rs = frames.map .frame ++ List.replicate final (.failed status) ∧
      frames ++ a.queue ++ w.held = a.reads.filterMap ReadEnd.frame? ∧
      (final ≠ 0 → status.result ≠ .ok ∧ a.queue = [] ∧ w.held = []) := by
  obtain ⟨last, hreads, hheld, hlast⟩ := h.reads hstop
  obtain ⟨hqueue, -⟩ := h.queue hstop
  refine ⟨frames.take taken, ⟨a.workerResult, a.workerError⟩, final, ?_, ?_, fun hne => ?_⟩
  · simpa using h.returned
  · rw [hqueue, List.take_append_drop, hreads, List.filterMap_append, filterMap_frames, hheld]
  · obtain ⟨hfin, rfl⟩ := h.at_end hne
    obtain ⟨ended, rfl, hend, hrec⟩ := hlast hfin
    refine ⟨?_, by simp [hqueue], ?_⟩
    · rw [← hrec]
      exact ended.recorded_ne_ok hend
    · rw [← hheld]
      simp [hend]

/-- A decoder that prefetches, over a backend whose reads end as given. Until it is stopped its reads return
what the synchronous reads return up to the first result that is not OK, the frames all and in order, and then
that result on every read; the queue keeps within its capacity; after the stop every read returns the refusal;
and a read that sleeps is woken by the worker. -/
theorem prefetch_refines_sync (hcap : 1 ≤ capacity) (h : DecoderRun (.scripted ends) capacity 0 ls s) :
    (s.shared.stopRequested = false → RefinesSync ends s) ∧ s.shared.queue.length ≤ capacity ∧
      (s.shared.stopRequested = true → ∀ {ls' : List (DecoderLabel Unit)} {t : DecoderState F Nat},
        Run (Step (.scripted ends) capacity) s ls' t →
        ∃ n, returns t = returns s ++ List.replicate n (.failed closing)) ∧
      (s.sleep .reader ≠ none → (∃ e t, Step (.scripted ends) capacity s (.worker e) t) ∧
        ∀ e t, Step (.scripted ends) capacity s (.worker e) t →
          t.sleep .reader = none ∨ t.worker.rank < s.worker.rank) := by
  refine ⟨fun hstop => ?_, (decoder_hasRoom h).1, fun hstop ls' t h' => ?_, fun hsl => ?_⟩
  · obtain ⟨frames, taken, final, refused, hp⟩ := decoder_prefetched h hcap
    obtain rfl := (hp.queue hstop).2
    exact ⟨fun ht hlen => hp.same hstop h ht hlen, hp.inOrder hstop⟩
  · exact (returns_after_stop h hcap hstop h').2
  · exact sleeping_read h hcap (fun b => ⟨(), rfl⟩) hsl

/-- Two frames, and then the end of the stream. -/
def smallEnds (n : Nat) : ReadEnd Nat :=
  if n < 2 then .frame n else .ended ⟨.endOfStream, ""⟩ Result.endOfStream_ne_ok

/-- A read that waits for the first frame, and three more. -/
def prefetchRun : List (DecoderLabel Unit) :=
  [.client .reader .call, .client .reader .run, .worker .run, .worker (.backend ()), .worker .run,
    .client .reader .run, .worker .run, .worker (.backend ()), .worker .run, .client .reader .call,
    .client .reader .run, .worker .run, .worker (.backend ()), .worker .run, .client .reader .call,
    .client .reader .run, .client .reader .call, .client .reader .run]

theorem prefetch_refines_sync_small :
    ∃ s : DecoderState Nat Nat, DecoderRun (.scripted smallEnds) 1 0 prefetchRun s ∧
      returns s = [.frame 0, .frame 1, .failed ⟨.endOfStream, ""⟩, .failed ⟨.endOfStream, ""⟩] ∧
      RefinesSync smallEnds s := by
  have h : DecoderRun (.scripted smallEnds) 1 0 prefetchRun _ := Program.run_of_exec rfl
  exact ⟨_, h, rfl, (prefetch_refines_sync (Nat.le_refl 1) h).1 rfl⟩

end

end MkvCodec.Decoder
