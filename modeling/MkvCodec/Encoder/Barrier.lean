import MkvCodec.Encoder.Accepted
import MkvCodec.Encoder.Lemmas.Awaits

/-!
# Flush is a barrier

A flush waits for its token. The token stands in the queue behind the frames of all calls that have been answered OK before, so when
the worker has recorded it the backend has succeeded with all of them. A caller that still waits finds its token on the way, or the
session stopped.
-/

namespace MkvCodec.Encoder

open Concurrency

variable {cfg : Config}

/-- The backend has succeeded with `items`, which are what was queued before the flush barrier, in their order, and then with the flush
itself. -/
def FlushedBehind (items : List Item) (a : Impl) (token : Nat) : Prop :=
  ∃ before after post status,
    a.admitted = items ++ .flush token :: post ∧ servedItems before = items ∧
    a.calls = before ++ .item (.flush token) (.returned status) :: after ∧ status.result = .ok ∧
    ∀ item ended, .item item ended ∈ before → ∃ status, ended = .returned status ∧ status.result = .ok

/-- The token is queued, in the worker's hands, or completed. -/
def TokenOnTheWay (a : Impl) (w : WorkerPc) (token : Nat) : Prop :=
  .flush token ∈ a.queue ∨ w.item? = some (.flush token) ∨ token ≤ a.completedFlushToken

/-! ## The token of a flush -/

theorem Order.flushedBehind {a : Impl} {w : WorkerPc} (h : Order a w) (hf : a.failed = false) {token : Nat}
    (hpos : 1 ≤ token) (hle : token ≤ a.completedFlushToken) : ∃ items, FlushedBehind items a token := by
  obtain ⟨done, hdone, hsucc, htoks⟩ := h.recorded_tokens hf
  obtain ⟨dropped, hadm, -⟩ := h.admitted
  have hmem : .flush token ∈ servedItems done := by
    rw [← mem_itemTokens, htoks, List.mem_range'_1]
    omega
  obtain ⟨call, hcall, hitem⟩ := List.mem_filterMap.mp hmem
  cases call with
  | item item ended =>
      obtain rfl : item = .flush token := by simpa [BackendCall.item?] using hitem
      have hok := hsucc _ hcall
      cases ended with
      | threw what => cases hok
      | returned status =>
          have hres : status.result = .ok := by simpa [BackendCall.succeeded, CallEnd.isOk] using hok
          obtain ⟨before, after, rfl⟩ := List.append_of_mem hcall
          refine ⟨servedItems before, before, after ++ w.made, servedItems after ++ servedItems w.made ++ w.taken ++
            a.queue ++ dropped, status, ?_, rfl, ?_, hres, ?_⟩
          · rw [hadm, hdone]
            simp [servedItems, BackendCall.item?]
          · rw [hdone]; simp
          · intro item' ended' hmem'
            have hok' := hsucc _ (List.mem_append_left _ hmem')
            cases ended' with
            | threw what => cases hok'
            | returned status' =>
                exact ⟨status', rfl, by simpa [BackendCall.succeeded, CallEnd.isOk] using hok'⟩
  | _ => cases hitem

/-- A token stands at one place in the log of the queue. -/
theorem Order.token_place {a : Impl} {w : WorkerPc} (h : Order a w) {items items' post post' : List Item} {token : Nat}
    (hadm : a.admitted = items ++ .flush token :: post) (hadm' : a.admitted = items' ++ .flush token :: post') :
    items = items' := by
  have hnodup : (itemTokens a.admitted).Nodup := by
    rw [h.tokens]
    exact List.nodup_range'
  have hsplit : itemTokens a.admitted = itemTokens items ++ token :: itemTokens post := by
    rw [hadm]
    simp [itemTokens, Item.token?]
  rw [hsplit, List.nodup_middle, List.nodup_cons, List.mem_append, not_or] at hnodup
  obtain ⟨⟨hitems, hpost⟩, -⟩ := hnodup
  rw [mem_itemTokens] at hitems hpost
  exact ((List.append_cons_inj_of_notMem hitems hpost).mp (hadm.symm.trans hadm')).1

/-- A token handed out and not seen again means that the session has stopped. -/
theorem Order.onTheWay {a : Impl} {w : WorkerPc} (h : Order a w) {token : Nat} (hpos : 1 ≤ token)
    (hle : token ≤ a.nextFlushToken) (hf : a.failed = false) (hca : a.canceled = false) :
    TokenOnTheWay a w token := by
  obtain ⟨done, hdone, -, htoks⟩ := h.recorded_tokens hf
  obtain ⟨dropped, hadm, hd⟩ := h.admitted
  obtain rfl : dropped = [] := by
    rcases hd with hd | ⟨-, -, hfc⟩
    · exact hd
    · rw [hf, hca] at hfc; simp at hfc
  have hmem : .flush token ∈ a.admitted := by
    rw [← mem_itemTokens, h.tokens, List.mem_range'_1]
    omega
  rw [hadm, hdone] at hmem
  simp only [servedItems_append, List.append_nil, List.mem_append] at hmem
  rcases hmem with ((hserved | hmade) | htaken) | hq
  · rw [← mem_itemTokens, htoks, List.mem_range'_1] at hserved
    exact .inr (.inr (by omega))
  · refine .inr (.inl ?_)
    cases w with
    | record item status => simpa [WorkerPc.made, WorkerPc.item?, eq_comm] using hmade
    | unwind item active what =>
        cases item with
        | none => simp [WorkerPc.made, servedItems] at hmade
        | some item => simpa [WorkerPc.made, WorkerPc.item?, eq_comm] using hmade
    | _ => simp [WorkerPc.made, servedItems] at hmade
  · refine .inr (.inl ?_)
    cases w with
    | serve item => simpa [WorkerPc.taken, WorkerPc.item?, eq_comm] using htaken
    | _ => simp [WorkerPc.taken] at htaken
  · exact .inl hq

/-! ## The callers -/

theorem Effect.waiting {a : Impl} {pc : ClientPc} {e : Choice} {o : Section} {token : Nat}
    (h : Effect cfg a pc e o) (ho : o.loc = .flushWait token) :
    (pc = .flushWait token ∧ o.shared.nextFlushToken = a.nextFlushToken) ∨
      (o.shared.admitted = a.admitted ++ [.flush token] ∧ token = a.nextFlushToken + 1 ∧
        o.shared.nextFlushToken = token) := by
  cases h with
  | quiet he hslots hwait hsleep => exact .inl ⟨hwait token ho, rfl⟩
  | take hfree hroom hslots hslots' => cases ho; cases hslots'
  | pushFlush hslots hslots' hf hacc hroom hwait hsleep =>
      obtain rfl := hwait token ho
      exact .inr ⟨rfl, rfl, rfl⟩
  | backend hslots hslots' hpc hwait hcall => exact absurd ho (hwait token)
  | _ => cases ho

theorem Effect.nextFlushToken_le {a : Impl} {pc : ClientPc} {e : Choice} {o : Section}
    (h : Effect cfg a pc e o) : a.nextFlushToken ≤ o.shared.nextFlushToken := by
  cases h with
  | pushFlush => exact Nat.le_succ _
  | _ => exact Nat.le_refl _

theorem WorkerEffect.nextFlushToken_eq {a : Impl} {w : WorkerPc} {e : Choice} {o : WorkerSection}
    (h : WorkerEffect a w e o) : o.shared.nextFlushToken = a.nextFlushToken := by
  cases h with
  | @success item status hok => cases item <;> rfl
  | _ => rfl

theorem flushWait_ok {a : Impl} {w : WorkerPc} {token : Nat} {status : Status} (hs : Stops a w)
    (h : (flushWait token a).loc = .returning status) (hok : status.result = .ok) :
    token ≤ a.completedFlushToken ∧ a.failed = false := by
  unfold flushWait at h
  split at h
  · cases h
  rename_i hready
  split at h
  · rename_i hf
    cases h
    exact absurd hok (hs.failed hf).2
  rename_i hf
  split at h
  · cases h; cases hok
  · rename_i hca
    simp only [Bool.not_eq_true] at hf hca
    simp only [hf, hca, Bool.or_false, Bool.not_eq_true', Bool.not_eq_false, decide_eq_true_eq] at hready
    exact ⟨hready, hf⟩

theorem flushSpace_ok {a : Impl} {w : WorkerPc} {status : Status} (hs : Stops a w)
    (h : (flushSpace cfg a).loc = .returning status) (hok : status.result = .ok) :
    a.nextFlushToken + 1 ≤ a.completedFlushToken ∧ a.failed = false := by
  unfold flushSpace at h
  split at h
  · cases h
  split at h
  · rename_i hf
    cases h
    exact absurd hok (hs.failed hf).2
  split at h
  · cases h
    unfold stoppedResult at hok
    split at hok <;> cases hok
  · rename_i hacc
    have hs' : Stops a.pushFlush w := hs.push (by simpa using hacc) rfl rfl rfl rfl rfl
    exact flushWait_ok (a := a.pushFlush) hs' h hok

variable {ι : Type*} [DecidableEq ι]

theorem session_waiting {ls : List (SessionLabel ι)} {s : SessionState ι} (h : SessionRun cfg ls s) {i : ι}
    {token : Nat} (hpc : (s.client i).pc = .flushWait token) :
    1 ≤ token ∧ token ≤ s.shared.nextFlushToken := by
  refine (program cfg).invariant
    (I := fun a _ ks => ∀ i token, (ks i).pc = .flushWait token → 1 ≤ token ∧ token ≤ a.nextFlushToken)
    (P := fun _ _ => True) (h.mono fun _ _ _ hst => ⟨hst, trivial⟩) (by rintro _ _ ⟨⟩) ?_ ?_ i token hpc
  · intro s e o hw _ ho i token hpc
    rw [(workerAct_effect ho).nextFlushToken_eq]
    exact hw i token hpc
  · intro s j e o hw _ ho i token hpc
    have he := clientAct_effect ho
    by_cases hij : i = j
    · subst hij
      rw [Function.update_self] at hpc
      rcases he.waiting hpc with ⟨hpc', hn⟩ | ⟨-, htok, hn⟩
      · have := hw i token hpc'
        simp only at hn
        omega
      · simp only at hn
        omega
    · rw [Function.update_of_ne hij] at hpc
      have := hw i token hpc
      have := he.nextFlushToken_le
      simp only at this
      omega

/-- In an asynchronous session a flush call returns OK from the wait for its token. -/
theorem flush_returns {ls : List (SessionLabel ι)} {s t : SessionState ι} {i : ι} {e : Choice}
    {status : Status} (hcap : cfg.capacity ≠ 0) (h : SessionRun cfg ls s) (hst : Step cfg s (.client i e) t)
    (hcur : (s.client i).current = some .flush) (hpc : ∀ st, (s.client i).pc ≠ .returning st)
    (hret : (t.client i).pc = .returning status) (hok : status.result = .ok) :
    ∃ token, (s.client i).pc = .flushWait token ∧ token ≤ s.shared.completedFlushToken ∧
      s.shared.failed = false := by
  have hpl := session_placed h i
  have hplaced := hpl
  have hstops := session_stops h
  have horder := session_order h
  obtain ⟨_, o, ho, rfl⟩ := hst.client_inv
  simp only [Function.update_self] at hret
  simp only [Client.Placed, hcur] at hplaced
  cases clientAct_action ho with
  | start hidle => rw [hidle] at hplaced; cases hplaced
  | finish hpc' hcur' => exact absurd hpc' (hpc _)
  | threw hpc' hcur' =>
      rw [hpc'] at hplaced
      exact absurd hplaced.2 (Call.flush_ne_owning _ _)
  | backend hcur' hs => exact absurd ((clientBackend_effect hs).capacity_of_backend hpl) hcap
  | act hs =>
      -- the points inside a flush call
      cases hp : (s.client i).pc with
      | flush =>
          rw [hp] at hs
          cases hs
          simp only [flush, hcap, ↓reduceIte] at hret
          obtain ⟨hle, hf⟩ := flushSpace_ok hstops hret hok
          exact absurd (horder.completed_le hf) (by omega)
      | flushSpace =>
          rw [hp] at hs
          cases hs
          obtain ⟨hle, hf⟩ := flushSpace_ok hstops hret hok
          exact absurd (horder.completed_le hf) (by omega)
      | flushWait token =>
          rw [hp] at hs
          cases hs
          exact ⟨token, rfl, flushWait_ok hstops hret hok⟩
      | flushSync => rw [hp] at hs; cases hs
      | returning st => exact absurd hp (hpc st)
      | _ => simp [hp, ClientPc.Within, hcap] at hplaced

/-- A caller that waits for its token has queued it in a step of the run, behind what the clients had got an OK for. -/
theorem flush_queued {ls : List (SessionLabel ι)} {s : SessionState ι} {i : ι} {token : Nat} (h : SessionRun cfg ls s)
    (hpc : (s.client i).pc = .flushWait token) :
    ∃ ls₁ u e v ls₂, ls = ls₁ ++ .client i e :: ls₂ ∧ SessionRun cfg ls₁ u ∧ Step cfg u (.client i e) v ∧
      Run (Step cfg) v ls₂ s ∧ (u.client i).pc ≠ .flushWait token ∧ (v.client i).pc = .flushWait token ∧
      v.shared.admitted = u.shared.admitted ++ [.flush token] := by
  obtain ⟨ls₁, u, l, v, ls₂, hu, hst, hrest, hno, hyes, rfl⟩ :=
    h.exists_flip (P := fun s => (s.client i).pc = .flushWait token) (by rintro ⟨⟩) hpc
  cases l with
  | worker e =>
      obtain ⟨_, o, ho, rfl⟩ := hst.worker_inv
      exact absurd hyes hno
  | client j e =>
      have hst' := hst
      obtain ⟨_, o, ho, rfl⟩ := hst.client_inv
      by_cases hij : i = j
      · subst hij
        have hyes' := hyes
        simp only [Function.update_self] at hyes'
        rcases (clientAct_effect ho).waiting hyes' with ⟨hpc', -⟩ | ⟨hadm, -⟩
        · exact absurd hpc' hno
        · exact ⟨ls₁, u, e, _, ls₂, rfl, hu, hst', hrest, hno, hyes, hadm⟩
      · simp only [Function.update_of_ne hij] at hyes
        exact absurd hyes hno
  | wakeWorker =>
      rw [hst.wakeWorker_inv] at hyes
      exact absurd hyes hno
  | wake j =>
      rw [hst.wake_inv] at hyes
      exact absurd hyes hno

/-- A worker that has not exited and has something to wake up for can go on. -/
theorem worker_can_step {ls : List (SessionLabel ι)} {s : SessionState ι} (hcap : cfg.capacity ≠ 0)
    (h : SessionRun cfg ls s) (hrunning : s.worker ≠ .exited)
    (hbusy : s.worker = .loop → s.shared.closeRequested = true ∨ s.shared.queue ≠ []) :
    ∃ e t, (e = .run ∨ e = .backend (.returned .ok)) ∧ Step cfg s (.worker e) t := by
  have hstarted : s.worker ≠ .notStarted := fun hw => hcap ((session_notStarted h).mp hw)
  have hawake : s.workerSleep = none := by
    by_contra hws
    obtain ⟨c, hc⟩ := Option.ne_none_iff_exists'.mp hws
    have hnr := (session_awaits h).1 c hc
    simp only [WorkerReady, workerReady] at hnr
    split at hnr
    · rename_i hw
      simp only [Bool.or_eq_true, not_or, Bool.not_eq_true, Bool.not_eq_false', List.isEmpty_iff] at hnr
      rcases hbusy hw with hreq | hq
      · rw [hnr.1] at hreq; cases hreq
      · exact hq hnr.2
    · exact hnr rfl
  obtain ⟨e, o, he, ho⟩ := workerAct_enabled (a := s.shared) hstarted hrunning
  obtain ⟨t, ht⟩ := Program.exists_worker_step (p := program cfg) hawake ho
  exact ⟨e, t, he, ht⟩

/-- A caller that sleeps in the wait for its token finds the token with the worker or queued in front of it,
and the worker busy. -/
theorem sleeping_token {ls : List (SessionLabel ι)} {s : SessionState ι} {i : ι} {token : Nat}
    (h : SessionRun cfg ls s) (hpc : (s.client i).pc = .flushWait token) (hsl : s.sleep i ≠ none) :
    (.flush token ∈ s.shared.queue ∨ s.worker.item? = some (.flush token)) ∧ s.worker ≠ .exited ∧
      (s.worker = .loop → s.shared.queue ≠ []) := by
  obtain ⟨c, hc⟩ := Option.ne_none_iff_exists'.mp hsl
  have hnr := (session_awaits h).2 i c hc
  obtain ⟨hpos, hle⟩ := session_waiting h hpc
  have hflags : s.shared.completedFlushToken < token ∧ s.shared.failed = false ∧
      s.shared.canceled = false := by
    cases c with
    | stateChanged =>
        simp only [ClientReady, hpc, ready, Bool.or_eq_true, decide_eq_true_eq, not_or, Nat.not_le,
          Bool.not_eq_true] at hnr
        exact ⟨hnr.1.1, hnr.1.2, hnr.2⟩
    | _ => simp [ClientReady, hpc, ready] at hnr
  obtain ⟨hlt, hf, hca⟩ := hflags
  have htoken : .flush token ∈ s.shared.queue ∨ s.worker.item? = some (.flush token) := by
    rcases (session_order h).onTheWay hpos hle hf hca with hq | hw | hdone
    · exact .inl hq
    · exact .inr hw
    · omega
  refine ⟨htoken, fun hw => ?_, fun hw hq => ?_⟩
  · rcases ((session_stops h).closing (by rw [hw]; rfl)).2 with hq | hf'
    · simp [hq, hw, WorkerPc.item?] at htoken
    · rw [hf] at hf'; cases hf'
  · simp [hq, hw, WorkerPc.item?] at htoken

theorem sleeping_flush {ls : List (SessionLabel ι)} {s : SessionState ι} {i : ι} {token : Nat}
    (hcap : cfg.capacity ≠ 0) (h : SessionRun cfg ls s) (hpc : (s.client i).pc = .flushWait token)
    (hsl : s.sleep i ≠ none) :
    (.flush token ∈ s.shared.queue ∨ s.worker.item? = some (.flush token)) ∧
      ∃ e t, Step cfg s (.worker e) t := by
  obtain ⟨htoken, hrunning, hbusy⟩ := sleeping_token h hpc hsl
  obtain ⟨e, t, -, hst⟩ := worker_can_step hcap h hrunning fun hw => .inr (hbusy hw)
  exact ⟨htoken, e, t, hst⟩

/-! ## The barrier -/

/-- The flush of client `i`, which waits for `token`, has been a barrier in the run that `ls` has led to: a step of the run queued its
token, and behind it the backend has written the frames of all calls that had been answered OK before this step, and then flushed. -/
def Barrier (cfg : Config) (ls : List (SessionLabel ι)) (s : SessionState ι) (i : ι) (token : Nat) : Prop :=
  ∃ ls₁ u e v ls₂, ls = ls₁ ++ .client i e :: ls₂ ∧ SessionRun cfg ls₁ u ∧ Step cfg u (.client i e) v ∧ Run (Step cfg) v ls₂ s ∧
    (u.client i).pc ≠ .flushWait token ∧ (v.client i).pc = .flushWait token ∧
    v.shared.admitted = u.shared.admitted ++ [.flush token] ∧
    Interleaved (pictures u.shared.admitted) (fun j => (u.client j).accepted) ∧ FlushedBehind u.shared.admitted s.shared token

/-- Flush in an asynchronous session. The frames in the queue and behind it are those of the calls that have been answered OK. A flush
call enqueues its barrier behind all of them; one that returns OK finds those accepted before its barrier written with OK, and then its
own flush succeeded; barriers reach the backend in token order; the token of a caller that waits is on the way unless the session has
stopped, in which case the wait condition of the caller holds; and while a caller sleeps the worker, in front of its token, can go on. -/
theorem flush_barrier {ls : List (SessionLabel ι)} {s : SessionState ι} (hcap : cfg.capacity ≠ 0)
    (h : SessionRun cfg ls s) :
    (Interleaved (pictures s.shared.admitted) (fun i => (s.client i).accepted) ∧
      s.shared.acceptedFrames = (pictures s.shared.admitted).length) ∧
    (∀ t i e token, Step cfg s (.client i e) t → (s.client i).pc ≠ .flushWait token →
      (t.client i).pc = .flushWait token → t.shared.admitted = s.shared.admitted ++ [.flush token]) ∧
    (∀ t i e status, Step cfg s (.client i e) t → (s.client i).current = some .flush →
      (∀ st, (s.client i).pc ≠ .returning st) → (t.client i).pc = .returning status → status.result = .ok →
      ∃ token, (s.client i).pc = .flushWait token ∧ Barrier cfg ls s i token) ∧
    (∃ n, itemTokens (servedItems s.shared.calls) = List.range' 1 n) ∧
    (∀ i token, (s.client i).pc = .flushWait token →
      TokenOnTheWay s.shared s.worker token ∨
        (s.shared.failed = true ∨ s.shared.canceled = true) ∧
          ready cfg .stateChanged s.shared (s.client i).pc = true) ∧
    (∀ i token, (s.client i).pc = .flushWait token → s.sleep i ≠ none →
      (.flush token ∈ s.shared.queue ∨ s.worker.item? = some (.flush token)) ∧
        ∃ e t, Step cfg s (.worker e) t) := by
  have horder := session_order h
  refine ⟨⟨session_accepted hcap h, session_acceptedFrames hcap h⟩, ?_, ?_, ?_, ?_, fun i token hpc hsl =>
    sleeping_flush hcap h hpc hsl⟩
  · intro t i e token hst hne hpc
    obtain ⟨_, o, ho, rfl⟩ := hst.client_inv
    simp only [Function.update_self] at hpc
    rcases (clientAct_effect ho).waiting hpc with ⟨hpc', -⟩ | ⟨hadm, -⟩
    · exact absurd hpc' hne
    · exact hadm
  · intro t i e status hst hcur hpc hret hok
    obtain ⟨token, hwait, hle, hf⟩ := flush_returns hcap h hst hcur hpc hret hok
    obtain ⟨items, before, after, post, st, hadm, hflushed⟩ := horder.flushedBehind hf (session_waiting h hwait).1 hle
    obtain ⟨ls₁, u, e', v, ls₂, hls, hu, hqueue, hrest, hno, hyes, hpush⟩ := flush_queued h hwait
    -- what was queued before the barrier is what the log has in front of its token
    obtain ⟨later, hlater⟩ := run_admitted_grows hrest
    have hadm' : s.shared.admitted = u.shared.admitted ++ .flush token :: later := by
      rw [← hlater, hpush, List.append_assoc, List.singleton_append]
    obtain rfl : items = u.shared.admitted := horder.token_place hadm hadm'
    exact ⟨token, hwait, ls₁, u, e', v, ls₂, hls, hu, hqueue, hrest, hno, hyes, hpush, session_accepted hcap hu,
      before, after, post, st, hadm, hflushed⟩
  · obtain ⟨dropped, hadm, -⟩ := horder.admitted
    have htok := horder.tokens
    rw [hadm] at htok
    simp only [itemTokens_append, List.append_assoc] at htok
    exact ⟨_, eq_range'_of_append htok⟩
  · intro i token hpc
    obtain ⟨hpos, hle⟩ := session_waiting h hpc
    cases hf : s.shared.failed with
    | true => exact .inr ⟨.inl rfl, by simp [hpc, ready, hf]⟩
    | false =>
        cases hca : s.shared.canceled with
        | true => exact .inr ⟨.inr rfl, by simp [hpc, ready, hca]⟩
        | false => exact .inl (horder.onTheWay hpos hle hf hca)

/-- One client writes a frame, another submits one and flushes, and the worker serves the three. -/
def flushRun : List (SessionLabel Bool) :=
  [.client false (.call (.write (smallFrame 7))), .client false .run, .client false .run, .client false .run, .client false .run,
    .client false .run, .client false .run,
    .client true (.call (.submitBorrowed (smallFrame 9))), .client true .run, .client true .run, .client true .run,
    .client true (.call .flush), .client true .run,
    .worker .run, .worker (.backend (.returned .ok)), .worker .run,
    .worker .run, .worker (.backend (.returned .ok)), .worker .run,
    .worker .run, .worker (.backend (.returned .ok)), .worker .run]

theorem flush_barrier_small :
    ∃ s u : SessionState Bool, SessionRun (.small 3 (by decide)) flushRun s ∧
      pictures u.shared.admitted = [(smallFrame 7).picture, (smallFrame 9).picture] ∧
      Interleaved (pictures u.shared.admitted) (fun j => (u.client j).accepted) ∧
      FlushedBehind u.shared.admitted s.shared 1 := by
  have h : SessionRun (.small 3 (by decide)) flushRun _ := Program.run_of_exec rfl
  obtain ⟨-, -, hret, -⟩ := flush_barrier (by decide) h
  obtain ⟨token, hpc, ls₁, u, e, v, ls₂, -, -, -, -, -, -, -, haccepted, hbehind⟩ :=
    hret _ true .run .ok rfl rfl (by rintro _ ⟨⟩) rfl rfl
  cases hpc
  obtain ⟨before, after, post, status, hadm, -⟩ := id hbehind
  have hitems := @Order.token_place _ _ (session_order h) _ _ [] _ _ rfl hadm
  exact ⟨_, u, h, by rw [← hitems]; rfl, haccepted, hbehind⟩

end MkvCodec.Encoder
