import MkvCodec.Backend.Clock
import MkvCodec.Encoder.Backed

/-!
# The close of a session

A backend that is closed takes nothing and reports nothing. What the closes of a session return agrees as long as none
of a synchronous session comes behind one that has failed: the backend forgets how it was closed, and only the worker
of an asynchronous session keeps the error. An exception out of a close leaves the backend of a synchronous session open.
-/

namespace MkvCodec.Encoder

open Concurrency

/-! ## Clients -/

/-- A close of the client has returned `status`, or is about to. -/
def Client.Closes (k : Client) (status : Status) : Prop :=
  (.close, status) ∈ k.history ∨ k.current = some .close ∧ (k.pc = .returning status ∨ k.pc = .closeSyncRecord status)

def Call.writes : Call → Bool
  | .write _ | .tryWrite _ | .writeBorrowed _ | .submitBorrowed _ => true
  | _ => false

section

variable {cfg : Config} {a : Impl} {k : Client} {e : Choice} {o : Outcome Impl Client Cond}

theorem closeJoin_closes {status : Status} (h : (closeJoin a).loc = .returning status) :
    status = if a.failed then a.terminal else .ok := by
  unfold closeJoin at h
  split at h
  · rename_i hf
    cases h
    rw [hf, if_pos rfl]
  · rename_i hf
    cases h
    rw [if_neg hf]

/-- The points inside a close. -/
theorem ClientPc.Within.of_close {pc : ClientPc} (h : pc.Within cfg .close) :
    pc = .close ∨ pc = .closeSync ∨ (∃ status, pc = .closeSyncRecord status) ∨ (cfg.capacity ≠ 0 ∧ pc = .closeJoin) ∨
      ∃ status, pc = .returning status := by
  cases pc with
  | close => exact .inl rfl
  | closeSync => exact .inr (.inl rfl)
  | closeSyncRecord status => exact .inr (.inr (.inl ⟨status, rfl⟩))
  | closeJoin => exact .inr (.inr (.inr (.inl ⟨h.1, rfl⟩)))
  | returning status => exact .inr (.inr (.inr (.inr ⟨status, rfl⟩)))
  | write frame block => cases block <;> cases h
  | writeCpuSync frame =>
      obtain ⟨-, ⟨block, h⟩ | h⟩ := h
      · cases block <;> cases h
      · cases h
  | writeCpuSyncRecord status =>
      obtain ⟨-, frame, ⟨block, h⟩ | h⟩ := h
      · cases block <;> cases h
      · cases h
  | enqueueOwned frame block => cases block <;> cases h.2
  | enqueueOwnedSpace frame block => cases block <;> cases h.2
  | enqueueOwnedCopy frame block owned => cases block <;> cases h.2
  | enqueueOwnedPush frame block owned => cases block <;> cases h.2
  | enqueueOwnedReturn owned status =>
      obtain ⟨-, frame, block, h⟩ := h
      cases block <;> cases h
  | enqueueBorrowedSpace frame => cases h.2
  | flushSync => cases h.2
  | flushSyncRecord status => cases h.2
  | flushSpace => cases h.2
  | flushWait token => cases h.2
  | _ => cases h

theorem Client.Placed.within {c : Call} (hk : k.Placed cfg) (hcur : k.current = some c) : k.pc.Within cfg c := by
  rw [Client.Placed, hcur] at hk
  exact hk

/-- A section of a close that returns is the record of the backend's status, or comes behind the join. -/
theorem clientSection_closes {pc : ClientPc} {s : Section} (hs : clientSection cfg a pc = some s)
    (hpc : pc.Within cfg .close) {status : Status} (hloc : s.loc = .returning status ∨ s.loc = .closeSyncRecord status) :
    pc = .closeSyncRecord status ∨
      cfg.capacity ≠ 0 ∧ a.workerExited = true ∧ s.shared = a ∧ status = if a.failed then a.terminal else .ok := by
  obtain rfl | rfl | ⟨status', rfl⟩ | ⟨hcap, rfl⟩ | ⟨status', rfl⟩ := hpc.of_close
  · cases hs
    unfold close at hloc
    split at hloc
    · obtain hloc | hloc := hloc <;> cases hloc
    · split at hloc
      · obtain hloc | hloc := hloc <;> cases hloc
      · obtain hloc | hloc := hloc <;> cases hloc
  · cases hs
  · cases hs
    obtain hloc | hloc := hloc
    · cases hloc
      exact .inl rfl
    · cases hloc
  · simp only [clientSection] at hs
    split at hs
    · rename_i hexit
      cases hs
      have hshared : (closeJoin a).shared = a := by
        unfold closeJoin
        split
        · rfl
        · rfl
      obtain hloc | hloc := hloc
      · exact .inr ⟨hcap, hexit, hshared, closeJoin_closes hloc⟩
      · unfold closeJoin at hloc
        split at hloc
        · cases hloc
        · cases hloc
    · cases hs
  · cases hs

/-- A close ends in the section behind the join, or with the call into the backend. -/
theorem Action.closes (h : Action cfg a k e o) (hk : k.Placed cfg) {status : Status} (hcloses : o.loc.Closes status) :
    k.Closes status ∨
      (cfg.capacity ≠ 0 ∧ a.workerExited = true ∧ o.shared = a ∧ status = if a.failed then a.terminal else .ok) ∨
      k.pc = .closeSync ∧ ∃ ended, e = .backend ended ∧ (status.result = .ok ↔ CallEnd.isOk ended = true) := by
  cases h with
  | @start c hpc =>
      obtain hmem | ⟨-, hpc | hpc⟩ := hcloses
      · exact .inl (.inl hmem)
      · cases c <;> cases hpc
      · cases c <;> cases hpc
  | @finish status' c hpc hcur =>
      obtain hmem | ⟨hnone, -⟩ := hcloses
      · cases List.mem_append.mp hmem with
        | inl hmem => exact .inl (.inl hmem)
        | inr hmem =>
            cases List.mem_singleton.mp hmem
            exact .inl (.inr ⟨hcur, .inl hpc⟩)
      · cases hnone
  | @act s hs =>
      obtain hmem | ⟨hcur, hloc⟩ := hcloses
      · exact .inl (.inl hmem)
      · cases clientSection_closes hs (hk.within hcur) hloc with
        | inl hpc => exact .inl (.inr ⟨hcur, .inr hpc⟩)
        | inr hjoined => exact .inr (.inl hjoined)
  | @threw what c frame block owned hpc hcur =>
      obtain hmem | ⟨hclose, -⟩ := hcloses
      · exact .inl (.inl hmem)
      · have hwithin := hk.within hclose
        rw [hpc] at hwithin
        cases block <;> cases hwithin.2
  | @backend ended c s hcur hs =>
      obtain hmem | ⟨hclose, hloc⟩ := hcloses
      · exact .inl (.inl hmem)
      · obtain hpc | hpc | ⟨status', hpc⟩ | ⟨-, hpc⟩ | ⟨status', hpc⟩ := (hk.within hclose).of_close
        · rw [hpc] at hs
          cases hs
        · refine .inr (.inr ⟨hpc, ended, rfl, ?_⟩)
          rw [hpc] at hs
          cases ended with
          | returned returned =>
              cases hs
              obtain hloc | hloc := hloc
              · cases hloc
              · cases hloc
                simp [CallEnd.isOk]
          | threw what =>
              cases hs
              obtain hloc | hloc := hloc
              · cases hloc
                simp [CallEnd.isOk, guard]
              · cases hloc
        · rw [hpc] at hs
          cases hs
        · rw [hpc] at hs
          cases hs
        · rw [hpc] at hs
          cases hs

/-! ## Writes behind a close -/

/-- A point of a write where only an error can come of it. -/
def ClientPc.Refuses : ClientPc → Prop
  | .write _ _ | .writeBorrowed _ | .writeCpuSync _ | .submitBorrowed _ | .enqueueBorrowed _ => True
  | .writeCpuSyncRecord status | .returning status => status.result ≠ .ok
  | _ => False

/-- The session does not accept: it is asynchronous and has stopped, or a synchronous one, whose backend decides. -/
structure Impl.Shut (cfg : Config) (a : Impl) : Prop where
  stopped : cfg.capacity ≠ 0 → a.accepting = false
  terminal : a.failed = true → a.terminalResult ≠ .ok

theorem enqueueBorrowed_refuses (hshut : a.Shut cfg) (frame : FrameView) : (enqueueBorrowed cfg frame a).loc.Refuses := by
  unfold enqueueBorrowed
  split
  · simp [reply, goto, ClientPc.Refuses, dimensionMismatch]
  · split
    · assumption
    · split
      · simp [reply, goto, ClientPc.Refuses]
      · rename_i hcap
        split
        · simp [reply, goto, ClientPc.Refuses, prohibited]
        · simp only [enqueueBorrowedSpace, hshut.stopped hcap, Bool.not_false, Bool.or_true, Bool.true_or, Bool.not_true,
            Bool.false_eq_true, ↓reduceIte]
          split
          · exact hshut.terminal (by assumption)
          · exact stoppedResult_ne_ok a

theorem clientSection_refuses {pc : ClientPc} {s : Section} (hs : clientSection cfg a pc = some s) (hshut : a.Shut cfg)
    (hpc : pc.Refuses) : s.loc.Refuses := by
  cases pc with
  | write frame block =>
      cases hs
      unfold write
      split
      · simp [reply, goto, ClientPc.Refuses, prohibited]
      · split
        · exact hshut.terminal (by assumption)
        · split
          · simp [reply, goto, ClientPc.Refuses]
          · split
            · exact stoppedResult_ne_ok a
            · rename_i haccepts
              split
              · assumption
              · by_cases hcap : cfg.capacity = 0
                · rw [if_pos hcap]
                  trivial
                · simp [hshut.stopped hcap] at haccepts
  | writeBorrowed frame =>
      cases hs
      unfold writeBorrowed
      split
      · simp [reply, goto, ClientPc.Refuses]
      · split
        · exact hshut.terminal (by assumption)
        · split
          · exact stoppedResult_ne_ok a
          · trivial
  | writeCpuSyncRecord status =>
      cases hs
      rw [writeCpuSyncRecord, if_neg hpc]
      exact hpc
  | submitBorrowed frame =>
      cases hs
      unfold submitBorrowed
      split
      · assumption
      · trivial
  | enqueueBorrowed frame =>
      cases hs
      exact enqueueBorrowed_refuses hshut frame
  | writeCpuSync frame => cases hs
  | returning status => cases hs
  | _ => cases hpc

/-- The client is in no write, or in one of which only an error can come. -/
def Client.Refused (k : Client) : Prop := ∀ c, k.current = some c → c.writes = true → k.pc.Refuses

/-- The writes among the calls that have returned to `k'` since `k` have returned errors. -/
def RefusedReturns (k k' : Client) : Prop :=
  ∃ returned, k'.history = k.history ++ returned ∧ ∀ r ∈ returned, r.1.writes = true → r.2.result ≠ .ok

theorem RefusedReturns.of_eq {k k' : Client} (h : k'.history = k.history) : RefusedReturns k k' :=
  ⟨[], by simp [h], by simp⟩

theorem RefusedReturns.trans {k k' k'' : Client} (h : RefusedReturns k k') (h' : RefusedReturns k' k'') :
    RefusedReturns k k'' := by
  obtain ⟨returned, hreturned, hrefused⟩ := h
  obtain ⟨returned', hreturned', hrefused'⟩ := h'
  refine ⟨returned ++ returned', by rw [hreturned', hreturned, List.append_assoc], ?_⟩
  intro r hr
  cases List.mem_append.mp hr with
  | inl hr => exact hrefused r hr
  | inr hr => exact hrefused' r hr

/-- The writes of a client are refused when the session is shut and the backend takes no frame. -/
theorem Action.refused (h : Action cfg a k e o) (hk : k.Placed cfg) (hrefused : k.Refused) (hshut : a.Shut cfg)
    (hbackend : ∀ ended frame, e = .backend ended → k.pc = .writeCpuSync frame → CallEnd.isOk ended = false) :
    o.loc.Refused ∧ RefusedReturns k o.loc := by
  cases h with
  | @start c hpc =>
      refine ⟨?_, .of_eq rfl⟩
      rintro c' ⟨⟩ hwrites
      cases c with
      | write | tryWrite | writeBorrowed | submitBorrowed => trivial
      | _ => cases hwrites
  | @finish status c hpc hcur =>
      refine ⟨(fun _ hnone => nomatch hnone), [(c, status)], rfl, ?_⟩
      intro r hr hwrites
      cases List.mem_singleton.mp hr
      have hstatus := hrefused c hcur hwrites
      rw [hpc] at hstatus
      exact hstatus
  | @act s hs => exact ⟨fun c hcur hwrites => clientSection_refuses hs hshut (hrefused c hcur hwrites), .of_eq rfl⟩
  | @threw what c frame block owned hpc hcur =>
      have hwithin := hk.within hcur
      rw [hpc] at hwithin
      have hrefuses := hrefused c hcur (by rw [hwithin.2]; cases block <;> rfl)
      rw [hpc] at hrefuses
      exact hrefuses.elim
  | @backend ended c s hcur hs =>
      refine ⟨?_, .of_eq rfl⟩
      intro c' hcur' hwrites
      have hrefuses := hrefused c' hcur' hwrites
      obtain ⟨pc, current, history⟩ := k
      cases pc with
      | writeCpuSync frame =>
          have hfails := hbackend _ frame rfl rfl
          cases ended with
          | returned status =>
              cases hs
              simpa [ClientPc.Refuses, goto, CallEnd.isOk] using hfails
          | threw what =>
              cases hs
              simp [ClientPc.Refuses, reply, goto, guard]
      | flushSync => exact hrefuses.elim
      | closeSync => exact hrefuses.elim
      | _ => cases hs

end

/-! ## Backends -/

/-- A backend that is closed takes no frame, and none of its functions changes it. A close that returns closes it. -/
structure EncoderBackend.Shuts {B A : Type*} (api : EncoderBackend B A) (closed : B → Bool) : Prop where
  close : ∀ b a status, (api.close b a).1 = .returned status → closed (api.close b a).2 = true
  closeAgain : ∀ b a, closed b = true → api.close b a = (.returned .ok, b)
  write : ∀ b frame a, closed b = true → CallEnd.isOk (api.write b frame a).1 = false ∧ (api.write b frame a).2 = b
  flush : ∀ b a, closed b = true → (api.flush b a).2 = b

section

variable {E : Type*} {threw : Option (Option String)} {done : Status × E} {thrown : E}

/-- A call that returns has done all of its work. -/
theorem ending_returned {status : Status} (h : (ending threw done thrown).1 = .returned status) :
    (ending threw done thrown).2 = done.2 := by
  unfold ending at h ⊢
  split
  · split
    · rfl
    · rename_i hne
      simp only [hne, ↓reduceIte] at h
      cases h
  · rfl

theorem ending_ok (e : E) : ending threw (.ok, e) thrown = (.returned .ok, e) := by
  unfold ending
  split <;> rfl

/-- An error leaves what it leaves, whether it is returned or thrown. -/
theorem ending_same : (ending threw done done.2).2 = done.2 := by
  unfold ending
  split
  · split <;> rfl
  · rfl

theorem ending_error (h : done.1.result ≠ .ok) : CallEnd.isOk (ending threw done thrown).1 = false := by
  unfold ending
  split
  · simp [h, CallEnd.isOk]
  · simp [h, CallEnd.isOk]

end

theorem vp9Backend_shuts : vp9Backend.Shuts Backend.CpuVp9Encoder.closed := by
  constructor
  · intro e answer status hreturned
    simp only [vp9Backend] at hreturned ⊢
    rw [ending_returned hreturned, Backend.CpuVp9Encoder.close_eq]
    split
    · assumption
    · rfl
  · intro e answer hclosed
    have hclose : e.close answer.close = (.ok, e) := by simp [Backend.CpuVp9Encoder.close, hclosed]
    simp only [vp9Backend, hclose, ending_ok]
  · intro e frame answer hclosed
    have hwrite : e.write frame answer.write = (⟨.errorInvalidState, "encoder is closed"⟩, e) := by
      simp [Backend.CpuVp9Encoder.write, hclosed]
    simp only [vp9Backend, hwrite]
    exact ⟨ending_error (by simp), ending_same⟩
  · intro e answer hclosed
    have hflush : e.flush answer.flush = (.ok, e) := by simp [Backend.CpuVp9Encoder.flush, hclosed]
    simp only [vp9Backend, hflush, ending_ok]

theorem av1Backend_shuts : av1Backend.Shuts Backend.CpuAv1Encoder.closed := by
  constructor
  · intro e answer status hreturned
    simp only [av1Backend] at hreturned ⊢
    rw [ending_returned hreturned, Backend.CpuAv1Encoder.close_eq]
    split
    · assumption
    · rfl
  · intro e answer hclosed
    have hclose : e.close answer.close = (.ok, e) := by simp [Backend.CpuAv1Encoder.close, hclosed]
    simp only [av1Backend, hclose, ending_ok]
  · intro e frame answer hclosed
    have hwrite : e.write frame answer.write = (⟨.errorInvalidState, "encoder is closed or draining"⟩, e) := by
      simp [Backend.CpuAv1Encoder.write, hclosed]
    simp only [av1Backend, hwrite]
    exact ⟨ending_error (by simp), ending_same⟩
  · intro e answer hclosed
    have hflush : e.flush answer.flush = (.ok, e) := by simp [Backend.CpuAv1Encoder.flush, hclosed]
    simp only [av1Backend, hflush, ending_ok]

/-! ## The end of a session -/

theorem Effect.failed_eq {cfg : Config} {a : Impl} {pc : ClientPc} {e : Choice} {o : Section} (h : Effect cfg a pc e o) :
    o.shared.failed = a.failed := by
  cases h <;> rfl

variable {ι B A : Type*} [DecidableEq ι] {cfg : Config} {api : EncoderBackend B A} {closed : B → Bool}

/-- The worker has exited; without a worker, the backend is closed or a close has failed. -/
def Ended (cfg : Config) (closed : B → Bool) (s : Backed ι B × Bool) : Prop :=
  if cfg.capacity = 0 then closed s.1.backend = true ∨ s.2 = true else s.1.session.shared.workerExited = true

theorem Ended.shut {ls : List (SessionLabel ι)} {s : Backed ι B × Bool} (h : Ended cfg closed s)
    (hrun : SessionRun cfg ls s.1.session) : s.1.session.shared.Shut cfg := by
  have hstops := session_stops hrun
  constructor
  · intro hcap
    rw [Ended, if_neg hcap, session_exited hrun] at h
    exact (hstops.closing (by rw [h]; rfl)).1
  · exact fun hfailed => (hstops.failed hfailed).2

/-- A worker that may run has been started, and has not exited. -/
theorem worker_of_step {ls : List (SessionLabel ι)} {s t : SessionState ι} {e : Choice} (hrun : SessionRun cfg ls s)
    (h : Step cfg s (.worker e) t) : cfg.capacity ≠ 0 ∧ s.shared.workerExited ≠ true := by
  obtain ⟨-, o, ho, -⟩ := h.worker_inv
  constructor
  · intro hcap
    rw [(session_notStarted hrun).mpr hcap] at ho
    cases ho
  · intro hexit
    rw [(session_exited hrun).mp hexit] at ho
    cases ho

theorem capacity_of_call {ls : List (SessionLabel ι)} {s t : SessionState ι} {i : ι} {ended : CallEnd}
    (hrun : SessionRun cfg ls s) (h : Step cfg s (.client i (.backend ended)) t) : cfg.capacity = 0 := by
  obtain ⟨-, o, ho, -⟩ := h.client_inv
  exact (clientAct_effect ho).capacity_of_backend (session_placed hrun i)

/-- Whether a close of a synchronous session has failed, behind the step. -/
def failedBehind (api : EncoderBackend B A) (s : Backed ι B) (l : BackedLabel ι A) (failed : Bool) : Bool :=
  match l with
  | .client i a =>
      match (s.session.client i).pc with
      | .closeSync => failed || !CallEnd.isOk (api.close s.backend a).1
      | _ => failed
  | _ => failed

/-- Behind a close of a synchronous session that has failed, no other goes into the backend, and nothing does where the
failed one has thrown, so that the backend is not closed. -/
def Allowed (closed : B → Bool) (s : Backed ι B × Bool) : BackedLabel ι A → Prop
  | .client i _ => s.2 = true → closed s.1.backend = true ∧ (s.1.session.client i).pc ≠ .closeSync
  | _ => True

/-- The steps of a session with its backend, with what has become of its closes. -/
def Watched (api : EncoderBackend B A) (cfg : Config) : Backed ι B × Bool → BackedLabel ι A → Backed ι B × Bool → Prop :=
  Watch (api.Step cfg) (failedBehind api)

/-- Nothing happens to the backend of a session that has ended. -/
theorem Ended.move {ls : List (SessionLabel ι)} {s : Backed ι B} {failed : Bool} {t : Backed ι B} {l : BackedLabel ι A}
    (h : Ended cfg closed (s, failed)) (hshuts : api.Shuts closed) (hrun : SessionRun cfg ls s.session)
    (hallowed : Allowed closed (s, failed) l) (hmoves : api.Moves cfg s l t) :
    Ended cfg closed (t, failedBehind api s l failed) ∧ t.backend = s.backend := by
  cases hmoves with
  | @session l u hl hst =>
      refine ⟨?_, rfl⟩
      unfold Ended at h ⊢
      split
      · rename_i hcap
        rw [if_pos hcap] at h
        exact h
      · rename_i hcap
        rw [if_neg hcap] at h
        cases l with
        | worker e => exact absurd h (worker_of_step hrun hst).2
        | client i e =>
            obtain ⟨-, o, ho, rfl⟩ := hst.client_inv
            exact (clientAct_effect ho).workerExited_eq.trans h
        | wakeWorker => rw [hst.wakeWorker_inv]; exact h
        | wake i => rw [hst.wake_inv]; exact h
  | @worker a request u hr hst =>
      obtain ⟨hcap, hexit⟩ := worker_of_step hrun hst
      rw [Ended, if_neg hcap] at h
      exact absurd h hexit
  | @client i a request u hr hst =>
      have hcap := capacity_of_call hrun hst
      rw [Ended, if_pos hcap] at h ⊢
      have hclosed : closed s.backend = true := h.elim id fun hfailed => (hallowed hfailed).1
      have hsame : (api.perform s.backend a request).2 = s.backend := by
        cases request with
        | write frame => exact (hshuts.write _ frame a hclosed).2
        | flush => exact hshuts.flush _ a hclosed
        | close => exact congrArg Prod.snd (hshuts.closeAgain _ a hclosed)
      exact ⟨.inl (by rw [hsame]; exact hclosed), hsame⟩

/-- The session reports a failure to a close. -/
def Failing (cfg : Config) (s : Backed ι B × Bool) : Bool :=
  if cfg.capacity = 0 then s.2 else s.1.session.shared.failed

/-- A close that has returned, or is about to, has ended the session, and tells whether it has failed. -/
def Final (cfg : Config) (closed : B → Bool) (s : Backed ι B × Bool) : Prop :=
  ∀ i status, (s.1.session.client i).Closes status → Ended cfg closed s ∧ (status.result = .ok ↔ Failing cfg s = false)

theorem Final.session {ls : List (SessionLabel ι)} {s : Backed ι B} {failed : Bool} {l : SessionLabel ι}
    {u : SessionState ι} (h : Final cfg closed (s, failed)) (hrun : SessionRun cfg ls s.session)
    (hl : outsideBackend l = true) (hst : Step cfg s.session l u) :
    Final cfg closed (⟨u, s.backend⟩, failed) := by
  intro i status hcloses
  cases l with
  | worker e =>
      obtain ⟨hcap, hexit⟩ := worker_of_step hrun hst
      obtain ⟨-, o, ho, rfl⟩ := hst.worker_inv
      have hended := (h i status hcloses).1
      rw [Ended, if_neg hcap] at hended
      exact absurd hended hexit
  | client j e =>
      obtain ⟨-, o, ho, hu⟩ := hst.client_inv
      have heffect := clientAct_effect ho
      have hkeep : Ended cfg closed (s, failed) ∧ (status.result = .ok ↔ Failing cfg (s, failed) = false) →
          Ended cfg closed (Backed.mk u s.backend, failed) ∧
            (status.result = .ok ↔ Failing cfg (Backed.mk u s.backend, failed) = false) := by
        have hexited : u.shared.workerExited = s.session.shared.workerExited := by rw [hu]; exact heffect.workerExited_eq
        have hfailed : u.shared.failed = s.session.shared.failed := by rw [hu]; exact heffect.failed_eq
        unfold Ended Failing
        dsimp only
        rw [hexited, hfailed]
        exact id
      simp only [hu] at hcloses
      by_cases hij : i = j
      · subst hij
        simp only [Function.update_self] at hcloses
        obtain hold | ⟨hcap, hexit, -, hstatus⟩ | ⟨-, ended, rfl, -⟩ :=
          (clientAct_action ho).closes (session_placed hrun i) hcloses
        · exact hkeep (h i status hold)
        · apply hkeep
          rw [Ended, if_neg hcap, Failing, if_neg hcap]
          refine ⟨hexit, ?_⟩
          rw [hstatus]
          cases hfailed : s.session.shared.failed with
          | true => simpa [hfailed, Impl.terminal] using ((session_stops hrun).failed hfailed).2
          | false => simp
        · cases hl
      · simp only [Function.update_of_ne hij] at hcloses
        exact hkeep (h i status hcloses)
  | wakeWorker =>
      rw [hst.wakeWorker_inv] at hcloses ⊢
      exact h i status hcloses
  | wake j =>
      rw [hst.wake_inv] at hcloses ⊢
      exact h i status hcloses

/-- A call of a client into the backend. -/
theorem Final.call {ls : List (SessionLabel ι)} {s : Backed ι B} {failed : Bool} {i : ι} {a : A} {request : Request}
    {u : SessionState ι} (h : Final cfg closed (s, failed)) (hshuts : api.Shuts closed) (hrun : SessionRun cfg ls s.session)
    (hallowed : Allowed closed (s, failed) (BackedLabel.client i a))
    (hr : (s.session.client i).pc.request = some request)
    (hst : Step cfg s.session (.client i (.backend (api.perform s.backend a request).1)) u) :
    Final cfg closed (⟨u, (api.perform s.backend a request).2⟩, failedBehind api s (.client i a) failed) := by
  have hcap := capacity_of_call hrun hst
  have hmove : Ended cfg closed (s, failed) → _ := fun hended => hended.move hshuts hrun hallowed (.client hr hst)
  obtain ⟨-, o, ho, rfl⟩ := hst.client_inv
  intro j status hcloses
  dsimp only at hcloses
  rw [Failing, if_pos hcap]
  -- a close that had returned before, or the one that now comes back
  have hold : (s.session.client j).Closes status → (status.result = .ok ↔ failedBehind api s (.client i a) failed = false) := by
    intro hstatus
    obtain ⟨hended, hiff⟩ := h j status hstatus
    rw [Failing, if_pos hcap] at hiff
    rw [hiff]
    unfold failedBehind
    dsimp only
    split
    · rename_i hpc
      cases hfailed : failed with
      | true => exact absurd hpc (hallowed hfailed).2
      | false =>
          rw [Ended, if_pos hcap] at hended
          have hclosed : closed s.backend = true := hended.elim id fun hf => absurd hf (by simp [hfailed])
          simp [hshuts.closeAgain _ a hclosed, CallEnd.isOk]
    · rfl
  by_cases hji : j = i
  · subst hji
    simp only [Function.update_self] at hcloses
    obtain hstatus | ⟨hasync, -⟩ | ⟨hpc, ended, hended, hstatus⟩ :=
      (clientAct_action ho).closes (session_placed hrun j) hcloses
    · exact ⟨(hmove (h j status hstatus).1).1, hold hstatus⟩
    · exact absurd hcap hasync
    · rw [hpc] at hr
      cases hr
      cases hended
      have hbehind : failedBehind api s (.client j a) failed = (failed || !CallEnd.isOk (api.close s.backend a).1) := by
        simp [failedBehind, hpc]
      have hfirst : failed = false := by
        by_contra hfailed
        exact (hallowed (by simpa using hfailed)).2 hpc
      rw [hbehind, hfirst, Bool.false_or, hstatus, Ended, if_pos hcap]
      refine ⟨?_, by simp [EncoderBackend.perform]⟩
      cases hclose : (api.close s.backend a).1 with
      | returned status' => exact .inl (hshuts.close _ a _ hclose)
      | threw what => exact .inr rfl
  · simp only [Function.update_of_ne hji] at hcloses
    exact ⟨(hmove (h j status hcloses).1).1, hold hcloses⟩

theorem Final.move {ls : List (SessionLabel ι)} {s t : Backed ι B} {failed : Bool} {l : BackedLabel ι A}
    (h : Final cfg closed (s, failed)) (hshuts : api.Shuts closed) (hrun : SessionRun cfg ls s.session)
    (hallowed : Allowed closed (s, failed) l) (hmoves : api.Moves cfg s l t) :
    Final cfg closed (t, failedBehind api s l failed) := by
  cases hmoves with
  | session hl hst => exact h.session hrun hl hst
  | @worker a request u hr hst =>
      obtain ⟨hcap, hexit⟩ := worker_of_step hrun hst
      obtain ⟨-, o, ho, rfl⟩ := hst.worker_inv
      intro i status hcloses
      have hended := (h i status hcloses).1
      rw [Ended, if_neg hcap] at hended
      exact absurd hended hexit
  | client hr hst => exact h.call hshuts hrun hallowed hr hst

/-- Behind the end of the session the writes of a client are refused. -/
theorem Ended.refused {ls : List (SessionLabel ι)} {s t : Backed ι B} {failed : Bool} {l : BackedLabel ι A}
    (h : Ended cfg closed (s, failed)) (hshuts : api.Shuts closed) (hrun : SessionRun cfg ls s.session)
    (hallowed : Allowed closed (s, failed) l) (hmoves : api.Moves cfg s l t) {i : ι}
    (hrefused : (s.session.client i).Refused) :
    (t.session.client i).Refused ∧ RefusedReturns (s.session.client i) (t.session.client i) := by
  have hact : ∀ {j : ι} {e : Choice} {u : SessionState ι}, Step cfg s.session (.client j e) u →
      (∀ ended frame, e = .backend ended → (s.session.client j).pc = .writeCpuSync frame → CallEnd.isOk ended = false) →
      (u.client i).Refused ∧ RefusedReturns (s.session.client i) (u.client i) := by
    intro j e u hst hbackend
    obtain ⟨-, o, ho, rfl⟩ := hst.client_inv
    by_cases hij : i = j
    · subst hij
      simpa using (clientAct_action ho).refused (session_placed hrun i) hrefused (h.shut hrun) hbackend
    · simpa [Function.update_of_ne hij] using ⟨hrefused, RefusedReturns.of_eq rfl⟩
  cases hmoves with
  | @session l u hl hst =>
      cases l with
      | worker e =>
          obtain ⟨-, o, -, rfl⟩ := hst.worker_inv
          exact ⟨hrefused, .of_eq rfl⟩
      | client j e =>
          apply hact hst
          rintro ended frame rfl
          cases hl
      | wakeWorker => rw [hst.wakeWorker_inv]; exact ⟨hrefused, .of_eq rfl⟩
      | wake j => rw [hst.wake_inv]; exact ⟨hrefused, .of_eq rfl⟩
  | worker hr hst =>
      obtain ⟨-, o, -, rfl⟩ := hst.worker_inv
      exact ⟨hrefused, .of_eq rfl⟩
  | @client j a request u hr hst =>
      have hcap := capacity_of_call hrun hst
      rw [Ended, if_pos hcap] at h
      have hclosed : closed s.backend = true := h.elim id fun hfailed => (hallowed hfailed).1
      apply hact hst
      rintro ended frame ⟨⟩ hpc
      rw [hpc] at hr
      cases hr
      exact (hshuts.write _ frame a hclosed).1

/-- What a close that has returned in `s` settles for `t`: its result stands, the backend stays as it is, and writes are
refused. -/
structure Settled (s t : Backed ι B) (status : Status) : Prop where
  closes : ∀ i status', (.close, status') ∈ (t.session.client i).history → (status.result = .ok ↔ status'.result = .ok)
  backend : t.backend = s.backend
  writes : ∀ i, (s.session.client i).pc = .idle → RefusedReturns (s.session.client i) (t.session.client i)

theorem Action.history {cfg : Config} {a : Impl} {k : Client} {e : Choice} {o : Outcome Impl Client Cond}
    (h : Action cfg a k e o) {r : Call × Status} (hr : r ∈ k.history) : r ∈ o.loc.history := by
  cases h with
  | finish => exact List.mem_append_left _ hr
  | _ => exact hr

/-- What has returned to a client stays returned. -/
theorem history_step {s t : SessionState ι} {l : SessionLabel ι} (h : Step cfg s l t) {i : ι} {r : Call × Status}
    (hr : r ∈ (s.client i).history) : r ∈ (t.client i).history := by
  cases l with
  | worker e =>
      obtain ⟨-, o, -, rfl⟩ := h.worker_inv
      exact hr
  | client j e =>
      obtain ⟨-, o, ho, rfl⟩ := h.client_inv
      by_cases hij : i = j
      · subst hij
        simpa using (clientAct_action ho).history hr
      · simpa [Function.update_of_ne hij] using hr
  | wakeWorker => rw [h.wakeWorker_inv]; exact hr
  | wake j => rw [h.wake_inv]; exact hr

/-- The runs of a session with its backend in which the steps are allowed. -/
abbrev AllowedRun (api : EncoderBackend B A) (cfg : Config) (closed : B → Bool) (s : Backed ι B × Bool)
    (ls : List (BackedLabel ι A)) (t : Backed ι B × Bool) : Prop :=
  Run (Restrict (Watched api cfg) (Allowed closed)) s ls t

theorem run_final (hshuts : api.Shuts closed) {b : B} {ls : List (BackedLabel ι A)} {s : Backed ι B × Bool}
    (h : AllowedRun api cfg closed (⟨SessionState.init cfg, b⟩, false) ls s) :
    (∃ ls', SessionRun cfg ls' s.1.session) ∧ Final cfg closed s := by
  induction h with
  | nil =>
      refine ⟨⟨[], .nil⟩, ?_⟩
      rintro i status (hmem | ⟨hcur, -⟩)
      · cases hmem
      · cases hcur
  | @snoc ls s l t hrun hst ih =>
      obtain ⟨⟨ls', hsession⟩, hfinal⟩ := ih
      obtain ⟨⟨hstep, hnext⟩, hallowed⟩ := hst
      obtain ⟨l', hst⟩ := hstep.moves.session_step
      obtain ⟨t, behind⟩ := t
      obtain rfl : behind = failedBehind api s.1 l s.2 := hnext
      exact ⟨⟨_, hsession.snoc hst⟩, hfinal.move hshuts hsession hallowed hstep.moves⟩

/-- From the end of a session on. -/
theorem run_ended (hshuts : api.Shuts closed) {ls : List (SessionLabel ι)} {ls' : List (BackedLabel ι A)}
    {s t : Backed ι B × Bool} (hrun : SessionRun cfg ls s.1.session) (hended : Ended cfg closed s)
    (h : AllowedRun api cfg closed s ls' t) :
    (∃ ls, SessionRun cfg ls t.1.session) ∧ Ended cfg closed t ∧ t.1.backend = s.1.backend ∧
      (∀ i r, r ∈ (s.1.session.client i).history → r ∈ (t.1.session.client i).history) ∧
      ∀ i, (s.1.session.client i).Refused →
        (t.1.session.client i).Refused ∧ RefusedReturns (s.1.session.client i) (t.1.session.client i) := by
  induction h with
  | nil => exact ⟨⟨ls, hrun⟩, hended, rfl, fun _ _ hr => hr, fun _ hrefused => ⟨hrefused, .of_eq rfl⟩⟩
  | @snoc ls' u l t _ hst ih =>
      obtain ⟨⟨more, hrun⟩, hended, hbackend, hhistory, hrefused⟩ := ih
      obtain ⟨⟨hstep, hnext⟩, hallowed⟩ := hst
      obtain ⟨l', hst⟩ := hstep.moves.session_step
      obtain ⟨hended', hbackend'⟩ := hended.move hshuts hrun hallowed hstep.moves
      obtain ⟨t, behind⟩ := t
      obtain rfl : behind = failedBehind api u.1 l u.2 := hnext
      refine ⟨⟨_, hrun.snoc hst⟩, hended', hbackend'.trans hbackend, fun i r hr => history_step hst (hhistory i r hr), ?_⟩
      intro i hi
      obtain ⟨hi', hreturns⟩ := hrefused i hi
      obtain ⟨hi'', hreturns'⟩ := hended.refused hshuts hrun hallowed hstep.moves hi'
      exact ⟨hi'', hreturns.trans hreturns'⟩

theorem run_settled (hshuts : api.Shuts closed) {b : B} {ls ls' : List (BackedLabel ι A)} {s t : Backed ι B × Bool}
    (h : AllowedRun api cfg closed (⟨SessionState.init cfg, b⟩, false) ls s)
    (h' : AllowedRun api cfg closed s ls' t) {i : ι} {status : Status}
    (hclose : (.close, status) ∈ (s.1.session.client i).history) : Settled s.1 t.1 status := by
  obtain ⟨⟨more, hsession⟩, hfinal⟩ := run_final hshuts h
  have hended := (hfinal i status (.inl hclose)).1
  obtain ⟨-, -, hbackend, hhistory, hrefused⟩ := run_ended hshuts hsession hended h'
  have hfinal' := (run_final hshuts (h.append h')).2
  constructor
  · intro j status' hclose'
    have hold := (hfinal' i status (.inl (hhistory i _ hclose))).2
    have hnew := (hfinal' j status' (.inl hclose')).2
    exact hold.trans hnew.symm
  · exact hbackend
  · intro j hidle
    apply (hrefused j _).2
    intro c hcur _
    have hplaced := session_placed hsession j
    rw [Client.Placed, hcur, hidle] at hplaced
    exact hplaced.elim

/-- With either backend of the CPU, a close that has returned settles all that follows, unless a synchronous session is
closed again behind a close that has failed, or goes into its backend behind one that has thrown. -/
theorem closes_settle (cfg : Config) (config : Backend.Config) :
    (∀ {ls ls' : List (BackedLabel ι _)} {s t : Backed ι Backend.CpuVp9Encoder × Bool},
      AllowedRun vp9Backend cfg Backend.CpuVp9Encoder.closed (⟨SessionState.init cfg, .created config⟩, false) ls s →
      AllowedRun vp9Backend cfg Backend.CpuVp9Encoder.closed s ls' t →
      ∀ {i status}, (.close, status) ∈ (s.1.session.client i).history → Settled s.1 t.1 status) ∧
    ∀ {ls ls' : List (BackedLabel ι _)} {s t : Backed ι Backend.CpuAv1Encoder × Bool},
      AllowedRun av1Backend cfg Backend.CpuAv1Encoder.closed (⟨SessionState.init cfg, .created config⟩, false) ls s →
      AllowedRun av1Backend cfg Backend.CpuAv1Encoder.closed s ls' t →
      ∀ {i status}, (.close, status) ∈ (s.1.session.client i).history → Settled s.1 t.1 status :=
  ⟨fun h h' _ _ hclose => run_settled vp9Backend_shuts h h' hclose,
    fun h h' _ _ hclose => run_settled av1Backend_shuts h h' hclose⟩

/-! ## Small runs -/

/-- The answers to a call: a frame becomes a packet, a flush ends with `flushError`, and the file gets its name unless there is
`docType`. An exception comes with `threw`. -/
def vp9Answer (flushError docType : Option String) (threw : Option (Option String)) : Vp9Answer :=
  ⟨⟨true, true, ⟨none, [(⟨true, 0, [1], true⟩, ⟨true, true⟩)]⟩⟩, ⟨flushError, []⟩, ⟨⟨flushError, []⟩, ⟨true, docType⟩⟩, threw⟩

def vp9Succeeds : Vp9Answer := vp9Answer none none none

def renameFails : Vp9Answer := vp9Answer none (some "rename failed") none

/-- There is no memory for the message of a codec that cannot be flushed. -/
def flushThrows : Vp9Answer := vp9Answer (some "unspecified internal error") none (some (some "std::bad_alloc"))

/-- A call of a client of a synchronous session, up to its call into the backend. -/
def syncEntry (c : Call) (answer : Vp9Answer) : List (BackedLabel Unit Vp9Answer) :=
  [.session (.client () (.call c)), .session (.client () .run), .client () answer]

/-- The call to its end, when the backend returns. -/
def syncCall (c : Call) (answer : Vp9Answer) : List (BackedLabel Unit Vp9Answer) :=
  syncEntry c answer ++ [.session (.client () .run), .session (.client () .run)]

/-- The call to its end, when the backend throws. -/
def syncThrow (c : Call) (answer : Vp9Answer) : List (BackedLabel Unit Vp9Answer) :=
  syncEntry c answer ++ [.session (.client () .run)]

/-- The session before any call. -/
def smallBacked : Backed Unit Backend.CpuVp9Encoder :=
  ⟨SessionState.init (.small 0 Config.noQueue_lt), .created Backend.videoConfig⟩

/-- A call into the backend only before a failure. -/
def beforeFailure (s : Backed Unit Backend.CpuVp9Encoder × Bool) : BackedLabel Unit Vp9Answer → Bool
  | .client _ _ => !s.2
  | _ => true

theorem allowed_of_beforeFailure (s : Backed Unit Backend.CpuVp9Encoder × Bool) (l : BackedLabel Unit Vp9Answer)
    (h : beforeFailure s l = true) : Allowed Backend.CpuVp9Encoder.closed s l := by
  cases l with
  | client i a =>
      intro hfailed
      simp [beforeFailure, hfailed] at h
  | _ => trivial

/-- A close that succeeds, another close, and a write. -/
theorem closes_settle_small : ∃ s t : Backed Unit Backend.CpuVp9Encoder × Bool,
    (s.1.session.client ()).history = [(.close, .ok)] ∧
      (t.1.session.client ()).history =
        [(.close, .ok), (.close, .ok), (.write (smallFrame 7), ⟨.errorInvalidState, "encoder is closed"⟩)] ∧
      Settled s.1 t.1 .ok := by
  have hexec : ∃ s t, AllowedRun vp9Backend (.small 0 (by decide)) Backend.CpuVp9Encoder.closed (smallBacked, false)
        (syncCall .close vp9Succeeds) s ∧
      AllowedRun vp9Backend (.small 0 (by decide)) Backend.CpuVp9Encoder.closed s
        (syncCall .close vp9Succeeds ++ syncCall (.write (smallFrame 7)) vp9Succeeds) t ∧
      (s.1.session.client ()).history = [(.close, .ok)] ∧
      (t.1.session.client ()).history =
        [(.close, .ok), (.close, .ok), (.write (smallFrame 7), ⟨.errorInvalidState, "encoder is closed"⟩)] :=
    ⟨_, _, Run.watch_of_exec beforeFailure allowed_of_beforeFailure rfl,
      Run.watch_of_exec beforeFailure allowed_of_beforeFailure rfl, rfl, rfl⟩
  obtain ⟨s, t, hfirst, hlater, hs, ht⟩ := hexec
  have hclose : (Call.close, Status.ok) ∈ (s.1.session.client ()).history := by
    rw [hs]
    exact List.mem_singleton.mpr rfl
  exact ⟨s, t, hs, ht, (closes_settle (.small 0 (by decide)) Backend.videoConfig).1 hfirst hlater hclose⟩

/-- Two closes. The first cannot rename the file, the second reports success. -/
theorem close_forgets : ∃ s t : Backed Unit Backend.CpuVp9Encoder,
    Run (vp9Backend.Step (.small 0 (by decide))) smallBacked (syncCall .close renameFails) s ∧
      Run (vp9Backend.Step (.small 0 (by decide))) s (syncCall .close vp9Succeeds) t ∧
      (s.session.client ()).history = [(.close, ⟨.errorIo, "rename failed"⟩)] ∧
      (t.session.client ()).history = [(.close, ⟨.errorIo, "rename failed"⟩), (.close, .ok)] := by
  have hexec : ∃ s t, exec (vp9Backend.step (.small 0 (by decide))) smallBacked (syncCall .close renameFails) = some s ∧
      exec (vp9Backend.step (.small 0 (by decide))) s (syncCall .close vp9Succeeds) = some t ∧
      (s.session.client ()).history = [(.close, ⟨.errorIo, "rename failed"⟩)] ∧
      (t.session.client ()).history = [(.close, ⟨.errorIo, "rename failed"⟩), (.close, .ok)] :=
    ⟨_, _, rfl, rfl, rfl, rfl⟩
  obtain ⟨s, t, hfirst, hsecond, hs, ht⟩ := hexec
  exact ⟨s, t, .of_exec hfirst, .of_exec hsecond, hs, ht⟩

/-- A close that throws, and a write that is taken, and written, behind it. -/
theorem close_leaves_open : ∃ s t : Backed Unit Backend.CpuVp9Encoder,
    Run (vp9Backend.Step (.small 0 (by decide))) smallBacked (syncThrow .close flushThrows) s ∧
      Run (vp9Backend.Step (.small 0 (by decide))) s (syncCall (.write (smallFrame 7)) vp9Succeeds) t ∧
      s.session.client () = ⟨.idle, none, [(.close, ⟨.errorInternal, "std::bad_alloc"⟩)]⟩ ∧
      (t.session.client ()).history =
        [(.close, ⟨.errorInternal, "std::bad_alloc"⟩), (.write (smallFrame 7), .ok)] ∧
      t.backend.muxer.outputs = s.backend.muxer.outputs + 1 := by
  have hexec : ∃ s t, exec (vp9Backend.step (.small 0 (by decide))) smallBacked (syncThrow .close flushThrows) = some s ∧
      exec (vp9Backend.step (.small 0 (by decide))) s (syncCall (.write (smallFrame 7)) vp9Succeeds) = some t ∧
      s.session.client () = ⟨.idle, none, [(.close, ⟨.errorInternal, "std::bad_alloc"⟩)]⟩ ∧
      (t.session.client ()).history =
        [(.close, ⟨.errorInternal, "std::bad_alloc"⟩), (.write (smallFrame 7), .ok)] ∧
      t.backend.muxer.outputs = s.backend.muxer.outputs + 1 :=
    ⟨_, _, rfl, rfl, rfl, rfl, rfl⟩
  obtain ⟨s, t, hfirst, hsecond, hs, ht, hwritten⟩ := hexec
  exact ⟨s, t, .of_exec hfirst, .of_exec hsecond, hs, ht, hwritten⟩

/-- The second close of a synchronous session reports success, though the first could not rename the file; and behind a close that has
thrown a write is taken. -/
theorem close_forgotten :
    (¬ ∀ (cfg : Config) (config : Backend.Config) (ls ls' : List (BackedLabel Unit Vp9Answer))
      (s t : Backed Unit Backend.CpuVp9Encoder) (status status' : Status),
      Run (vp9Backend.Step cfg) ⟨SessionState.init cfg, .created config⟩ ls s → Run (vp9Backend.Step cfg) s ls' t →
      (.close, status) ∈ (s.session.client ()).history → (.close, status') ∈ (t.session.client ()).history →
      (status.result = .ok ↔ status'.result = .ok)) ∧
    ¬ ∀ (cfg : Config) (config : Backend.Config) (ls ls' : List (BackedLabel Unit Vp9Answer))
      (s t : Backed Unit Backend.CpuVp9Encoder) (status : Status),
      Run (vp9Backend.Step cfg) ⟨SessionState.init cfg, .created config⟩ ls s → Run (vp9Backend.Step cfg) s ls' t →
      (.close, status) ∈ (s.session.client ()).history → (s.session.client ()).pc = .idle →
      RefusedReturns (s.session.client ()) (t.session.client ()) := by
  constructor
  · intro h
    obtain ⟨s, t, hfirst, hsecond, hs, ht⟩ := close_forgets
    have hagree := h _ _ _ _ s t ⟨.errorIo, "rename failed"⟩ .ok hfirst hsecond (by rw [hs]; exact List.mem_singleton.mpr rfl)
      (by rw [ht]; exact List.mem_cons_of_mem _ (List.mem_singleton.mpr rfl))
    exact absurd (hagree.mpr rfl) (by decide)
  · intro h
    obtain ⟨s, t, hfirst, hsecond, hs, ht, -⟩ := close_leaves_open
    obtain ⟨returned, hreturned, hrefused⟩ := h _ _ _ _ s t ⟨.errorInternal, "std::bad_alloc"⟩ hfirst hsecond
      (by rw [hs]; exact List.mem_singleton.mpr rfl) (by rw [hs])
    rw [hs, ht] at hreturned
    obtain rfl : returned = [(.write (smallFrame 7), .ok)] := (List.cons.inj hreturned).2.symm
    exact hrefused _ (List.mem_singleton.mpr rfl) rfl rfl

end MkvCodec.Encoder
