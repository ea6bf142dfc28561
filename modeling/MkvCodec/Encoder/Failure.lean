import MkvCodec.Encoder.Lemmas.Order

/-!
# After a failed backend call

The worker marks the session failed in the section after the backend call that failed. A synchronous session
is never marked: after a failed call it refuses a later one only for other reasons.
-/

namespace MkvCodec.Encoder

open Concurrency

variable {cfg : Config}

/-! ## Failures -/

/-- An I/O or codec error, or an exception. -/
def CallEnd.fails : CallEnd → Bool
  | .returned status => decide (status.result = .errorIo) || decide (status.result = .errorCodec)
  | .threw _ => true

/-- A backend write or flush that failed. -/
def BackendCall.fails : BackendCall → Bool
  | .item _ ended | .write _ ended | .flush ended => CallEnd.fails ended
  | .close _ => false

def BackendCall.isClose : BackendCall → Bool
  | .close _ => true
  | _ => false

/-- A backend write or flush has failed. -/
def Impl.broken (a : Impl) : Bool := a.calls.any BackendCall.fails

/-- The calls that give the backend a frame or a flush. -/
def Call.feeds : Call → Bool
  | .write _ | .tryWrite _ | .writeBorrowed _ | .submitBorrowed _ | .flush => true
  | _ => false

/-- The call at whose entry the client stands would get past its checks in a session not marked failed. -/
def ClientPc.Passes (cfg : Config) (a : Impl) : ClientPc → Prop
  | .write frame _ => a.prohibitsCpu = false ∧ a.canceled = false ∧ a.accepting = true ∧
      (a.layout cfg frame).result = .ok
  | .writeBorrowed _ => cfg.capacity = 0 ∧ a.accepting = true
  | .submitBorrowed frame => cfg.capacity ≠ 0 ∧ (a.layout cfg frame).result = .ok
  | .flush => cfg.capacity = 0 ∧ a.canceled = false
  | _ => False

/-- The condition on a step: between a failed backend call and the mark of failure no call passes its entry
checks. -/
def Heeds (cfg : Config) (s : SessionState Unit) : SessionLabel Unit → Prop
  | .client _ .run => s.shared.broken = true → s.shared.failed = false →
      ¬ (s.client ()).pc.Passes cfg s.shared
  | _ => True

theorem Impl.broken_called (a : Impl) (call : BackendCall) :
    (a.called call).broken = (a.broken || call.fails) := by
  simp [Impl.broken, Impl.called]

theorem CallEnd.isError_of_fails {status : Status} (h : CallEnd.fails (.returned status) = true) :
    status.result.isError = true := by
  simp only [CallEnd.fails, Bool.or_eq_true, decide_eq_true_eq] at h
  rcases h with h | h <;> rw [h] <;> rfl

theorem Result.ne_ok_of_isError {r : Result} (h : r.isError = true) : r ≠ .ok := by
  rintro rfl
  cases h

/-! ## The worker -/

/-- The worker has a failure to record, or has recorded it and left its loop. -/
def WorkerPc.Failing (a : Impl) : WorkerPc → Prop
  | .record _ status => status.result.isError = true
  | .unwind (some _) _ _ => True
  | w => a.failed = true ∧ w.closing = true ∧ a.terminalResult.isError = true

theorem WorkerEffect.failing {a : Impl} {w : WorkerPc} {e : Choice} {o : WorkerSection}
    (h : WorkerEffect a w e o) (hw : a.broken = true → w.Failing a) (hb : o.shared.broken = true) :
    o.loc.Failing o.shared := by
  cases h with
  | asleep => exact hw hb
  | stop => cases (hw hb).2.1
  | pop => cases (hw hb).2.1
  | @served item status =>
      rw [Impl.broken_called, Bool.or_eq_true] at hb
      rcases hb with hb | hf
      · cases (hw hb).2.1
      · exact CallEnd.isError_of_fails hf
  | threw => trivial
  | @failure item status hne =>
      have hb : a.broken = true := hb
      exact ⟨rfl, rfl, hw hb⟩
  | @success item status hok =>
      have hb : a.broken = true := by cases item <;> exact hb
      exact absurd hok (Result.ne_ok_of_isError (hw hb))
  | closed =>
      rw [Impl.broken_called, Bool.or_eq_true] at hb
      obtain ⟨hf, -, hr⟩ := hw (hb.resolve_right (by simp [BackendCall.fails]))
      exact ⟨hf, rfl, hr⟩
  | closeThrew =>
      rw [Impl.broken_called, Bool.or_eq_true] at hb
      obtain ⟨hf, -, hr⟩ := hw (hb.resolve_right (by simp [BackendCall.fails]))
      exact ⟨hf, rfl, hr⟩
  | finish h =>
      obtain ⟨hf, -, hr⟩ := hw hb
      exact ⟨hf, rfl, hr⟩
  | finishFailed hf h =>
      have hb : a.broken = true := hb
      rw [(hw hb).1] at hf
      cases hf
  | handler => exact ⟨rfl, rfl, rfl⟩

theorem Effect.failing {a : Impl} {pc : ClientPc} {e : Choice} {o : Section} {w : WorkerPc}
    (h : Effect cfg a pc e o) (he : ∀ ended, e ≠ .backend ended) :
    o.shared.broken = a.broken ∧ (w.Failing a → w.Failing o.shared) := by
  cases h with
  | @backend ended => exact absurd rfl (he ended)
  | _ =>
      refine ⟨rfl, fun hw => ?_⟩
      cases w with
      | unwind item active what => cases item <;> exact hw
      | _ => exact hw

theorem session_failing {ι : Type*} [DecidableEq ι] {ls : List (SessionLabel ι)} {s : SessionState ι}
    (hcap : cfg.capacity ≠ 0) (h : SessionRun cfg ls s) (hb : s.shared.broken = true) :
    s.worker.Failing s.shared := by
  refine session_invariant (I := fun a w => a.broken = true → w.Failing a) h (by rintro ⟨⟩) ?_ ?_ hb
  · intro _ _ _ _ _ hw he
    exact he.failing hw
  · intro ls s i e o hrun hw he hb
    have hne : ∀ ended, e ≠ .backend ended := by
      rintro ended rfl
      exact hcap (he.capacity_of_backend (session_placed hrun i))
    obtain ⟨hsame, hkeep⟩ := he.failing (w := s.worker) hne
    exact hkeep (hw (hsame ▸ hb))

/-! ## Errors -/

theorem validateCpuFrameLayout_isError {frame : FrameView} {width height alignment : Nat} {mode : CpuLayoutMode}
    (h : (validateCpuFrameLayout frame width height mode alignment).result ≠ .ok) :
    (validateCpuFrameLayout frame width height mode alignment).result.isError = true := by
  unfold validateCpuFrameLayout at h ⊢
  split
  · rfl
  rename_i hdim
  rw [if_neg hdim] at h
  cases hr : layoutRows frame.pixelFormat width with
  | none => rfl
  | some rows =>
      obtain ⟨planeCount, rowBytes⟩ := rows
      simp only [hr] at h ⊢
      split_ifs at h ⊢
      all_goals first | rfl | exact absurd rfl h

theorem validateBorrowedFrame_isError {frame : FrameView} (h : (validateBorrowedFrame frame).result ≠ .ok) :
    (validateBorrowedFrame frame).result.isError = true := by
  unfold validateBorrowedFrame at h ⊢
  split
  · rfl
  rename_i hdim
  rw [if_neg hdim] at h
  simp only at h ⊢
  split
  · rfl
  · rfl
  · rename_i hv
    rw [hv] at h
    exact absurd rfl h

theorem stoppedResult_isError (a : Impl) : (stoppedResult a).result.isError = true := by
  unfold stoppedResult
  split <;> rfl

/-- The section answers with an error. -/
def Errs (o : Section) : Prop := ∃ status, o.loc = .returning status ∧ status.result.isError = true

theorem errs_reply {a : Impl} {status : Status} (h : status.result.isError = true) : Errs (reply a status) :=
  ⟨status, rfl, h⟩

/-! ## Calls that begin after the failure -/

/-- What is known of the shared state once a backend call has failed. -/
structure Broken (cfg : Config) (a : Impl) : Prop where
  terminal : a.failed = true → a.terminalResult.isError = true
  completed : a.failed = false → a.completedFlushToken ≤ a.nextFlushToken
  sync : cfg.capacity = 0 → a.failed = false

section

variable {a : Impl}

theorem write_errs {frame : FrameView} {block : Bool} (hb : Broken cfg a)
    (hp : a.failed = false → ¬ (ClientPc.write frame block).Passes cfg a) : Errs (write cfg frame block a) := by
  unfold write
  split
  · exact errs_reply rfl
  rename_i hcopy
  split
  · rename_i hf
    exact errs_reply (hb.terminal hf)
  rename_i hf
  split
  · exact errs_reply rfl
  rename_i hca
  split
  · exact errs_reply (stoppedResult_isError a)
  rename_i hacc
  split
  · rename_i hl
    exact errs_reply (validateCpuFrameLayout_isError hl)
  · rename_i hl
    refine absurd ⟨?_, ?_, ?_, ?_⟩ (hp (by simpa using hf))
    · simpa using hcopy
    · simpa using hca
    · simpa using hacc
    · simpa using hl

theorem writeBorrowed_errs {frame : FrameView} (hb : Broken cfg a)
    (hp : a.failed = false → ¬ (ClientPc.writeBorrowed frame).Passes cfg a) :
    Errs (writeBorrowed cfg frame a) := by
  unfold writeBorrowed
  split
  · exact errs_reply rfl
  rename_i hcap
  split
  · rename_i hf
    exact errs_reply (hb.terminal hf)
  rename_i hf
  split
  · exact errs_reply (stoppedResult_isError a)
  · rename_i hacc
    refine absurd ⟨?_, ?_⟩ (hp (by simpa using hf))
    · simpa using hcap
    · simpa using hacc

theorem submitBorrowed_errs {frame : FrameView}
    (hp : a.failed = false → ¬ (ClientPc.submitBorrowed frame).Passes cfg a) :
    Errs (submitBorrowed cfg frame a) ∨
      (submitBorrowed cfg frame a).loc = .enqueueBorrowed frame ∧ (cfg.capacity ≠ 0 → a.failed = true) := by
  unfold submitBorrowed
  split
  · rename_i hl
    exact .inl (errs_reply (validateCpuFrameLayout_isError hl))
  · rename_i hl
    refine .inr ⟨rfl, fun hcap => ?_⟩
    by_contra hf
    exact hp (by simpa using hf) ⟨hcap, by simpa using hl⟩

theorem enqueueBorrowed_errs {frame : FrameView} (hb : Broken cfg a) (hf : cfg.capacity ≠ 0 → a.failed = true) :
    Errs (enqueueBorrowed cfg frame a) := by
  unfold enqueueBorrowed
  split
  · exact errs_reply rfl
  split
  · rename_i hv
    exact errs_reply (validateBorrowedFrame_isError hv)
  split
  · exact errs_reply rfl
  rename_i hcap
  split
  · exact errs_reply rfl
  · have hfail := hf hcap
    unfold enqueueBorrowedSpace
    simp only [hfail, Bool.or_true, Bool.not_true, Bool.false_eq_true, ↓reduceIte]
    exact errs_reply (hb.terminal hfail)

/-- A flush that waits for a token the worker has not completed never returns OK. -/
theorem flushWait_errs {token : Nat} (hb : Broken cfg a)
    (ht : a.completedFlushToken < token ∨ a.failed = true) :
    Errs (flushWait token a) ∨ flushWait token a = sleepOn a (.flushWait token) .stateChanged ∧
      a.completedFlushToken < token := by
  unfold flushWait
  split
  · rename_i hr
    simp only [Bool.not_eq_true', Bool.or_eq_false_iff, decide_eq_false_iff_not, Nat.not_le] at hr
    exact .inr ⟨rfl, hr.1.1⟩
  rename_i hr
  split
  · rename_i hf
    exact .inl (errs_reply (hb.terminal hf))
  rename_i hf
  split
  · exact .inl (errs_reply rfl)
  · rename_i hca
    simp only [Bool.not_eq_true] at hf hca
    simp only [hf, hca, or_false, Bool.false_eq_true, Bool.or_false, Bool.not_eq_true', Bool.not_eq_false,
      decide_eq_true_eq] at hr ht
    omega

theorem flushSpace_errs (hb : Broken cfg a) :
    Errs (flushSpace cfg a) ∨ flushSpace cfg a = sleepOn a .flushSpace .hasSpace ∨
      (flushSpace cfg a).loc = .flushWait (a.nextFlushToken + 1) ∧
        (flushSpace cfg a).shared = a.pushFlush ∧ a.completedFlushToken < a.nextFlushToken + 1 := by
  unfold flushSpace
  split
  · exact .inr (.inl rfl)
  split
  · rename_i hf
    exact .inl (errs_reply (hb.terminal hf))
  rename_i hf
  split
  · exact .inl (errs_reply (stoppedResult_isError a))
  · have hle := hb.completed (by simpa using hf)
    have hb' : Broken cfg a.pushFlush := ⟨hb.terminal, fun _ => Nat.le_succ_of_le hle, hb.sync⟩
    rcases flushWait_errs hb' (.inl (Nat.lt_succ_of_le hle)) with herr | ⟨hw, hlt⟩
    · exact .inl herr
    · rw [hw]
      exact .inr (.inr ⟨rfl, rfl, hlt⟩)

end

/-- A client whose write or flush, if it is in one, began after the failure: it carries nothing to the queue or
to the backend, and its call ends in an error. -/
def Client.Late (cfg : Config) (a : Impl) (k : Client) : Prop :=
  match k.pc with
  | .writeCpuSync _ | .flushSync | .enqueueOwned _ _ | .enqueueOwnedSpace _ _ | .enqueueOwnedCopy _ _ _
  | .enqueueOwnedReturn _ _ | .enqueueOwnedPush _ _ _ | .enqueueBorrowedSpace _ => False
  | .writeCpuSyncRecord status | .flushSyncRecord status => status.result.isError = true
  | .enqueueBorrowed _ => cfg.capacity ≠ 0 → a.failed = true
  | .flushWait token => a.completedFlushToken < token ∨ a.failed = true
  | .returning status => ∀ c, k.current = some c → c.feeds = true → status.result.isError = true
  | _ => True

/-- The calls that returned since, with their statuses. -/
def LateReturns (k k' : Client) : Prop :=
  ∃ returns, k'.history = k.history ++ returns ∧
    ∀ r ∈ returns, r.1.feeds = true → r.2.result.isError = true

theorem LateReturns.refl (k : Client) : LateReturns k k := ⟨[], by simp, by simp⟩

theorem LateReturns.trans {k k' k'' : Client} (h : LateReturns k k') (h' : LateReturns k' k'') :
    LateReturns k k'' := by
  obtain ⟨rs, hrs, herr⟩ := h
  obtain ⟨rs', hrs', herr'⟩ := h'
  refine ⟨rs ++ rs', by rw [hrs', hrs, List.append_assoc], fun r hr => ?_⟩
  rcases List.mem_append.mp hr with hr | hr
  · exact herr r hr
  · exact herr' r hr

theorem Errs.late {a : Impl} {o : Section} {k : Client} (h : Errs o) :
    Client.Late cfg a { k with pc := o.loc } := by
  obtain ⟨status, hloc, herr⟩ := h
  simp only [Client.Late, hloc]
  exact fun _ _ _ => herr

/-- A call that gives the backend neither a frame nor a flush may end as it likes. -/
theorem late_of_not_feeds {a : Impl} {pc : ClientPc} {c : Call} {history : List (Call × Status)}
    (hc : c.feeds = false) (hpc : (∃ status, pc = .returning status) ∨ pc = .closeSync ∨ pc = .closeJoin) :
    Client.Late cfg a ⟨pc, some c, history⟩ := by
  rcases hpc with ⟨status, rfl⟩ | rfl | rfl
  · rintro _ ⟨⟩ hf
    rw [hc] at hf
    cases hf
  · trivial
  · trivial

theorem Call.entry_late (c : Call) {a : Impl} {k : Client} :
    Client.Late cfg a { k with pc := c.entry, current := some c } := by
  cases c <;> trivial

theorem flushSpace_late {a : Impl} {k : Client} (hb : Broken cfg a) :
    Client.Late cfg (flushSpace cfg a).shared { k with pc := (flushSpace cfg a).loc } := by
  rcases flushSpace_errs hb with herr | hs | ⟨hloc, hsh, hlt⟩
  · exact herr.late
  · rw [hs]; trivial
  · simp only [Client.Late, hloc, hsh]
    exact .inl hlt

/-- A section of a late client. -/
theorem clientSection_late {a : Impl} {k : Client} {o : Section} (h : clientSection cfg a k.pc = some o)
    (hb : Broken cfg a) (hk : k.Placed cfg) (hl : k.Late cfg a)
    (hp : a.failed = false → ¬ k.pc.Passes cfg a) : Client.Late cfg o.shared { k with pc := o.loc } := by
  obtain ⟨pc, current, history⟩ := k
  cases pc with
  | idle | writeCpuSync | flushSync | closeSync | returning => cases h
  | enqueueOwned | enqueueOwnedSpace | enqueueOwnedCopy | enqueueOwnedReturn | enqueueOwnedPush
  | enqueueBorrowedSpace => exact hl.elim
  | write frame block => cases h; exact (write_errs hb hp).late
  | writeBorrowed frame => cases h; exact (writeBorrowed_errs hb hp).late
  | submitBorrowed frame =>
      cases h
      rcases submitBorrowed_errs hp with herr | ⟨hloc, hf⟩
      · exact herr.late
      · simp only [Client.Late, hloc]
        unfold submitBorrowed
        split <;> exact hf
  | enqueueBorrowed frame => cases h; exact (enqueueBorrowed_errs hb hl).late
  | writeCpuSyncRecord status =>
      cases h
      have herr : status.result.isError = true := hl
      unfold writeCpuSyncRecord
      rw [if_neg (Result.ne_ok_of_isError herr)]
      exact (errs_reply herr).late
  | flushSyncRecord status =>
      cases h
      have herr : status.result.isError = true := hl
      exact (errs_reply herr).late
  | flush =>
      cases h
      unfold flush
      split
      · rename_i hcap
        split
        · have herrs : Errs (reply a cancelled) := errs_reply rfl
          exact herrs.late
        rename_i hca
        exact absurd ⟨hcap, by simpa using hca⟩ (hp (hb.sync hcap))
      · exact flushSpace_late hb
  | flushSpace => cases h; exact flushSpace_late hb
  | flushWait token =>
      cases h
      rcases flushWait_errs hb hl with herr | ⟨hs, hlt⟩
      · exact herr.late
      · rw [hs]; exact .inl hlt
  | cancel =>
      cases h
      cases current with
      | none => cases hk
      | some c =>
          obtain rfl : c = .cancel := hk
          refine late_of_not_feeds rfl ?_
          unfold cancel
          split_ifs <;> exact .inl ⟨_, rfl⟩
  | close =>
      cases h
      cases current with
      | none => cases hk
      | some c =>
          obtain rfl : c = .close := hk
          refine late_of_not_feeds rfl ?_
          unfold close
          split_ifs
          · exact .inr (.inl rfl)
          · exact .inr (.inr rfl)
          · exact .inr (.inr rfl)
  | closeSyncRecord status =>
      cases h
      cases current with
      | none => cases hk
      | some c => obtain rfl : c = .close := hk.2; exact late_of_not_feeds rfl (.inl ⟨_, rfl⟩)
  | closeJoin =>
      simp only [clientSection] at h
      split at h <;> cases h
      cases current with
      | none => cases hk
      | some c =>
          obtain rfl : c = .close := hk.2
          refine late_of_not_feeds rfl ?_
          unfold closeJoin
          split <;> exact .inl ⟨_, rfl⟩
  | setCopyPolicy policy =>
      cases h
      cases current with
      | none => cases hk
      | some c =>
          obtain rfl : c = .setCopyPolicy policy := hk
          refine late_of_not_feeds rfl ?_
          unfold setCopyPolicy
          split_ifs <;> exact .inl ⟨_, rfl⟩
  | setCpuLayoutPolicy policy =>
      cases h
      cases current with
      | none => cases hk
      | some c =>
          obtain rfl : c = .setCpuLayoutPolicy policy := hk
          refine late_of_not_feeds rfl ?_
          unfold setCpuLayoutPolicy
          split_ifs <;> exact .inl ⟨_, rfl⟩

/-! ## One step after the failure -/

/-- The backend has been called since only to close. -/
def OnlyCloses (a b : Impl) : Prop := ∃ closes, b.calls = a.calls ++ closes ∧ ∀ c ∈ closes, c.isClose = true

theorem OnlyCloses.of_eq {a b : Impl} (h : b.calls = a.calls) : OnlyCloses a b := ⟨[], by simp [h], by simp⟩

theorem OnlyCloses.trans {a b c : Impl} (h : OnlyCloses a b) (h' : OnlyCloses b c) : OnlyCloses a c := by
  obtain ⟨cs, hcs, hclose⟩ := h
  obtain ⟨cs', hcs', hclose'⟩ := h'
  refine ⟨cs ++ cs', by rw [hcs', hcs, List.append_assoc], fun c hc => ?_⟩
  rcases List.mem_append.mp hc with hc | hc
  · exact hclose c hc
  · exact hclose' c hc

theorem OnlyCloses.broken {a b : Impl} (h : OnlyCloses a b) (hb : a.broken = true) : b.broken = true := by
  obtain ⟨cs, hcs, -⟩ := h
  simp only [Impl.broken, hcs, List.any_append, Bool.or_eq_true] at hb ⊢
  exact .inl hb

theorem Effect.calls_eq {a : Impl} {pc : ClientPc} {e : Choice} {o : Section} (h : Effect cfg a pc e o)
    (he : ∀ ended, e ≠ .backend ended) : o.shared.calls = a.calls := by
  cases h with
  | @backend ended => exact absurd rfl (he ended)
  | _ => rfl

theorem Action.late {a : Impl} {k : Client} {e : Choice} {o : Outcome Impl Client Cond} (h : Action cfg a k e o)
    (hb : Broken cfg a) (hk : k.Placed cfg) (hl : k.Late cfg a)
    (hp : e = .run → a.failed = false → ¬ k.pc.Passes cfg a) :
    o.loc.Late cfg o.shared ∧ LateReturns k o.loc ∧ OnlyCloses a o.shared := by
  cases h with
  | @start c hpc => exact ⟨c.entry_late, ⟨[], by simp, by simp⟩, .of_eq rfl⟩
  | @finish status c hpc hcur =>
      rw [Client.Late, hpc] at hl
      refine ⟨trivial, ⟨[(c, status)], rfl, fun r hr hf => ?_⟩, .of_eq rfl⟩
      obtain rfl := List.mem_singleton.mp hr
      exact hl c hcur hf
  | act hs =>
      refine ⟨clientSection_late hs hb hk hl (hp rfl), ⟨[], by simp, by simp⟩, .of_eq ?_⟩
      exact (clientSection_effect hs).calls_eq (by simp)
  | threw hpc hcur =>
      rw [Client.Late, hpc] at hl
      exact hl.elim
  | @backend ended c s hcur hs =>
      obtain ⟨pc, current, history⟩ := k
      cases pc with
      | writeCpuSync | flushSync => exact hl.elim
      | closeSync =>
          cases ended with
          | returned status =>
              cases hs
              exact ⟨trivial, ⟨[], by simp, by simp⟩, ⟨[.close (.returned status)], rfl, by simp [BackendCall.isClose]⟩⟩
          | threw what =>
              cases hs
              exact ⟨fun _ _ _ => rfl, ⟨[], by simp, by simp⟩, ⟨[.close (.threw what)], rfl, by simp [BackendCall.isClose]⟩⟩
      | _ => cases hs

theorem WorkerEffect.late {a : Impl} {w : WorkerPc} {e : Choice} {o : WorkerSection} (h : WorkerEffect a w e o)
    (hw : w.Failing a) :
    (∀ k : Client, k.Late cfg a → k.Late cfg o.shared) ∧ OnlyCloses a o.shared := by
  have hkeep : ∀ {b : Impl}, b.completedFlushToken = a.completedFlushToken →
      (a.failed = true → b.failed = true) → ∀ k : Client, k.Late cfg a → k.Late cfg b := by
    rintro b hc hf ⟨pc, current, history⟩ hl
    cases pc with
    | flushWait token => exact hl.imp (fun hlt => by rw [hc]; exact hlt) hf
    | enqueueBorrowed frame => exact fun hcap => hf (hl hcap)
    | _ => exact hl
  cases h with
  | asleep => cases hw.2.1
  | stop => cases hw.2.1
  | pop => cases hw.2.1
  | served => cases hw.2.1
  | threw => cases hw.2.1
  | success hok => exact absurd hok (Result.ne_ok_of_isError hw)
  | failure hne => exact ⟨hkeep rfl fun _ => rfl, .of_eq rfl⟩
  | closed => exact ⟨hkeep rfl id, ⟨_, rfl, by simp [BackendCall.isClose]⟩⟩
  | closeThrew => exact ⟨hkeep rfl id, ⟨_, rfl, by simp [BackendCall.isClose]⟩⟩
  | finish => exact ⟨hkeep rfl id, .of_eq rfl⟩
  | finishFailed => exact ⟨hkeep rfl fun _ => rfl, .of_eq rfl⟩
  | handler => exact ⟨hkeep rfl fun _ => rfl, .of_eq rfl⟩

/-! ## Whole runs -/

theorem session_broken {ι : Type*} [DecidableEq ι] {ls : List (SessionLabel ι)} {s : SessionState ι}
    (h : SessionRun cfg ls s) (hb : s.shared.broken = true) : Broken cfg s.shared := by
  have hst := session_stops h
  have hsync : cfg.capacity = 0 → s.shared.failed = false := by
    intro hcap
    by_contra hf
    have hclosing := hst.failedClosing (by simpa using hf)
    rw [(session_notStarted h).mpr hcap] at hclosing
    cases hclosing
  refine ⟨fun hf => ?_, (session_order h).completed_le, hsync⟩
  have hcap : cfg.capacity ≠ 0 := by
    intro h0
    rw [hsync h0] at hf
    cases hf
  have hfailing := session_failing hcap h hb
  have hclosing := hst.failedClosing hf
  generalize s.worker = w at hfailing hclosing
  cases w with
  | close | recordClose | exited => exact hfailing.2.2
  | unwind item active what =>
      cases item with
      | none => exact hfailing.2.2
      | some item => cases hclosing
  | _ => cases hclosing

theorem Step.onlyCloses {ls : List (SessionLabel Unit)} {s t : SessionState Unit} {l : SessionLabel Unit}
    (hcap : cfg.capacity ≠ 0) (h : SessionRun cfg ls s) (hst : Step cfg s l t) (hb : s.shared.broken = true) :
    OnlyCloses s.shared t.shared := by
  cases l with
  | worker e =>
      obtain ⟨_, o, ho, rfl⟩ := hst.worker_inv
      obtain ⟨-, hcloses⟩ : (∀ k : Client, k.Late cfg s.shared → k.Late cfg o.shared) ∧ OnlyCloses s.shared o.shared :=
        (workerAct_effect ho).late (session_failing hcap h hb)
      exact hcloses
  | client i e =>
      obtain ⟨_, o, ho, rfl⟩ := hst.client_inv
      have he := clientAct_effect ho
      refine .of_eq (he.calls_eq ?_)
      rintro ended rfl
      exact hcap (he.capacity_of_backend (session_placed h i))
  | wakeWorker => rw [hst.wakeWorker_inv]; exact .of_eq rfl
  | wake i => rw [hst.wake_inv]; exact .of_eq rfl

/-- A late client stays late, its calls return errors, and the backend is only closed. -/
theorem Step.late {ls : List (SessionLabel Unit)} {s t : SessionState Unit} {l : SessionLabel Unit}
    (h : SessionRun cfg ls s) (hst : Restrict (Step cfg) (Heeds cfg) s l t) (hb : s.shared.broken = true)
    (hl : (s.client ()).Late cfg s.shared) :
    (t.client ()).Late cfg t.shared ∧ LateReturns (s.client ()) (t.client ()) ∧
      OnlyCloses s.shared t.shared := by
  obtain ⟨hst, hheed⟩ := hst
  cases l with
  | worker e =>
      obtain ⟨_, o, ho, rfl⟩ := hst.worker_inv
      have hcap : cfg.capacity ≠ 0 := by
        intro h0
        have ho : workerAct e s.shared s.worker = some o := ho
        rw [(session_notStarted h).mpr h0] at ho
        cases ho
      obtain ⟨hlate, hcloses⟩ : (∀ k : Client, k.Late cfg s.shared → k.Late cfg o.shared) ∧ OnlyCloses s.shared o.shared :=
        (workerAct_effect ho).late (session_failing hcap h hb)
      exact ⟨hlate _ hl, .refl _, hcloses⟩
  | client i e =>
      obtain ⟨_, o, ho, rfl⟩ := hst.client_inv
      have hpass : e = .run → s.shared.failed = false → ¬ (s.client ()).pc.Passes cfg s.shared := by
        rintro rfl
        exact hheed hb
      exact (clientAct_action ho).late (session_broken h hb) (session_placed h ()) hl hpass
  | wakeWorker => rw [hst.wakeWorker_inv]; exact ⟨hl, .refl _, .of_eq rfl⟩
  | wake i => rw [hst.wake_inv]; exact ⟨hl, .refl _, .of_eq rfl⟩

theorem run_late {ls ls' : List (SessionLabel Unit)} {s t : SessionState Unit} (h : SessionRun cfg ls s)
    (h' : Run (Restrict (Step cfg) (Heeds cfg)) s ls' t) (hb : s.shared.broken = true)
    (hl : (s.client ()).Late cfg s.shared) :
    (t.client ()).Late cfg t.shared ∧ LateReturns (s.client ()) (t.client ()) ∧
      OnlyCloses s.shared t.shared := by
  induction h' with
  | nil => exact ⟨hl, .refl _, .of_eq rfl⟩
  | @snoc ls' u l t hrun hst ih =>
      obtain ⟨hl', hr, hc⟩ := ih
      obtain ⟨hl'', hr', hc'⟩ := Step.late (h.append hrun.of_restrict) hst (hc.broken hb) hl'
      exact ⟨hl'', hr.trans hr', hc.trans hc'⟩

theorem run_onlyCloses {ls ls' : List (SessionLabel Unit)} {s t : SessionState Unit} (hcap : cfg.capacity ≠ 0)
    (h : SessionRun cfg ls s) (h' : Run (Step cfg) s ls' t) (hb : s.shared.broken = true) :
    OnlyCloses s.shared t.shared := by
  induction h' with
  | nil => exact .of_eq rfl
  | @snoc ls' u l t hrun hst ih => exact ih.trans (Step.onlyCloses hcap (h.append hrun) hst (ih.broken hb))

/-- In a synchronous session the call that fails is itself late. -/
theorem Action.late_of_fails {a : Impl} {k : Client} {e : Choice} {o : Outcome Impl Client Cond}
    (h : Action cfg a k e o) (ha : a.broken = false) (hb : o.shared.broken = true) :
    o.loc.Late cfg o.shared := by
  have hne : ∀ {b : Impl}, b.calls = a.calls → b.broken = true → False := by
    intro b hc hbroken
    simp only [Impl.broken, hc] at hbroken ha
    rw [ha] at hbroken
    cases hbroken
  cases h with
  | start => exact (hne rfl hb).elim
  | finish => exact (hne rfl hb).elim
  | threw => exact (hne rfl hb).elim
  | act hs => exact (hne ((clientSection_effect hs).calls_eq (by simp)) hb).elim
  | @backend ended c s hcur hs =>
      obtain ⟨pc, current, history⟩ := k
      have hcall : ∀ {call : BackendCall}, (a.called call).broken = true → call.fails = true := by
        intro call hbroken
        rw [Impl.broken_called, ha, Bool.false_or] at hbroken
        exact hbroken
      cases pc with
      | writeCpuSync frame =>
          cases ended with
          | returned status => cases hs; exact CallEnd.isError_of_fails (hcall hb)
          | threw what => cases hs; exact fun _ _ _ => rfl
      | flushSync =>
          cases ended with
          | returned status => cases hs; exact CallEnd.isError_of_fails (hcall hb)
          | threw what => cases hs; exact fun _ _ _ => rfl
      | closeSync =>
          cases ended with
          | returned status => cases hs; trivial
          | threw what => cases hs; exact fun _ _ _ => rfl
      | _ => cases hs

theorem sync_late {ls : List (SessionLabel Unit)} {s : SessionState Unit} (hcap : cfg.capacity = 0)
    (h : Run (Restrict (Step cfg) (Heeds cfg)) (SessionState.init cfg) ls s) (hb : s.shared.broken = true) :
    (s.client ()).Late cfg s.shared := by
  induction h with
  | nil => cases hb
  | @snoc ls s l t hrun hst ih =>
      cases hs : s.shared.broken with
      | true => exact (Step.late hrun.of_restrict hst hs (ih hs)).1
      | false =>
          obtain ⟨hst, -⟩ := hst
          cases l with
          | worker e =>
              obtain ⟨_, o, ho, rfl⟩ := hst.worker_inv
              have ho : workerAct e s.shared s.worker = some o := ho
              rw [(session_notStarted hrun.of_restrict).mpr hcap] at ho
              cases ho
          | client i e =>
              obtain ⟨_, o, ho, rfl⟩ := hst.client_inv
              exact (clientAct_action ho).late_of_fails hs hb
          | wakeWorker => rw [hst.wakeWorker_inv, hs] at hb; cases hb
          | wake i => rw [hst.wake_inv, hs] at hb; cases hb

/-! ## Failure is absorbing -/

/-- After a backend write or flush has failed, in a run in which no call gets past its entry checks before the
session is marked failed: the backend is called only to close it, and every write or flush that begins when
the failed call has ended returns an error. -/
theorem failure_absorbs {ls ls' : List (SessionLabel Unit)} {s t : SessionState Unit}
    (h : Run (Restrict (Step cfg) (Heeds cfg)) (SessionState.init cfg) ls s) (hb : s.shared.broken = true)
    (h' : Run (Restrict (Step cfg) (Heeds cfg)) s ls' t) :
    OnlyCloses s.shared t.shared ∧
      ((s.client ()).pc = .idle → LateReturns (s.client ()) (t.client ())) := by
  constructor
  · by_cases hcap : cfg.capacity = 0
    · exact (run_late h.of_restrict h' hb (sync_late hcap h hb)).2.2
    · exact run_onlyCloses hcap h.of_restrict h'.of_restrict hb
  · intro hidle
    have hl : (s.client ()).Late cfg s.shared := by rw [Client.Late, hidle]; trivial
    exact (run_late h.of_restrict h' hb hl).2.1

/-- The clients act only before a failure or after its mark. -/
def marked (s : SessionState Unit) : SessionLabel Unit → Bool
  | .client _ .run => !s.shared.broken || s.shared.failed
  | _ => true

theorem heeds_of_marked (s : SessionState Unit) (l : SessionLabel Unit) (h : marked s l = true) :
    Heeds cfg s l := by
  cases l with
  | client i e =>
      cases e with
      | run =>
          intro hb hf
          simp [marked, hb, hf] at h
      | _ => trivial
  | _ => trivial

/-- A write of an asynchronous session, up to its failure in the backend. -/
def failedWrite : List (SessionLabel Unit) :=
  [.client () (.call (.write (smallFrame 0))), .client () .run, .client () .run, .client () .run,
    .client () .run, .client () .run, .client () .run, .worker .run,
    .worker (.backend (.returned ⟨.errorIo, "disk full"⟩))]

/-- The record of the failure, and another write. -/
def laterWrite : List (SessionLabel Unit) :=
  [.worker .run, .client () (.call (.write (smallFrame 1))), .client () .run, .client () .run]

theorem failure_absorbs_small :
    ∃ s t : SessionState Unit, s.shared.broken = true ∧ (t.client ()).history.length = 2 ∧
      LateReturns (s.client ()) (t.client ()) := by
  have h : Run (Restrict (Step (.small 1 (by decide))) (Heeds (.small 1 (by decide))))
      (SessionState.init (.small 1 (by decide))) failedWrite _ :=
    Program.restrict_of_exec rfl rfl heeds_of_marked
  have hlate := failure_absorbs h rfl
    (show Run _ _ laterWrite _ from Program.restrict_of_exec rfl rfl heeds_of_marked)
  exact ⟨_, _, rfl, rfl, hlate.2 rfl⟩

/-- Two writes of a synchronous session, of which the first fails in the backend. -/
def resumedRun : List (SessionLabel Unit) :=
  [.client () (.call (.write (smallFrame 0))), .client () .run,
    .client () (.backend (.returned ⟨.errorIo, "disk full"⟩)), .client () .run, .client () .run,
    .client () (.call (.write (smallFrame 1))), .client () .run, .client () (.backend (.returned .ok)),
    .client () .run, .client () .run]

/-- The backend takes a frame after a failed one, and the call returns OK. -/
theorem synchronous_write_resumes :
    ∃ s : SessionState Unit, SessionRun (.small 0 (by decide)) resumedRun s ∧
      s.shared.calls = [.write (smallFrame 0) (.returned ⟨.errorIo, "disk full"⟩),
        .write (smallFrame 1) (.returned .ok)] ∧
      (s.client ()).history = [(.write (smallFrame 0), ⟨.errorIo, "disk full"⟩),
        (.write (smallFrame 1), .ok)] := ⟨_, Program.run_of_exec rfl, rfl, rfl⟩

end MkvCodec.Encoder
