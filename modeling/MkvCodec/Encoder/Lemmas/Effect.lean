import MkvCodec.Encoder.Worker

/-!
# What a section can do

Every section of a client and of the worker, classified by its effect on the shared state. The invariants of
the session are derived from these two classifications and do not look at the sections again.
-/

namespace MkvCodec.Encoder

open Concurrency

variable {cfg : Config}

/-! ## Completion of submissions -/

theorem CpuSubmission.complete_of_terminal {s : CpuSubmission} {status : Status} (h : s.terminal = true) :
    s.complete status = s := by simp [CpuSubmission.complete, h]

@[simp] theorem CpuSubmission.complete_terminal (s : CpuSubmission) (status : Status) :
    (s.complete status).terminal = true := by
  unfold CpuSubmission.complete
  split <;> simp_all

theorem complete_apply (subs : Nat → CpuSubmission) (o : Option Nat) (status : Status) (k : Nat) :
    complete subs o status k = if o = some k then (subs k).complete status else subs k := by
  cases o with
  | none => simp [complete]
  | some j =>
      by_cases hj : j = k
      · subst hj; simp [complete]
      · simp [complete, hj, Function.update_of_ne (Ne.symm hj)]

@[simp] theorem CpuSubmission.complete_complete (s : CpuSubmission) (status status' : Status) :
    (s.complete status).complete status' = s.complete status :=
  complete_of_terminal (s.complete_terminal status)

/-- The borrowed submissions among items. -/
def itemSubmissions (items : List Item) : List Nat := items.filterMap Item.submission?

@[simp] theorem itemSubmissions_nil : itemSubmissions [] = [] := rfl

@[simp] theorem itemSubmissions_append (items items' : List Item) :
    itemSubmissions (items ++ items') = itemSubmissions items ++ itemSubmissions items' := by
  simp [itemSubmissions]

@[simp] theorem itemSubmissions_borrowed (frame : FrameView) (k : Nat) :
    itemSubmissions [.borrowed frame k] = [k] := rfl

theorem itemSubmissions_cons (item : Item) (items : List Item) :
    itemSubmissions (item :: items) = item.submission?.toList ++ itemSubmissions items := by
  simp only [itemSubmissions, List.filterMap_cons]
  cases item.submission? <;> rfl

theorem completeAll_apply (subs : Nat → CpuSubmission) (items : List Item) (status : Status) (k : Nat) :
    completeAll subs items status k =
      if k ∈ itemSubmissions items then (subs k).complete status else subs k := by
  induction items generalizing subs with
  | nil => rfl
  | cons item items ih =>
      have hcons : completeAll subs (item :: items) status =
          completeAll (complete subs item.submission? status) items status := rfl
      rw [hcons, ih, complete_apply, itemSubmissions_cons]
      by_cases hm : k ∈ itemSubmissions items
      · by_cases hk : item.submission? = some k <;> simp [hm, hk]
      · by_cases hk : item.submission? = some k <;> simp [hm, hk]

/-- A terminal submission is never completed again. -/
theorem complete_stable {subs : Nat → CpuSubmission} {k : Nat} (h : (subs k).terminal = true)
    (o : Option Nat) (status : Status) : complete subs o status k = subs k := by
  rw [complete_apply]; split
  · exact CpuSubmission.complete_of_terminal h
  · rfl

theorem completeAll_stable {subs : Nat → CpuSubmission} {k : Nat} (h : (subs k).terminal = true)
    (items : List Item) (status : Status) : completeAll subs items status k = subs k := by
  rw [completeAll_apply]; split
  · exact CpuSubmission.complete_of_terminal h
  · rfl

/-! ## Actions of a client -/

/-- The action of a client: it starts a call, returns from one, runs a section, dies of an exception in a
copy, or comes back from the backend. -/
inductive Action (cfg : Config) (a : Impl) (k : Client) : Choice → Outcome Impl Client Cond → Prop
  | start {c} (hpc : k.pc = .idle) :
      Action cfg a k (.call c) ⟨a, { k with pc := c.entry, current := some c }, [], none⟩
  | finish {status c} (hpc : k.pc = .returning status) (hcur : k.current = some c) :
      Action cfg a k .run
        ⟨a, { pc := .idle, current := none, history := k.history ++ [(c, status)] }, [], none⟩
  | act {s : Section} (hs : clientSection cfg a k.pc = some s) :
      Action cfg a k .run ⟨s.shared, { k with pc := s.loc }, s.notify, s.sleep⟩
  | threw {what c frame block owned} (hpc : k.pc = .enqueueOwnedCopy frame block owned)
      (hcur : k.current = some c) :
      Action cfg a k (.copyThrows what)
        ⟨a, { k with pc := .returning (guard c.unknownMessage what) }, [], none⟩
  | backend {ended c} {s : Section} (hcur : k.current = some c)
      (hs : clientBackend c.unknownMessage ended a k.pc = some s) :
      Action cfg a k (.backend ended) ⟨s.shared, { k with pc := s.loc }, s.notify, s.sleep⟩

theorem clientAct_action {e : Choice} {a : Impl} {k : Client} {o : Outcome Impl Client Cond}
    (h : clientAct cfg e a k = some o) : Action cfg a k e o := by
  unfold clientAct at h
  simp only at h
  split at h
  · rename_i c hpc; cases h; exact .start hpc
  · rename_i status c hpc hcur; cases h; exact .finish hpc hcur
  · obtain ⟨s, hs, rfl⟩ := Option.map_eq_some_iff.mp h; exact .act hs
  · rename_i c hpc hcur; cases h; exact .threw hpc hcur
  · rename_i c hcur; obtain ⟨s, hs, rfl⟩ := Option.map_eq_some_iff.mp h; exact .backend hcur hs
  · cases h

/-! ## Wait conditions -/

/-- The wait condition of a client on a condition variable. It is true of a client that does not wait
there. -/
def ready (cfg : Config) (c : Cond) (a : Impl) (pc : ClientPc) : Bool :=
  match c, pc with
  | .hasSpace, .enqueueOwnedSpace _ _ => (a.hasRoom cfg && !a.freeFrames.isEmpty) || !a.accepting || a.failed
  | .hasSpace, .enqueueOwnedPush _ _ _ | .hasSpace, .enqueueBorrowedSpace _ | .hasSpace, .flushSpace =>
      a.hasRoom cfg || !a.accepting || a.failed
  | .stateChanged, .flushWait token => decide (token ≤ a.completedFlushToken) || a.failed || a.canceled
  | _, _ => true

/-- The wait condition of the worker. -/
def workerReady (c : Cond) (a : Impl) (w : WorkerPc) : Bool :=
  match c, w with
  | .hasItems, .loop => a.closeRequested || !a.queue.isEmpty
  | _, _ => true

/-! ## Sections of a client -/

theorem stoppedResult_ne_ok (a : Impl) : (stoppedResult a).result ≠ .ok := by
  unfold stoppedResult
  split
  · simp
  · simp

/-- What a setter that is not refused writes: `require_gpu_resident`, `allow_cpu_copy`, and the layout mode
with its alignment. -/
inductive Sets (cfg : Config) (a : Impl) : ClientPc → Bool → Bool → CpuLayoutMode → Nat → Prop
  | copy {policy : CopyPolicy}
      (hcap : policy.requireGpuResident = true ∨ policy.allowCpuCopy = false → cfg.capacity = 0)
      (hgpu : policy.requireGpuResident = true →
        cfg.supportsGpuFrames = true ∧ policy.allowCpuCopy = false) :
      Sets cfg a (.setCopyPolicy policy) policy.requireGpuResident policy.allowCpuCopy a.cpuLayoutMode
        a.cpuRequiredAlignment
  | layout {policy : CpuLayoutPolicy} :
      Sets cfg a (.setCpuLayoutPolicy policy) a.requireGpuResident a.allowCpuCopy policy.mode
        policy.requiredAlignment

/-- The effects of a section that a client at `pc` runs on the shared state `a`. -/
inductive Effect (cfg : Config) (a : Impl) (pc : ClientPc) : Choice → Section → Prop
  | quiet {e pc' sleep} (he : e = .run ∨ ∃ c, e = .call c) (hslots : pc'.slots = pc.slots)
      (hwait : ∀ token, pc' = .flushWait token → pc = .flushWait token)
      (hsleep : ∀ c, sleep = some c → ready cfg c a pc' = false) : Effect cfg a pc e ⟨a, pc', [], sleep⟩
  | lose {what status} (hslots : pc.slots = 1) :
      Effect cfg a pc (.copyThrows what) ⟨a, .returning status, [], none⟩
  | take {owned rest pc'} (hfree : a.freeFrames = owned :: rest) (hroom : a.hasRoom cfg = true)
      (hslots : pc.slots = 0) (hslots' : pc'.slots = 1) :
      Effect cfg a pc .run ⟨{ a with freeFrames := rest }, pc', [], none⟩
  | giveBack {owned status ns} (hslots : pc.slots = 1)
      (hns : Cond.hasSpace ∈ ns ∨ a.failed = true ∨ a.accepting = false) :
      Effect cfg a pc .run ⟨a.returnFrame owned, .returning status, ns, none⟩
  | pushOwned {owned frame} (hpc : ∃ block, pc = .enqueueOwnedPush frame block owned)
      (hf : a.failed = false) (hacc : a.accepting = true) (hroom : a.hasRoom cfg = true) :
      Effect cfg a pc .run ⟨a.pushFrame (.owned owned frame), .returning .ok, [.hasItems], none⟩
  | pushBorrowed {frame} (hpc : pc = .enqueueBorrowed frame ∨ pc = .enqueueBorrowedSpace frame) (hf : a.failed = false) (hacc : a.accepting = true)
      (hroom : a.hasRoom cfg = true) :
      Effect cfg a pc .run
        ⟨{ a.pushFrame (.borrowed frame a.submissionCount) with
            submissions := Function.update a.submissions a.submissionCount .new
            submissionCount := a.submissionCount + 1 }, .returning .ok, [.hasItems], none⟩
  | pushFlush {pc' sleep} (hslots : pc.slots = 0) (hslots' : pc'.slots = 0) (hf : a.failed = false)
      (hacc : a.accepting = true) (hroom : a.hasRoom cfg = true)
      (hwait : ∀ token, pc' = .flushWait token → token = a.nextFlushToken + 1)
      (hsleep : ∀ c, sleep = some c → c = .stateChanged ∧ pc' = .flushWait (a.nextFlushToken + 1) ∧
        a.completedFlushToken < a.nextFlushToken + 1 ∧ a.canceled = false) :
      Effect cfg a pc .run
        ⟨a.pushFlush, pc', [.hasItems], sleep⟩
  | cancel (hpc : pc = .cancel) (hcl : a.closed = false) (hca : a.canceled = false) (hf : a.failed = false) :
      Effect cfg a pc .run
        ⟨{ a with
            submissions :=
              completeAll a.submissions a.queue ⟨.errorCancelled, "encoder submission was cancelled"⟩
            canceled := true
            accepting := false
            closeRequested := a.closeRequested || decide (cfg.capacity ≠ 0)
            freeFrames := a.freeFrames ++ ownedFrames a.queue
            queue := [] }, .returning .ok, [.hasItems, .hasSpace, .stateChanged], none⟩
  | closeRequest (hpc : pc = .close) (hreq : a.closeRequested = false) :
      Effect cfg a pc .run
        ⟨{ a with accepting := false, closeRequested := true }, .closeJoin, [.hasItems, .hasSpace], none⟩
  | recordSync {status} (hpc : pc = .writeCpuSyncRecord status) :
      Effect cfg a pc .run
        ⟨{ a with acceptedFrames := a.acceptedFrames + 1, completedFrames := a.completedFrames + 1 },
          .returning .ok, [], none⟩
  | setPolicy {r g c m n} (hacc : a.acceptedFrames = 0) (hcomp : a.completedFrames = 0)
      (hsets : Sets cfg a pc r c m n) :
      Effect cfg a pc .run
        ⟨{ a with requireGpuResident := r, allowGpuCopy := g, allowCpuCopy := c, cpuLayoutMode := m,
                  cpuRequiredAlignment := n }, .returning .ok, [], none⟩
  | backend {ended call pc'} (hslots : pc.slots = 0) (hslots' : pc'.slots = 0)
      (hpc : pc = .flushSync ∨ pc = .closeSync ∨ ∃ f, pc = .writeCpuSync f)
      (hwait : ∀ token, pc' ≠ .flushWait token) (hcall : ∀ item e, call ≠ .item item e) :
      Effect cfg a pc (.backend ended) ⟨a.called call, pc', [], none⟩

namespace Effect

variable {a : Impl} {pc : ClientPc}

theorem goto {pc' : ClientPc} (h : pc'.slots = pc.slots) (hw : ∀ token, pc' ≠ .flushWait token) :
    Effect cfg a pc .run (goto a pc') :=
  .quiet (.inl rfl) h (fun token ht => absurd ht (hw token)) (by simp)

theorem reply {status : Status} (h : pc.slots = 0) : Effect cfg a pc .run (reply a status) :=
  .quiet (.inl rfl) h.symm (by simp) (by simp)

theorem sleepOn {c : Cond} {pc' : ClientPc} (h : pc'.slots = pc.slots)
    (hw : ∀ token, pc' = .flushWait token → pc = .flushWait token) (hc : ready cfg c a pc' = false) :
    Effect cfg a pc .run (sleepOn a pc' c) :=
  .quiet (.inl rfl) h hw (by rintro _ ⟨⟩; exact hc)

end Effect

theorem enqueueOwnedSpace_effect {a : Impl} {frame : FrameView} {block : Bool} :
    Effect cfg a (.enqueueOwnedSpace frame block) .run (enqueueOwnedSpace cfg frame block a) := by
  unfold enqueueOwnedSpace
  split
  · exact .reply rfl
  split
  · rename_i h
    refine .sleepOn rfl (by simp) ?_
    simp only [Bool.and_eq_true, Bool.not_eq_true'] at h
    exact h.2
  split
  · exact .reply rfl
  split
  · exact .reply rfl
  split
  · exact .reply rfl
  · rename_i hroom
    split
    · exact .reply rfl
    · rename_i hfree
      exact .take hfree (by simpa using hroom) rfl rfl

theorem enqueueOwnedPush_effect {a : Impl} {frame : FrameView} {block : Bool} {owned : OwnedFrame} :
    Effect cfg a (.enqueueOwnedPush frame block owned) .run (enqueueOwnedPush cfg frame block owned a) := by
  unfold enqueueOwnedPush
  split
  · rename_i h
    refine .sleepOn rfl (by simp) ?_
    simp only [Bool.and_eq_true, Bool.not_eq_true'] at h
    exact h.2
  split
  · rename_i hf; exact .giveBack rfl (.inr (.inl hf))
  split
  · rename_i hacc; exact .giveBack rfl (.inr (.inr (by simpa using hacc)))
  split
  · exact .giveBack rfl (.inl (by simp))
  · rename_i hf hacc hroom
    exact .pushOwned ⟨block, rfl⟩ (by simpa using hf) (by simpa using hacc) (by simpa using hroom)

theorem enqueueBorrowedSpace_effect {a : Impl} {pc : ClientPc} {frame : FrameView}
    (hpc : pc = .enqueueBorrowed frame ∨ pc = .enqueueBorrowedSpace frame) :
    Effect cfg a pc .run (enqueueBorrowedSpace cfg frame a) := by
  have hslots : pc.slots = 0 := by rcases hpc with rfl | rfl <;> rfl
  unfold enqueueBorrowedSpace
  split
  · rename_i h; exact .sleepOn hslots.symm (by simp) (by simpa [ready] using h)
  split
  · exact .reply hslots
  split
  · exact .reply hslots
  · rename_i h hf hacc
    refine .pushBorrowed hpc (by simpa using hf) (by simpa using hacc) ?_
    simpa [hf, hacc] using h

theorem flushWait_cases (token : Nat) (a : Impl) :
    (flushWait token a = sleepOn a (.flushWait token) .stateChanged ∧ a.completedFlushToken < token ∧
      a.failed = false ∧ a.canceled = false) ∨ ∃ status, flushWait token a = reply a status := by
  unfold flushWait
  split
  · rename_i h
    simp only [Bool.not_eq_true', Bool.or_eq_false_iff, decide_eq_false_iff_not, Nat.not_le] at h
    exact .inl ⟨rfl, h.1.1, h.1.2, h.2⟩
  split
  · exact .inr ⟨_, rfl⟩
  split
  · exact .inr ⟨_, rfl⟩
  · exact .inr ⟨_, rfl⟩

theorem flushWait_effect {a : Impl} {token : Nat} :
    Effect cfg a (.flushWait token) .run (flushWait token a) := by
  rcases flushWait_cases token a with ⟨h, hlt, hf, hca⟩ | ⟨status, h⟩
  · rw [h]; exact .sleepOn rfl (by simp) (by simp [ready, hlt, hf, hca])
  · rw [h]; exact .reply rfl

theorem flushSpace_effect {a : Impl} {pc : ClientPc} (hpc : pc.slots = 0) :
    Effect cfg a pc .run (flushSpace cfg a) := by
  unfold flushSpace
  split
  · rename_i h; exact .sleepOn hpc.symm (by simp) (by simpa [ready] using h)
  split
  · exact .reply hpc
  split
  · exact .reply hpc
  · rename_i h hf hacc
    have hroom : a.hasRoom cfg = true := by simpa [hf, hacc] using h
    simp only [Bool.not_eq_true] at hf
    simp only [Bool.not_eq_true', Bool.not_eq_false] at hacc
    rcases flushWait_cases (a.nextFlushToken + 1) a.pushFlush with ⟨hw, hlt, -, hca⟩ | ⟨status, hw⟩
    · rw [hw]
      refine .pushFlush hpc rfl hf hacc hroom (by rintro _ ⟨⟩; rfl) ?_
      rintro _ ⟨⟩
      exact ⟨rfl, rfl, hlt, hca⟩
    · rw [hw]
      exact .pushFlush hpc rfl hf hacc hroom (by rintro _ ⟨⟩) (by rintro _ ⟨⟩)

theorem setCopyPolicy_effect {a : Impl} {policy : CopyPolicy} :
    Effect cfg a (.setCopyPolicy policy) .run (setCopyPolicy cfg policy a) := by
  unfold setCopyPolicy
  split
  · exact .reply rfl
  rename_i hacc
  split
  · exact .reply rfl
  rename_i hcap
  split
  · exact .reply rfl
  rename_i hgpu
  split
  · exact .reply rfl
  rename_i hboth
  simp only [Bool.or_eq_true, decide_eq_true_eq, not_or, ne_eq, not_not] at hacc
  simp only [Bool.and_eq_true, Bool.or_eq_true, Bool.not_eq_true', decide_eq_true_eq, ne_eq,
    not_and, not_not] at hcap
  simp only [Bool.and_eq_true, Bool.not_eq_true', not_and, Bool.not_eq_false] at hgpu
  simp only [Bool.and_eq_true, not_and, Bool.not_eq_true] at hboth
  exact .setPolicy hacc.1 hacc.2 (.copy hcap fun hr => ⟨hgpu hr, hboth hr⟩)

theorem clientSection_effect {a : Impl} {pc : ClientPc} {o : Section} (h : clientSection cfg a pc = some o) :
    Effect cfg a pc .run o := by
  cases pc with
  | idle | writeCpuSync | flushSync | closeSync | returning => cases h
  | write frame block =>
      cases h
      unfold write
      repeat' split
      all_goals first | exact .reply rfl | exact .goto rfl (by simp)
  | writeBorrowed frame =>
      cases h
      unfold writeBorrowed
      repeat' split
      all_goals first | exact .reply rfl | exact .goto rfl (by simp)
  | writeCpuSyncRecord status =>
      cases h
      unfold writeCpuSyncRecord
      split
      · exact .recordSync rfl
      · exact .reply rfl
  | enqueueOwned frame block =>
      cases h
      unfold enqueueOwned
      repeat' split
      all_goals first | exact .reply rfl | exact .goto rfl (by simp)
  | enqueueOwnedSpace frame block => cases h; exact enqueueOwnedSpace_effect
  | enqueueOwnedCopy frame block owned =>
      cases h
      unfold enqueueOwnedCopy
      repeat' split
      all_goals exact .goto rfl (by simp)
  | enqueueOwnedReturn owned status => cases h; exact .giveBack rfl (.inl (by simp))
  | enqueueOwnedPush frame block owned => cases h; exact enqueueOwnedPush_effect
  | submitBorrowed frame =>
      cases h
      unfold submitBorrowed
      split
      · exact .reply rfl
      · exact .goto rfl (by simp)
  | enqueueBorrowed frame =>
      cases h
      unfold enqueueBorrowed
      repeat' split
      all_goals first | exact .reply rfl | exact enqueueBorrowedSpace_effect (.inl rfl)
  | enqueueBorrowedSpace frame => cases h; exact enqueueBorrowedSpace_effect (.inr rfl)
  | flush =>
      cases h
      unfold flush
      repeat' split
      all_goals first | exact .reply rfl | exact .goto rfl (by simp) | exact flushSpace_effect rfl
  | flushSyncRecord status => cases h; exact .reply rfl
  | flushSpace => cases h; exact flushSpace_effect rfl
  | flushWait token => cases h; exact flushWait_effect
  | cancel =>
      cases h
      unfold cancel
      split
      · exact .reply rfl
      split
      · exact .reply rfl
      · rename_i hc hf
        simp only [Bool.or_eq_true, not_or, Bool.not_eq_true] at hc hf
        exact .cancel rfl hc.1 hc.2 hf
  | close =>
      cases h
      unfold close
      split
      · exact .goto rfl (by simp)
      split
      · exact .goto rfl (by simp)
      · rename_i hreq; exact .closeRequest rfl (by simpa using hreq)
  | closeSyncRecord status => cases h; exact .reply rfl
  | closeJoin =>
      simp only [clientSection] at h
      split at h <;> cases h
      unfold closeJoin
      split <;> exact .reply rfl
  | setCopyPolicy policy => cases h; exact setCopyPolicy_effect
  | setCpuLayoutPolicy policy =>
      cases h
      unfold setCpuLayoutPolicy
      split
      · exact .reply rfl
      rename_i hacc
      simp only [Bool.or_eq_true, decide_eq_true_eq, not_or, ne_eq, not_not] at hacc
      exact .setPolicy hacc.1 hacc.2 .layout

theorem clientBackend_effect {a : Impl} {pc : ClientPc} {m : String} {ended : CallEnd} {o : Section}
    (h : clientBackend m ended a pc = some o) : Effect cfg a pc (.backend ended) o := by
  cases pc with
  | writeCpuSync frame =>
      cases ended <;> cases h <;> exact .backend rfl rfl (.inr (.inr ⟨frame, rfl⟩)) (by simp) (by simp)
  | flushSync => cases ended <;> cases h <;> exact .backend rfl rfl (.inl rfl) (by simp) (by simp)
  | closeSync => cases ended <;> cases h <;> exact .backend rfl rfl (.inr (.inl rfl)) (by simp) (by simp)
  | _ => cases h

/-- The classification of the actions of a client. -/
theorem clientAct_effect {e : Choice} {a : Impl} {k : Client} {o : Outcome Impl Client Cond}
    (h : clientAct cfg e a k = some o) :
    Effect cfg a k.pc e ⟨o.shared, o.loc.pc, o.notify, o.sleep⟩ := by
  cases clientAct_action h with
  | @start c hpc =>
      rw [hpc]
      exact .quiet (.inr ⟨c, rfl⟩) (by cases c <;> rfl) (by cases c <;> simp [Call.entry]) (by simp)
  | finish hpc hcur => rw [hpc]; exact .quiet (.inl rfl) rfl (by simp) (by simp)
  | act hs => exact clientSection_effect hs
  | threw hpc hcur => rw [hpc]; exact .lose rfl
  | backend hcur hs => exact clientBackend_effect hs

/-! ## Sections of the worker -/

/-- The sections of the worker with what they find in the shared state `a`. -/
inductive WorkerEffect (a : Impl) : WorkerPc → Choice → WorkerSection → Prop
  | asleep (hreq : a.closeRequested = false) (hq : a.queue = []) :
      WorkerEffect a .loop .run ⟨a, .loop, [], some .hasItems⟩
  | stop (hreq : a.closeRequested = true) (hq : a.queue = []) :
      WorkerEffect a .loop .run ⟨a, .close none, [], none⟩
  | pop {item rest} (hq : a.queue = item :: rest) :
      WorkerEffect a .loop .run ⟨{ a with queue := rest }, .serve item, [.hasSpace], none⟩
  | served {item status} : WorkerEffect a (.serve item) (.backend (.returned status))
      ⟨a.called (.item item (.returned status)), .record item status, [], none⟩
  | threw {item what} : WorkerEffect a (.serve item) (.backend (.threw what))
      ⟨a.called (.item item (.threw what)), .unwind (some item) item.submission? what, [], none⟩
  | failure {item status} (h : status.result ≠ .ok) :
      WorkerEffect a (.record item status) .run (recordFailure item status a)
  | success {item status} (h : status.result = .ok) :
      WorkerEffect a (.record item status) .run (recordSuccess item a)
  | closed {active status} : WorkerEffect a (.close active) (.backend (.returned status))
      ⟨a.called (.close (.returned status)), .recordClose active status, [], none⟩
  | closeThrew {active what} : WorkerEffect a (.close active) (.backend (.threw what))
      ⟨a.called (.close (.threw what)), .unwind none active what, [], none⟩
  | finish {active status} (h : a.failed = true ∨ status.result = .ok) :
      WorkerEffect a (.recordClose active status) .run
        ⟨{ a with closed := true, accepting := false, workerExited := true }, .exited,
          [.stateChanged, .hasSpace], none⟩
  | finishFailed {active} {status : Status} (hf : a.failed = false) (h : status.result ≠ .ok) :
      WorkerEffect a (.recordClose active status) .run
        ⟨{ a with
            failed := true
            terminalResult := status.result
            terminalError := status.error
            closed := true
            accepting := false
            workerExited := true }, .exited, [.stateChanged, .hasSpace], none⟩
  | handler {item active what} :
      WorkerEffect a (.unwind item active what) .run (recordException active what a)

theorem workerAct_effect {e : Choice} {a : Impl} {w : WorkerPc} {o : WorkerSection}
    (h : workerAct e a w = some o) : WorkerEffect a w e o := by
  unfold workerAct at h
  split at h
  · cases h
    unfold workerLoop
    split
    · rename_i hr
      simp only [Bool.not_eq_true', Bool.or_eq_false_iff, Bool.not_eq_false', List.isEmpty_iff] at hr
      exact .asleep hr.1 hr.2
    · rename_i hr
      split
      · rename_i hq; exact .stop (by simpa [hq] using hr) hq
      · rename_i hq; exact .pop hq
  · rename_i ended; cases ended <;> cases h <;> constructor
  · cases h
    unfold recordItem
    split
    · exact .failure ‹_›
    · rename_i hok; exact .success (by simpa using hok)
  · rename_i ended; cases ended <;> cases h <;> constructor
  · rename_i status
    cases h
    unfold recordClose
    by_cases hc : (!a.failed && decide (status.result ≠ .ok)) = true
    · simp only [hc, ↓reduceIte]
      simp only [Bool.and_eq_true, Bool.not_eq_true', decide_eq_true_eq] at hc
      exact .finishFailed hc.1 hc.2
    · simp only [hc, Bool.false_eq_true, ↓reduceIte]
      refine .finish ?_
      by_cases hf : a.failed = true
      · exact .inl hf
      · exact .inr (by simpa [hf] using hc)
  · cases h; constructor
  · cases h

theorem WorkerEffect.admitted {a : Impl} {w : WorkerPc} {e : Choice} {o : WorkerSection} (h : WorkerEffect a w e o) :
    o.shared.admitted = a.admitted := by
  cases h with
  | @success item status hok => cases item <;> rfl
  | _ => rfl

theorem WorkerEffect.acceptedFrames_eq {a : Impl} {w : WorkerPc} {e : Choice} {o : WorkerSection}
    (h : WorkerEffect a w e o) : o.shared.acceptedFrames = a.acceptedFrames := by
  cases h with
  | @success item status hok => cases item <;> rfl
  | _ => rfl

/-! ## Whole runs -/

section

variable {ι : Type*} [DecidableEq ι]

/-- The rule of invariants of a session. The effect of a step may be used together with all that is known of
the run before it. -/
theorem session_invariant {I : Impl → WorkerPc → Prop} {ls : List (SessionLabel ι)} {s : SessionState ι}
    (h : SessionRun cfg ls s) (h₀ : I (.init cfg) (if cfg.capacity = 0 then .notStarted else .loop))
    (hw : ∀ {ls} {s : SessionState ι} {e o}, SessionRun cfg ls s → I s.shared s.worker →
      WorkerEffect s.shared s.worker e o → I o.shared o.loc)
    (hc : ∀ {ls} {s : SessionState ι} {i e o}, SessionRun cfg ls s → I s.shared s.worker →
      Effect cfg s.shared (s.client i).pc e o → I o.shared s.worker) : I s.shared s.worker := by
  induction h with
  | nil => exact h₀
  | @snoc ls s l t hrun hst ih =>
      cases l with
      | worker e => obtain ⟨_, o, ho, rfl⟩ := hst.worker_inv; exact hw hrun ih (workerAct_effect ho)
      | client i e => obtain ⟨_, o, ho, rfl⟩ := hst.client_inv; exact hc hrun ih (clientAct_effect ho)
      | wakeWorker => rw [hst.wakeWorker_inv]; exact ih
      | wake i => rw [hst.wake_inv]; exact ih

end

/-! ## Stopping -/

/-- The worker has left its loop. -/
def WorkerPc.closing : WorkerPc → Bool
  | .close _ | .recordClose _ _ | .unwind none _ _ | .exited => true
  | _ => false

/-- Whatever ends a session stops it from accepting, a failure has an error to report, and the worker leaves
its loop after a failure or behind an empty queue. -/
structure Stops (a : Impl) (w : WorkerPc) : Prop where
  failed : a.failed = true → a.accepting = false ∧ a.terminalResult ≠ .ok
  canceled : a.canceled = true → a.accepting = false
  closeRequested : a.closeRequested = true → a.accepting = false
  closing : w.closing = true → a.accepting = false ∧ (a.queue = [] ∨ a.failed = true)
  failedClosing : a.failed = true → w.closing = true

/-- A push leaves the flags alone, and the worker of a session that accepts is in its loop. -/
theorem Stops.push {a b : Impl} {w : WorkerPc} (hs : Stops a w) (hacc : a.accepting = true)
    (hf : b.failed = a.failed) (hca : b.canceled = a.canceled) (hreq : b.closeRequested = a.closeRequested)
    (hacc' : b.accepting = a.accepting) (hr : b.terminalResult = a.terminalResult) : Stops b w := by
  refine ⟨?_, ?_, ?_, fun hw => ?_, ?_⟩
  · rw [hf, hacc', hr]; exact hs.failed
  · rw [hca, hacc']; exact hs.canceled
  · rw [hreq, hacc']; exact hs.closeRequested
  · rw [(hs.closing hw).1] at hacc; cases hacc
  · rw [hf]; exact hs.failedClosing

theorem Effect.stops {a : Impl} {pc : ClientPc} {e : Choice} {o : Section} {w : WorkerPc}
    (h : Effect cfg a pc e o) (hs : Stops a w) : Stops o.shared w := by
  cases h with
  | pushOwned hpc hf hacc hroom => exact hs.push hacc rfl rfl rfl rfl rfl
  | pushBorrowed hpc hf hacc hroom => exact hs.push hacc rfl rfl rfl rfl rfl
  | pushFlush hslots hslots' hf hacc hroom hwait hsleep => exact hs.push hacc rfl rfl rfl rfl rfl
  | cancel hpc hcl hca hf =>
      exact ⟨fun h => ⟨rfl, (hs.failed h).2⟩, fun _ => rfl, fun _ => rfl, fun _ => ⟨rfl, .inl rfl⟩,
        hs.failedClosing⟩
  | closeRequest hpc hreq =>
      exact ⟨fun h => ⟨rfl, (hs.failed h).2⟩, fun _ => rfl, fun _ => rfl, fun h => ⟨rfl, (hs.closing h).2⟩,
        hs.failedClosing⟩
  | _ => exact ⟨hs.failed, hs.canceled, hs.closeRequested, hs.closing, hs.failedClosing⟩

theorem WorkerEffect.stops {a : Impl} {w : WorkerPc} {e : Choice} {o : WorkerSection}
    (h : WorkerEffect a w e o) (hs : Stops a w) : Stops o.shared o.loc := by
  cases h with
  | asleep => exact hs
  | stop hreq hq =>
      exact ⟨hs.failed, hs.canceled, hs.closeRequested, fun _ => ⟨hs.closeRequested hreq, .inl hq⟩,
        fun _ => rfl⟩
  | pop | served | threw =>
      refine ⟨hs.failed, hs.canceled, hs.closeRequested, by rintro ⟨⟩, fun hf => ?_⟩
      cases hs.failedClosing hf
  | failure hne =>
      exact ⟨fun _ => ⟨rfl, hne⟩, fun _ => rfl, fun _ => rfl, fun _ => ⟨rfl, .inl rfl⟩, fun _ => rfl⟩
  | @success item status hok =>
      have hrun : a.failed = true → WorkerPc.closing .loop = true := fun hf => by cases hs.failedClosing hf
      cases item <;> exact ⟨hs.failed, hs.canceled, hs.closeRequested, by rintro ⟨⟩, hrun⟩
  | closed | closeThrew =>
      exact ⟨hs.failed, hs.canceled, hs.closeRequested, fun _ => hs.closing rfl, fun _ => rfl⟩
  | finish =>
      exact ⟨fun h => ⟨rfl, (hs.failed h).2⟩, fun _ => rfl, fun _ => rfl,
        fun _ => ⟨rfl, (hs.closing rfl).2⟩, fun _ => rfl⟩
  | finishFailed hf hne =>
      exact ⟨fun _ => ⟨rfl, hne⟩, fun _ => rfl, fun _ => rfl, fun _ => ⟨rfl, .inr rfl⟩, fun _ => rfl⟩
  | handler =>
      exact ⟨fun _ => ⟨rfl, by simp [recordException, guard]⟩, fun _ => rfl, fun _ => rfl,
        fun _ => ⟨rfl, .inr rfl⟩, fun _ => rfl⟩

theorem session_stops {ι : Type*} [DecidableEq ι] {ls : List (SessionLabel ι)} {s : SessionState ι} (h : SessionRun cfg ls s) :
    Stops s.shared s.worker := by
  refine session_invariant h ⟨by rintro ⟨⟩, by rintro ⟨⟩, by rintro ⟨⟩, ?_, by rintro ⟨⟩⟩ ?_ ?_
  · split <;> rintro ⟨⟩
  · intro _ _ _ _ _ hs he
    exact he.stops hs
  · intro _ _ _ _ _ _ hs he
    exact he.stops hs

/-- Outside its wait, a worker that has not exited can always go on. -/
theorem workerAct_enabled {a : Impl} {w : WorkerPc} (hn : w ≠ .notStarted) (hx : w ≠ .exited) :
    ∃ e o, (e = .run ∨ e = .backend (.returned .ok)) ∧ workerAct e a w = some o := by
  cases w with
  | notStarted => exact absurd rfl hn
  | exited => exact absurd rfl hx
  | serve item => exact ⟨.backend (.returned .ok), _, .inr rfl, rfl⟩
  | close active => exact ⟨.backend (.returned .ok), _, .inr rfl, rfl⟩
  | loop => exact ⟨.run, _, .inl rfl, rfl⟩
  | record item status => exact ⟨.run, _, .inl rfl, rfl⟩
  | recordClose active status => exact ⟨.run, _, .inl rfl, rfl⟩
  | unwind item active what => exact ⟨.run, _, .inl rfl, rfl⟩

end MkvCodec.Encoder
