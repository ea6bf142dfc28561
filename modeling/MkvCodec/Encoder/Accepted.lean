import MkvCodec.Encoder.Lemmas.Order
import MkvCodec.Frame.Copy

/-!
# Accepted frames

A call that takes a frame is answered OK by the section that queues the frame, or the copy of it, and by no other. So the pictures for
which the clients of a session with a queue have got an OK are those it has queued.
-/

namespace MkvCodec.Encoder

open Concurrency

variable {cfg : Config}

/-- The picture that a call hands over. -/
def Call.picture? : Call → Option Picture
  | .write frame | .tryWrite frame | .writeBorrowed frame | .submitBorrowed frame => some frame.picture
  | _ => none

/-- The picture that the backend gets of an item. -/
def Item.picture? : Item → Option Picture
  | .owned frame _ => some frame.view.picture
  | .borrowed frame _ => some frame.picture
  | .flush _ => none

def pictures (items : List Item) : List Picture := items.filterMap Item.picture?

/-- The picture of a call that was answered OK. -/
def granted (answer : Call × Status) : Option Picture :=
  if answer.2.result = .ok then answer.1.picture? else none

/-- The same at the point where a call has its answer and has not returned. -/
def ClientPc.granted (c : Call) : ClientPc → List Picture
  | .returning status => (Encoder.granted (c, status)).toList
  | _ => []

/-- The pictures for which a client has got an OK, in the order of its calls. -/
def Client.accepted (k : Client) : List Picture :=
  k.history.filterMap Encoder.granted ++
    match k.current with
    | some c => k.pc.granted c
    | none => []

@[simp] theorem pictures_append (items items' : List Item) :
    pictures (items ++ items') = pictures items ++ pictures items' := by simp [pictures]

@[simp] theorem pictures_flush (token : Nat) : pictures [.flush token] = [] := rfl

@[simp] theorem granted_error {c : Call} {status : Status} (h : status.result ≠ .ok) :
    ClientPc.granted c (.returning status) = [] := by
  simp [ClientPc.granted, Encoder.granted, h]

theorem granted_of_no_picture {c : Call} (h : c.picture? = none) (pc : ClientPc) : pc.granted c = [] := by
  cases pc <;> simp [ClientPc.granted, Encoder.granted, h]

@[simp] theorem granted_owning (frame : FrameView) (block : Bool) :
    ClientPc.granted (.owning frame block) (.returning .ok) = [frame.picture] := by
  cases block <;> rfl

/-! ## The frame of a call -/

/-- What a client knows of its frame at a point of a call. -/
def ClientPc.Knows (cfg : Config) : ClientPc → Prop
  | .enqueueOwnedSpace frame _ | .enqueueOwnedCopy frame _ _ => frame.width = cfg.width
  | .enqueueOwnedReturn _ status => status.result ≠ .ok
  | .enqueueOwnedPush frame _ owned => owned.view.picture = frame.picture
  | _ => True

theorem clientSection_knows {a : Impl} {pc : ClientPc} {o : Section} (h : clientSection cfg a pc = some o)
    (hpc : pc.Knows cfg) : o.loc.Knows cfg := by
  cases pc with
  | enqueueOwned frame block =>
      cases h
      unfold enqueueOwned
      split
      · trivial
      split
      · trivial
      split
      · trivial
      · rename_i hsize
        simp only [ne_eq, not_or, not_not] at hsize
        exact hsize.1
  | enqueueOwnedSpace frame block =>
      cases h
      unfold enqueueOwnedSpace
      repeat' split
      all_goals trivial
  | enqueueOwnedCopy frame block owned =>
      cases h
      have hwidth : frame.width = cfg.width := hpc
      unfold enqueueOwnedCopy
      split
      rename_i copy status hcopy
      split
      · assumption
      · rename_i hok
        exact ownFrame_picture hcopy (by simpa using hok) (hwidth ▸ cfg.width_le)
  | enqueueOwnedPush frame block owned =>
      cases h
      unfold enqueueOwnedPush
      repeat' split
      all_goals trivial
  | idle | writeCpuSync | flushSync | closeSync | returning => cases h
  | closeJoin =>
      rw [clientSection] at h
      split at h <;> cases h
      unfold closeJoin
      split <;> trivial
  | enqueueOwnedReturn | flushSyncRecord | closeSyncRecord => cases h; trivial
  | _ =>
      cases h
      simp only [write, writeBorrowed, writeCpuSyncRecord, submitBorrowed, enqueueBorrowed, enqueueBorrowedSpace, flush, flushSpace,
        flushWait, cancel, close, setCopyPolicy, setCpuLayoutPolicy]
      repeat' split
      all_goals trivial

theorem clientBackend_knows {a : Impl} {m : String} {ended : CallEnd} {pc : ClientPc} {o : Section}
    (h : clientBackend m ended a pc = some o) : o.loc.Knows cfg := by
  cases pc with
  | writeCpuSync | flushSync | closeSync => cases ended <;> cases h <;> trivial
  | _ => cases h

theorem clientAct_knows {e : Choice} {a : Impl} {k : Client} {o : Outcome Impl Client Cond}
    (h : clientAct cfg e a k = some o) (hk : k.pc.Knows cfg) : o.loc.pc.Knows cfg := by
  cases clientAct_action h with
  | @start c hpc => cases c <;> trivial
  | finish | threw => trivial
  | act hs => exact clientSection_knows hs hk
  | backend hcur hs => exact clientBackend_knows hs

/-! ## The answer of a call -/

/-- A failure has an error to report. -/
def Impl.Reports (a : Impl) : Prop := a.failed = true → a.terminal.result ≠ .ok

/-- A section queues the pictures for which its call has got an OK. -/
def Accepts (a : Impl) (c : Call) (o : Section) : Prop := pictures o.shared.admitted = pictures a.admitted ++ o.loc.granted c

section

variable {a a' : Impl} {c : Call} {pc : ClientPc}

theorem accepts_reply {status : Status} (hsame : a'.admitted = a.admitted) (hstatus : status.result ≠ .ok) :
    Accepts a c (reply a' status) := by
  simp [Accepts, reply, goto, hsame, hstatus]

theorem accepts_goto (hpc : pc.granted c = []) : Accepts a c (goto a pc) := by
  simp [Accepts, goto, hpc]

theorem accepts_sleepOn {cond : Cond} (hpc : pc.granted c = []) : Accepts a c (sleepOn a pc cond) := by
  simp [Accepts, sleepOn, hpc]

variable (c) in
theorem write_accepts (frame : FrameView) (block : Bool) (hreports : a.Reports) : Accepts a c (write cfg frame block a) := by
  unfold write
  split
  · exact accepts_reply rfl (by simp [prohibited])
  split
  · rename_i hf
    exact accepts_reply rfl (hreports hf)
  split
  · exact accepts_goto rfl
  split
  · exact accepts_reply rfl (stoppedResult_ne_ok a)
  split
  · rename_i hne
    exact accepts_reply rfl hne
  · apply accepts_goto
    split
    · rfl
    · rfl

variable (c) in
theorem enqueueOwned_accepts (frame : FrameView) (block : Bool) (hreports : a.Reports) :
    Accepts a c (enqueueOwned cfg frame block a) := by
  unfold enqueueOwned
  split
  · rename_i hf
    exact accepts_reply rfl (hreports hf)
  split
  · exact accepts_reply rfl (stoppedResult_ne_ok a)
  split
  · exact accepts_reply rfl (by simp [dimensionMismatch])
  · exact accepts_goto rfl

variable (c) in
theorem enqueueOwnedSpace_accepts (frame : FrameView) (block : Bool) (hreports : a.Reports) :
    Accepts a c (enqueueOwnedSpace cfg frame block a) := by
  unfold enqueueOwnedSpace
  split
  · exact accepts_reply rfl (by simp [wouldBlock])
  split
  · exact accepts_sleepOn rfl
  split
  · rename_i hf
    exact accepts_reply rfl (hreports hf)
  split
  · exact accepts_reply rfl (stoppedResult_ne_ok a)
  split
  · exact accepts_reply rfl (by simp [wouldBlock])
  split
  · exact accepts_reply rfl (by simp [wouldBlock])
  · exact accepts_goto rfl

theorem enqueueOwnedPush_accepts {frame : FrameView} {owned : OwnedFrame} (block : Bool) (hreports : a.Reports)
    (hpicture : owned.view.picture = frame.picture) :
    Accepts a (.owning frame block) (enqueueOwnedPush cfg frame block owned a) := by
  unfold enqueueOwnedPush
  split
  · exact accepts_sleepOn rfl
  split
  · rename_i hf
    exact accepts_reply rfl (hreports hf)
  split
  · exact accepts_reply rfl (stoppedResult_ne_ok a)
  split
  · exact accepts_reply rfl (by simp [wouldBlock])
  · simp [Accepts, notifying, reply, goto, Impl.pushFrame, Impl.push, pictures, Item.picture?, hpicture]

theorem enqueueBorrowedSpace_accepts (frame : FrameView) (hreports : a.Reports) :
    Accepts a (.submitBorrowed frame) (enqueueBorrowedSpace cfg frame a) := by
  unfold enqueueBorrowedSpace
  split
  · exact accepts_sleepOn rfl
  split
  · rename_i hf
    exact accepts_reply rfl (hreports hf)
  split
  · exact accepts_reply rfl (stoppedResult_ne_ok a)
  · simp [Accepts, notifying, reply, goto, Impl.pushFrame, Impl.push, pictures, Item.picture?, ClientPc.granted, granted,
      Call.picture?]

theorem enqueueBorrowed_accepts (frame : FrameView) (hreports : a.Reports) :
    Accepts a (.submitBorrowed frame) (enqueueBorrowed cfg frame a) := by
  unfold enqueueBorrowed
  split
  · exact accepts_reply rfl (by simp [dimensionMismatch])
  split
  · rename_i hne
    exact accepts_reply rfl hne
  split
  · exact accepts_reply rfl (by simp)
  split
  · exact accepts_reply rfl (by simp [prohibited])
  · exact enqueueBorrowedSpace_accepts frame hreports

end

/-- The calls that hand nothing over queue no frame. -/
theorem clientSection_pictures {a : Impl} {pc : ClientPc} {c : Call} {o : Section} (h : clientSection cfg a pc = some o)
    (hpc : pc.Within cfg c) (hc : c.picture? = none) : pictures o.shared.admitted = pictures a.admitted := by
  cases clientSection_effect h with
  | pushOwned hpush =>
      obtain ⟨block, rfl⟩ := hpush
      rw [hpc.2] at hc
      cases block <;> cases hc
  | pushBorrowed hpush =>
      rcases hpush with rfl | rfl
      · rw [show c = _ from hpc] at hc
        cases hc
      · rw [hpc.2] at hc
        cases hc
  | pushFlush => simp [Impl.pushFlush, Impl.push]
  | _ => rfl

/-- A section of a call answers OK when it queues the frame of the call. -/
theorem clientSection_accepts {a : Impl} {pc : ClientPc} {c : Call} {o : Section} (hcap : cfg.capacity ≠ 0)
    (h : clientSection cfg a pc = some o) (hpc : pc.Within cfg c) (hreports : a.Reports) (hknows : pc.Knows cfg) :
    Accepts a c o := by
  cases hc : c.picture? with
  | none => rw [Accepts, clientSection_pictures h hpc hc, granted_of_no_picture hc, List.append_nil]
  | some picture =>
      cases pc with
      | write frame block =>
          cases h
          exact write_accepts c frame block hreports
      | writeBorrowed frame =>
          cases h
          rw [writeBorrowed, if_pos hcap]
          exact accepts_reply rfl (by simp)
      | writeCpuSyncRecord status => exact absurd hpc.1 hcap
      | enqueueOwned frame block =>
          cases h
          exact enqueueOwned_accepts c frame block hreports
      | enqueueOwnedSpace frame block =>
          cases h
          exact enqueueOwnedSpace_accepts c frame block hreports
      | enqueueOwnedCopy frame block owned =>
          cases h
          unfold enqueueOwnedCopy
          split
          split
          · exact accepts_goto rfl
          · exact accepts_goto rfl
      | enqueueOwnedReturn owned status =>
          cases h
          have hreply : Accepts a c (reply (a.returnFrame owned) status) := accepts_reply rfl hknows
          exact hreply
      | enqueueOwnedPush frame block owned =>
          cases h
          obtain ⟨-, rfl⟩ := hpc
          exact enqueueOwnedPush_accepts block hreports hknows
      | submitBorrowed frame =>
          cases h
          unfold submitBorrowed
          split
          · rename_i hne
            exact accepts_reply rfl hne
          · exact accepts_goto rfl
      | enqueueBorrowed frame =>
          cases h
          obtain rfl : c = .submitBorrowed frame := hpc
          exact enqueueBorrowed_accepts frame hreports
      | enqueueBorrowedSpace frame =>
          cases h
          rw [hpc.2]
          exact enqueueBorrowedSpace_accepts frame hreports
      | idle | writeCpuSync | flushSync | closeSync | returning => cases h
      | flush | cancel | close | setCopyPolicy | setCpuLayoutPolicy =>
          rw [show c = _ from hpc] at hc
          cases hc
      | flushSyncRecord | flushSpace | flushWait | closeSyncRecord | closeJoin =>
          rw [hpc.2] at hc
          cases hc

/-- An action of a client adds the same pictures to the queued ones and to those it has got an OK for. -/
theorem clientAct_accepts {e : Choice} {a : Impl} {k : Client} {o : Outcome Impl Client Cond} (hcap : cfg.capacity ≠ 0)
    (h : clientAct cfg e a k = some o) (hplaced : k.Placed cfg) (hreports : a.Reports) (hknows : k.pc.Knows cfg) :
    ∃ new, pictures o.shared.admitted = pictures a.admitted ++ new ∧ o.loc.accepted = k.accepted ++ new := by
  have hplaced' := hplaced
  obtain ⟨pc, current, history⟩ := k
  cases clientAct_action h with
  | @start c hpc =>
      obtain rfl : pc = .idle := hpc
      cases current with
      | none => exact ⟨[], by simp, by cases c <;> simp [Client.accepted, Call.entry, ClientPc.granted]⟩
      | some c' => exact hplaced.elim
  | @finish status c hpc hcur =>
      obtain rfl : pc = .returning status := hpc
      obtain rfl : current = some c := hcur
      refine ⟨[], by simp, ?_⟩
      cases hg : granted (c, status) <;> simp [Client.accepted, ClientPc.granted, hg]
  | @act s hs =>
      cases current with
      | none =>
          obtain rfl : pc = .idle := hplaced
          cases hs
      | some c =>
          have hnone : pc.granted c = [] := by
            cases pc with
            | returning status => cases hs
            | _ => rfl
          exact ⟨s.loc.granted c, clientSection_accepts hcap hs hplaced hreports hknows, by simp [Client.accepted, hnone]⟩
  | @threw what c frame block owned hpc hcur =>
      obtain rfl : pc = .enqueueOwnedCopy frame block owned := hpc
      obtain rfl : current = some c := hcur
      exact ⟨[], by simp, by simp [Client.accepted, ClientPc.granted, granted, guard]⟩
  | @backend ended c s hcur hs => exact absurd ((clientBackend_effect hs).capacity_of_backend hplaced') hcap

/-! ## Runs -/

variable {ι : Type*} [DecidableEq ι]

theorem session_knows {ls : List (SessionLabel ι)} {s : SessionState ι} (h : SessionRun cfg ls s) (i : ι) :
    (s.client i).pc.Knows cfg := by
  refine (program cfg).invariant (I := fun _ _ ks => ∀ i, (ks i).pc.Knows cfg) (P := fun _ _ => True)
    (h.mono fun _ _ _ hst => ⟨hst, trivial⟩) (fun _ => trivial) ?_ ?_ i
  · intro _ _ _ hk _ _
    exact hk
  · intro s j _ o hk _ ho i
    by_cases hij : i = j
    · subst hij
      simpa using clientAct_knows ho (hk i)
    · simpa [Function.update_of_ne hij] using hk i

/-- The pictures queued in a session are those that its clients have got an OK for. -/
theorem session_accepted {ls : List (SessionLabel ι)} {s : SessionState ι} (hcap : cfg.capacity ≠ 0) (h : SessionRun cfg ls s) :
    Interleaved (pictures s.shared.admitted) fun i => (s.client i).accepted := by
  induction h with
  | nil => exact .nil
  | @snoc ls s l t hrun hst ih =>
      cases l with
      | worker e =>
          obtain ⟨_, o, ho, rfl⟩ := hst.worker_inv
          simpa only [(workerAct_effect ho).admitted] using ih
      | client i e =>
          obtain ⟨_, o, ho, rfl⟩ := hst.client_inv
          have hreports : s.shared.Reports := fun hf => ((session_stops hrun).failed hf).2
          obtain ⟨new, hadmitted, hown⟩ := clientAct_accepts hcap ho (session_placed hrun i) hreports (session_knows hrun i)
          have hclients : (fun j => (Function.update s.client i o.loc j).accepted) =
              Function.update (fun j => (s.client j).accepted) i ((s.client i).accepted ++ new) := by
            funext j
            by_cases hj : j = i
            · subst hj
              simp [hown]
            · simp [Function.update_of_ne hj]
          simp only [hadmitted, hclients]
          exact ih.append i new
      | wakeWorker => rw [hst.wakeWorker_inv]; exact ih
      | wake i => rw [hst.wake_inv]; exact ih

/-- `accepted_frames` counts them. -/
theorem session_acceptedFrames {ls : List (SessionLabel ι)} {s : SessionState ι} (hcap : cfg.capacity ≠ 0)
    (h : SessionRun cfg ls s) : s.shared.acceptedFrames = (pictures s.shared.admitted).length := by
  refine session_invariant (I := fun a _ => a.acceptedFrames = (pictures a.admitted).length) h rfl ?_ ?_
  · intro ls s e o _ hs he
    rw [he.acceptedFrames_eq, he.admitted]
    exact hs
  · intro ls s i e o hrun hs he
    cases he with
    | pushOwned | pushBorrowed => simp [Impl.pushFrame, Impl.push, pictures, Item.picture?, hs]
    | pushFlush => simpa [Impl.pushFlush, Impl.push] using hs
    | @recordSync status hpc =>
        have hplaced := session_placed hrun i
        rw [Client.Placed] at hplaced
        split at hplaced
        · rw [hpc] at hplaced
          cases hplaced
        · rw [hpc] at hplaced
          exact absurd hplaced.1 hcap
    | _ => exact hs

/-! ## The log of the queue -/

theorem Effect.admitted_grows {a : Impl} {pc : ClientPc} {e : Choice} {o : Section} (h : Effect cfg a pc e o) :
    a.admitted <+: o.shared.admitted := by
  cases h with
  | pushOwned | pushBorrowed | pushFlush => exact List.prefix_append _ _
  | _ => exact List.prefix_rfl

theorem run_admitted_grows {ls : List (SessionLabel ι)} {s t : SessionState ι} (h : Run (Step cfg) s ls t) :
    s.shared.admitted <+: t.shared.admitted := by
  refine h.lift (Q := fun s t : SessionState ι => s.shared.admitted <+: t.shared.admitted) (fun _ => List.prefix_rfl)
    (fun h h' => h.trans h') ?_
  intro s l t hst
  cases l with
  | worker e =>
      obtain ⟨_, o, ho, rfl⟩ := hst.worker_inv
      rw [(workerAct_effect ho).admitted]
  | client i e =>
      obtain ⟨_, o, ho, rfl⟩ := hst.client_inv
      exact (clientAct_effect ho).admitted_grows
  | wakeWorker => rw [hst.wakeWorker_inv]
  | wake i => rw [hst.wake_inv]

end MkvCodec.Encoder
