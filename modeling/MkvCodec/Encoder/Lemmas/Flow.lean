import MkvCodec.Encoder.Lemmas.Effect

/-!
# Where a call can stand

The points that a client can reach inside each call, and the capacity under which it reaches them.
-/

namespace MkvCodec.Encoder

open Concurrency

variable {cfg : Config}

/-- `write` or `try_write`. -/
def Call.owning (frame : FrameView) (block : Bool) : Call := if block then .write frame else .tryWrite frame

@[simp] theorem Call.flush_ne_owning (frame : FrameView) (block : Bool) : Call.flush ≠ .owning frame block := by
  cases block <;> simp [Call.owning]

/-- `pc` is a point inside the call `c`. -/
def ClientPc.Within (cfg : Config) (c : Call) : ClientPc → Prop
  | .idle => False
  | .write frame block => c = .owning frame block
  | .writeBorrowed frame => c = .writeBorrowed frame
  | .writeCpuSync frame => cfg.capacity = 0 ∧ ((∃ block, c = .owning frame block) ∨ c = .writeBorrowed frame)
  | .writeCpuSyncRecord _ =>
      cfg.capacity = 0 ∧ ∃ frame, (∃ block, c = .owning frame block) ∨ c = .writeBorrowed frame
  | .enqueueOwned frame block | .enqueueOwnedSpace frame block | .enqueueOwnedCopy frame block _
  | .enqueueOwnedPush frame block _ => cfg.capacity ≠ 0 ∧ c = .owning frame block
  | .enqueueOwnedReturn _ _ => cfg.capacity ≠ 0 ∧ ∃ frame block, c = .owning frame block
  | .submitBorrowed frame | .enqueueBorrowed frame => c = .submitBorrowed frame
  | .enqueueBorrowedSpace frame => cfg.capacity ≠ 0 ∧ c = .submitBorrowed frame
  | .flush => c = .flush
  | .flushSync | .flushSyncRecord _ => cfg.capacity = 0 ∧ c = .flush
  | .flushSpace | .flushWait _ => cfg.capacity ≠ 0 ∧ c = .flush
  | .cancel => c = .cancel
  | .close => c = .close
  | .closeSync | .closeSyncRecord _ => cfg.capacity = 0 ∧ c = .close
  | .closeJoin => cfg.capacity ≠ 0 ∧ c = .close
  | .setCopyPolicy policy => c = .setCopyPolicy policy
  | .setCpuLayoutPolicy policy => c = .setCpuLayoutPolicy policy
  | .returning _ => True

/-- A client that is in no call is idle, and one that is in a call stands inside it. -/
def Client.Placed (cfg : Config) (k : Client) : Prop :=
  match k.current with
  | none => k.pc = .idle
  | some c => k.pc.Within cfg c

theorem Call.entry_within (c : Call) : c.entry.Within cfg c := by
  cases c <;> simp [Call.entry, ClientPc.Within, Call.owning]

theorem enqueueBorrowedSpace_within {a : Impl} {frame : FrameView} (hcap : cfg.capacity ≠ 0) :
    (enqueueBorrowedSpace cfg frame a).loc.Within cfg (.submitBorrowed frame) := by
  unfold enqueueBorrowedSpace
  repeat' split
  all_goals simp [sleepOn, reply, goto, notifying, ClientPc.Within, hcap]

theorem flushWait_within {a : Impl} {token : Nat} (hcap : cfg.capacity ≠ 0) :
    (flushWait token a).loc.Within cfg .flush := by
  unfold flushWait
  repeat' split
  all_goals simp [sleepOn, reply, goto, ClientPc.Within, hcap]

theorem flushSpace_within {a : Impl} (hcap : cfg.capacity ≠ 0) : (flushSpace cfg a).loc.Within cfg .flush := by
  unfold flushSpace
  repeat' split
  all_goals first
    | exact flushWait_within hcap
    | simp [sleepOn, reply, goto, ClientPc.Within, hcap]

theorem clientSection_within {a : Impl} {pc : ClientPc} {c : Call} {o : Section}
    (h : clientSection cfg a pc = some o) (hpc : pc.Within cfg c) : o.loc.Within cfg c := by
  cases pc with
  | idle | writeCpuSync | flushSync | closeSync | returning => cases h
  | write frame block =>
      cases h
      unfold write
      split_ifs with _ _ _ _ _ hcap
      all_goals first | trivial | exact ⟨hcap, .inl ⟨block, hpc⟩⟩
  | writeBorrowed frame =>
      cases h
      unfold writeBorrowed
      split_ifs with hcap
      all_goals first
        | trivial
        | exact ⟨by simpa using hcap, .inr hpc⟩
  | writeCpuSyncRecord status => cases h; unfold writeCpuSyncRecord; split <;> trivial
  | enqueueOwned frame block =>
      cases h
      unfold enqueueOwned
      repeat' split
      all_goals trivial
  | enqueueOwnedSpace frame block =>
      cases h
      unfold enqueueOwnedSpace
      repeat' split
      all_goals trivial
  | enqueueOwnedCopy frame block owned =>
      cases h
      unfold enqueueOwnedCopy
      repeat' split
      all_goals first | exact hpc | exact ⟨hpc.1, frame, block, hpc.2⟩
  | enqueueOwnedReturn owned status => cases h; trivial
  | enqueueOwnedPush frame block owned =>
      cases h
      unfold enqueueOwnedPush
      repeat' split
      all_goals trivial
  | submitBorrowed frame =>
      cases h
      unfold submitBorrowed
      split
      · trivial
      · exact hpc
  | enqueueBorrowed frame =>
      cases h
      unfold enqueueBorrowed
      split_ifs with _ _ hcap
      all_goals first
        | trivial
        | rw [show c = .submitBorrowed frame from hpc]; exact enqueueBorrowedSpace_within hcap
  | enqueueBorrowedSpace frame => cases h; rw [hpc.2]; exact enqueueBorrowedSpace_within hpc.1
  | flush =>
      cases h
      unfold flush
      split_ifs with hcap
      all_goals first
        | trivial
        | exact ⟨hcap, hpc⟩
        | rw [show c = .flush from hpc]; exact flushSpace_within hcap
  | flushSyncRecord status => cases h; trivial
  | flushSpace => cases h; rw [hpc.2]; exact flushSpace_within hpc.1
  | flushWait token => cases h; rw [hpc.2]; exact flushWait_within hpc.1
  | cancel => cases h; unfold cancel; split_ifs <;> trivial
  | close =>
      cases h
      unfold close
      split_ifs with hcap
      · exact ⟨hcap, hpc⟩
      · exact ⟨hcap, hpc⟩
      · exact ⟨hcap, hpc⟩
  | closeSyncRecord status => cases h; trivial
  | closeJoin =>
      simp only [clientSection] at h
      split at h <;> cases h
      unfold closeJoin
      split <;> trivial
  | setCopyPolicy policy => cases h; unfold setCopyPolicy; split_ifs <;> trivial
  | setCpuLayoutPolicy policy => cases h; unfold setCpuLayoutPolicy; split_ifs <;> trivial

theorem clientBackend_within {a : Impl} {pc : ClientPc} {m : String} {ended : CallEnd} {c : Call} {o : Section}
    (h : clientBackend m ended a pc = some o) (hpc : pc.Within cfg c) : o.loc.Within cfg c := by
  cases pc with
  | writeCpuSync frame =>
      cases ended <;> cases h
      · exact ⟨hpc.1, frame, hpc.2⟩
      · trivial
  | flushSync =>
      cases ended <;> cases h
      · exact hpc
      · trivial
  | closeSync =>
      cases ended <;> cases h
      · exact hpc
      · trivial
  | _ => cases h

theorem clientAct_placed {e : Choice} {a : Impl} {k : Client} {o : Outcome Impl Client Cond}
    (h : clientAct cfg e a k = some o) (hk : k.Placed cfg) : o.loc.Placed cfg := by
  obtain ⟨pc, current, history⟩ := k
  cases clientAct_action h with
  | start hpc => exact Call.entry_within _
  | finish hpc hcur => rfl
  | act hs =>
      cases current with
      | none => obtain rfl : pc = .idle := hk; cases hs
      | some c => exact clientSection_within hs hk
  | threw hpc hcur => cases hcur; trivial
  | backend hcur hs => cases hcur; exact clientBackend_within hs hk

variable {ι : Type*} [DecidableEq ι]

theorem session_placed {ls : List (SessionLabel ι)} {s : SessionState ι} (h : SessionRun cfg ls s) (i : ι) :
    (s.client i).Placed cfg := by
  refine (program cfg).invariant (I := fun _ _ ks => ∀ i, (ks i).Placed cfg) (P := fun _ _ => True)
    (h.mono fun _ _ _ hst => ⟨hst, trivial⟩) (fun _ => rfl) ?_ ?_ i
  · intro _ _ _ hk _ _
    exact hk
  · intro s j _ o hk _ ho i
    by_cases hij : i = j
    · subst hij; simpa using clientAct_placed ho (hk i)
    · simpa [Function.update_of_ne hij] using hk i

end MkvCodec.Encoder
