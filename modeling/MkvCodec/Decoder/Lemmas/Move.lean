import MkvCodec.Decoder.Prefetch

/-!
# What a section of a decoder can do

The sections of the worker and of the application, classified, and the two facts that hold of every decoder
whatever its backend: no wake-up is lost, and the parties keep their parts.
-/

namespace MkvCodec.Decoder

open Concurrency

variable {F B X : Type*} {backend : Backend F B X} {capacity : Nat}

/-! ## The worker -/

/-- The result that the worker records for a read that gives no frame. -/
def ReadEnd.recorded : ReadEnd F → Status
  | .frame _ => .ok
  | .ended status _ => status
  | .threw what => guard "unknown decoder prefetch failure" what

inductive WorkerMove (backend : Backend F B X) (capacity : Nat) (a : MkvcDecoder F B) :
    WorkerPc F → Choice X → WorkerSection F B → Prop
  | asleep (hstop : a.stopRequested = false) (hfull : capacity ≤ a.queue.length) :
      WorkerMove backend capacity a .wait .run ⟨a, .wait, [], some .notFull⟩
  | go (hstop : a.stopRequested = false) (hroom : a.queue.length < capacity) :
      WorkerMove backend capacity a .wait .run ⟨a, .read, [], none⟩
  | read {answers ended b} (hread : backend.read answers a.backend = some (ended, b)) :
      WorkerMove backend capacity a .read (.backend answers)
        ⟨{ a with backend := b, reads := a.reads ++ [ended] }, .record ended, [], none⟩
  | leave {w} (hw : w = .wait ∨ ∃ ended, w = .record ended) (hstop : a.stopRequested = true) :
      WorkerMove backend capacity a w .run (workerReturn a)
  | push {frame} (hstop : a.stopRequested = false) :
      WorkerMove backend capacity a (.record (.frame frame)) .run
        ⟨{ a with queue := a.queue ++ [frame] }, .wait, [.notEmpty], none⟩
  | finish {ended} (hend : ended.frame? = none) :
      WorkerMove backend capacity a (.record ended) .run (workerFinish ended.recorded a)

theorem workerAct_move {a : MkvcDecoder F B} {w : WorkerPc F} {e : Choice X} {o : WorkerSection F B}
    (h : workerAct backend capacity e a w = some o) : WorkerMove backend capacity a w e o := by
  unfold workerAct at h
  split at h
  · cases h
    unfold workerWait
    split
    · rename_i hwait
      simp only [Bool.not_eq_true', Bool.or_eq_false_iff, decide_eq_false_iff_not, Nat.not_lt] at hwait
      exact .asleep hwait.1 hwait.2
    rename_i hwait
    split
    · rename_i hstop
      exact .leave (.inl rfl) hstop
    · rename_i hstop
      simp only [Bool.not_eq_true] at hstop
      exact .go hstop (by simpa [hstop] using hwait)
  · obtain ⟨⟨ended, b⟩, hread, rfl⟩ := Option.map_eq_some_iff.mp h
    exact .read hread
  · rename_i ended
    cases h
    cases ended with
    | frame f =>
        simp only [workerRecord]
        split
        · rename_i hstop; exact .leave (.inr ⟨_, rfl⟩) hstop
        · rename_i hstop; exact .push (by simpa using hstop)
    | ended status hne =>
        simp only [workerRecord]
        split
        · rename_i hstop; exact .leave (.inr ⟨_, rfl⟩) hstop
        · exact .finish rfl
    | threw what => exact .finish rfl
  · cases h

/-! ## The application -/

inductive ClientMove (backend : Backend F B X) (capacity : Nat) (a : MkvcDecoder F B) (party : Party) :
    ClientPc → Choice X → Section F B → Prop
  | start : ClientMove backend capacity a party .idle .call (goto a (party.entry capacity) [])
  | asleep (hstop : a.stopRequested = false) (hempty : a.queue = []) (hfin : a.workerFinished = false) :
      ClientMove backend capacity a party .readPrefetched .run
        ⟨a, .readPrefetched, none, none, [], some .notEmpty⟩
  | refused (hstop : a.stopRequested = true) :
      ClientMove backend capacity a party .readPrefetched .run (reply a (.failed closing) [])
  | take {frame rest} (hstop : a.stopRequested = false) (hqueue : a.queue = frame :: rest) :
      ClientMove backend capacity a party .readPrefetched .run
        (reply { a with queue := rest } (.frame frame) [.notFull])
  | final (hstop : a.stopRequested = false) (hempty : a.queue = []) (hfin : a.workerFinished = true) :
      ClientMove backend capacity a party .readPrefetched .run
        (reply a (.failed ⟨a.workerResult, a.workerError⟩) [])
  | readSync {answers ended b} (hread : backend.read answers a.backend = some (ended, b)) :
      ClientMove backend capacity a party .readCpuSync (.backend answers) (readCpuSync ended b a)
  | stop : ClientMove backend capacity a party .stopRequest .run (stopRequest a)
  | join (hexit : a.workerExited = true) :
      ClientMove backend capacity a party .stopJoin .run (goto a .stopClear [])
  | clear : ClientMove backend capacity a party .stopClear .run (stopClear a)
  | close : ClientMove backend capacity a party .closeBackend .run (closeBackend backend a)

theorem readPrefetched_move {a : MkvcDecoder F B} {party : Party} :
    ClientMove backend capacity a party .readPrefetched .run (readPrefetched a) := by
  unfold readPrefetched
  split
  · rename_i hwait
    simp only [Bool.not_eq_true', Bool.or_eq_false_iff, Bool.not_eq_false', List.isEmpty_iff] at hwait
    exact .asleep hwait.1.1 hwait.1.2 hwait.2
  rename_i hwait
  split
  · rename_i hstop; exact .refused hstop
  rename_i hstop
  simp only [Bool.not_eq_true] at hstop
  split
  · rename_i hqueue; exact .take hstop hqueue
  · rename_i hqueue; exact .final hstop hqueue (by simpa [hstop, hqueue] using hwait)

/-- The record of a thread after a section. -/
def Client.after (k : Client F) (o : Section F B) : Client F :=
  { k with pc := o.pc, returns := k.returns ++ o.returned.toList, closes := k.closes ++ o.closed.toList }

theorem clientAct_move {a : MkvcDecoder F B} {k : Client F} {e : Choice X}
    {o : Outcome (MkvcDecoder F B) (Client F) Cond} (h : clientAct backend capacity e a k = some o) :
    ∃ sec, ClientMove backend capacity a k.party k.pc e sec ∧
      o = ⟨sec.shared, k.after sec, sec.notify, sec.sleep⟩ := by
  unfold clientAct at h
  simp only at h
  split at h
  · rename_i hpc
    cases h
    refine ⟨goto a (k.party.entry capacity) [], ?_, by simp [goto, Client.after]⟩
    rw [hpc]
    exact .start
  · rename_i hpc
    obtain ⟨⟨ended, b⟩, hread, rfl⟩ := Option.map_eq_some_iff.mp h
    refine ⟨_, ?_, rfl⟩
    rw [hpc]
    exact .readSync hread
  · obtain ⟨sec, hsec, rfl⟩ := Option.map_eq_some_iff.mp h
    refine ⟨sec, ?_, rfl⟩
    cases hpc : k.pc with
    | idle | readCpuSync => rw [hpc] at hsec; cases hsec
    | readPrefetched => rw [hpc] at hsec; cases hsec; exact readPrefetched_move
    | stopRequest => rw [hpc] at hsec; cases hsec; exact .stop
    | stopJoin =>
        rw [hpc] at hsec
        simp only [clientSection] at hsec
        split at hsec <;> cases hsec
        exact .join ‹_›
    | stopClear => rw [hpc] at hsec; cases hsec; exact .clear
    | closeBackend => rw [hpc] at hsec; cases hsec; exact .close
  · cases h

/-! ## Whole runs -/

/-- The rule of invariants of a decoder. The reader and the closer are told apart by their records. -/
theorem decoder_invariant {I : MkvcDecoder F B → WorkerPc F → (Party → Client F) → Prop}
    {P : DecoderState F B → DecoderLabel X → Prop} {s₀ s : DecoderState F B} {ls : List (DecoderLabel X)}
    (h : Run (Restrict (Step backend capacity) P) s₀ ls s) (h₀ : I s₀.shared s₀.worker s₀.client)
    (hw : ∀ {s : DecoderState F B} {e o}, I s.shared s.worker s.client → P s (.worker e) →
      WorkerMove backend capacity s.shared s.worker e o → I o.shared o.loc s.client)
    (hc : ∀ {s : DecoderState F B} {i e sec}, I s.shared s.worker s.client → P s (.client i e) →
      ClientMove backend capacity s.shared (s.client i).party (s.client i).pc e sec →
      I sec.shared s.worker (Function.update s.client i ((s.client i).after sec))) :
    I s.shared s.worker s.client := by
  refine (program backend capacity).invariant h h₀ ?_ ?_
  · intro s e o hs hP ho
    exact hw hs hP (workerAct_move ho)
  · intro s i e o hs hP ho
    obtain ⟨sec, hmove, rfl⟩ := clientAct_move ho
    exact hc hs hP hmove

/-- The points that a party can reach, with what the session then looks like. -/
def Party.At (capacity : Nat) (a : MkvcDecoder F B) (party : Party) (pc : ClientPc) : Prop :=
  match party, pc with
  | _, .idle => True
  | .reader, .readPrefetched => 0 < capacity
  | .reader, .readCpuSync => capacity = 0
  | .closer, .stopRequest => 0 < capacity
  | .closer, .stopJoin => 0 < capacity ∧ a.stopRequested = true
  | .closer, .stopClear => 0 < capacity ∧ a.stopRequested = true ∧ a.workerExited = true
  | .closer, .closeBackend => capacity = 0 ∨ a.stopRequested = true ∧ a.workerExited = true
  | _, _ => False

theorem Party.At.mono {a a' : MkvcDecoder F B} {party : Party} {pc : ClientPc} (h : party.At capacity a pc)
    (hstop : a.stopRequested = true → a'.stopRequested = true)
    (hexit : a.workerExited = true → a'.workerExited = true) : party.At capacity a' pc := by
  cases party with
  | reader => cases pc <;> exact h
  | closer =>
      cases pc with
      | stopJoin => exact ⟨h.1, hstop h.2⟩
      | stopClear => exact ⟨h.1, hstop h.2.1, hexit h.2.2⟩
      | closeBackend => exact h.imp id fun h => ⟨hstop h.1, hexit h.2⟩
      | _ => exact h

/-- Nothing withdraws the request to stop, and an exited worker stays exited. -/
theorem WorkerMove.stays {a : MkvcDecoder F B} {w : WorkerPc F} {e : Choice X} {o : WorkerSection F B}
    (h : WorkerMove backend capacity a w e o) :
    o.shared.stopRequested = a.stopRequested ∧ (a.workerExited = true → o.shared.workerExited = true) := by
  cases h with
  | leave | finish => exact ⟨rfl, fun _ => rfl⟩
  | _ => exact ⟨rfl, id⟩

theorem ClientMove.stays {a : MkvcDecoder F B} {party : Party} {pc : ClientPc} {e : Choice X} {sec : Section F B}
    (h : ClientMove backend capacity a party pc e sec) :
    (a.stopRequested = true → sec.shared.stopRequested = true) ∧
      sec.shared.workerExited = a.workerExited := by
  cases h with
  | stop => exact ⟨fun _ => rfl, rfl⟩
  | _ => exact ⟨id, rfl⟩

theorem ClientMove.at {a : MkvcDecoder F B} {party : Party} {pc : ClientPc} {e : Choice X} {sec : Section F B}
    (h : ClientMove backend capacity a party pc e sec) (hat : party.At capacity a pc) :
    party.At capacity sec.shared sec.pc := by
  cases h with
  | start =>
      cases party with
      | reader =>
          simp only [goto, Party.entry]
          split
          · assumption
          · exact Nat.eq_zero_of_not_pos ‹_›
      | closer =>
          simp only [goto, Party.entry]
          split
          · exact .inl ‹_›
          · exact Nat.pos_of_ne_zero ‹_›
  | asleep => exact hat
  | stop =>
      cases party with
      | reader => cases hat
      | closer => exact ⟨hat, rfl⟩
  | join hexit =>
      cases party with
      | reader => cases hat
      | closer => exact ⟨hat.1, hat.2, hexit⟩
  | clear =>
      cases party with
      | reader => cases hat
      | closer => exact .inr hat.2
  | _ => cases party <;> trivial

section

variable {b : B} {ls : List (DecoderLabel X)} {s : DecoderState F B}

theorem decoder_at (h : DecoderRun backend capacity b ls s) (party : Party) :
    (s.client party).party = party ∧ party.At capacity s.shared (s.client party).pc := by
  refine decoder_invariant (P := fun _ _ => True)
    (I := fun a _ ks => ∀ party, (ks party).party = party ∧ party.At capacity a (ks party).pc)
    (h.mono fun _ _ _ hst => ⟨hst, trivial⟩) (fun p => ⟨rfl, by cases p <;> trivial⟩) ?_ ?_ party
  · intro s e o hs _ hmove p
    obtain ⟨hstop, hexit⟩ := hmove.stays
    exact ⟨(hs p).1, (hs p).2.mono (fun h => hstop.trans h) hexit⟩
  · intro s i e sec hs _ hmove p
    obtain ⟨hparty, hat⟩ := hs i
    rw [hparty] at hmove
    by_cases hp : p = i
    · subst hp
      rw [Function.update_self]
      exact ⟨hparty, hmove.at hat⟩
    · rw [Function.update_of_ne hp]
      obtain ⟨hstop, hexit⟩ := hmove.stays
      exact ⟨(hs p).1, (hs p).2.mono hstop fun h => hexit.trans h⟩

/-- The wait condition of the worker. -/
def WorkerReady (capacity : Nat) (c : Cond) (a : MkvcDecoder F B) (w : WorkerPc F) : Prop :=
  c = .notFull → w = .wait → a.stopRequested = true ∨ a.queue.length < capacity

/-- The wait condition of a read. -/
def ClientReady (c : Cond) (a : MkvcDecoder F B) (k : Client F) : Prop :=
  c = .notEmpty → k.pc = .readPrefetched →
    a.stopRequested = true ∨ a.queue ≠ [] ∨ a.workerFinished = true

theorem WorkerMove.not_ready {a : MkvcDecoder F B} {w : WorkerPc F} {e : Choice X} {o : WorkerSection F B}
    {c : Cond} (h : WorkerMove backend capacity a w e o) (hc : o.sleep = some c) :
    ¬ WorkerReady capacity c o.shared o.loc := by
  intro hr
  cases h with
  | asleep hstop hfull =>
      cases hc
      rcases hr rfl rfl with hr | hr
      · rw [hstop] at hr; cases hr
      · exact absurd hfull (Nat.not_le.mpr hr)
  | _ => cases hc

theorem WorkerMove.notifies {a : MkvcDecoder F B} {w : WorkerPc F} {e : Choice X} {o : WorkerSection F B}
    {c : Cond} {k : Client F} (h : WorkerMove backend capacity a w e o) (hr : ClientReady c o.shared k)
    (hn : c ∉ o.notify) : ClientReady c a k := by
  intro hc hk
  have hready := hr hc hk
  cases h with
  | push hstop => subst hc; simp at hn
  | finish hend => subst hc; simp [workerFinish] at hn
  | _ => exact hready

theorem ClientMove.not_ready {a : MkvcDecoder F B} {k : Client F} {pc : ClientPc} {e : Choice X}
    {sec : Section F B} {c : Cond} (h : ClientMove backend capacity a k.party pc e sec)
    (hc : sec.sleep = some c) : ¬ ClientReady c sec.shared (k.after sec) := by
  intro hr
  cases h with
  | asleep hstop hempty hfin =>
      cases hc
      rcases hr rfl rfl with hr | hr | hr
      · rw [hstop] at hr; cases hr
      · exact hr hempty
      · rw [hfin] at hr; cases hr
  | _ => cases hc

theorem ClientMove.notifies {a : MkvcDecoder F B} {party : Party} {pc : ClientPc} {e : Choice X}
    {sec : Section F B} {c : Cond} {k : Client F} (h : ClientMove backend capacity a party pc e sec)
    (hr : ClientReady c sec.shared k) (hn : c ∉ sec.notify) : ClientReady c a k := by
  intro hc hk
  have hready := hr hc hk
  cases h with
  | stop => subst hc; simp [stopRequest, goto] at hn
  | take hstop hqueue => exact .inr (.inl (by simp [hqueue]))
  | clear =>
      rcases hready with hready | hready | hready
      · exact .inl hready
      · exact absurd rfl hready
      · exact .inr (.inr hready)
  | _ => exact hready

/-- The queue is cleared only behind a stop, after which the worker does not wait. -/
theorem ClientMove.notifies_worker {a : MkvcDecoder F B} {party : Party} {pc : ClientPc} {e : Choice X}
    {sec : Section F B} {c : Cond} {w : WorkerPc F} (h : ClientMove backend capacity a party pc e sec)
    (hat : party.At capacity a pc) (hr : WorkerReady capacity c sec.shared w) (hn : c ∉ sec.notify) :
    WorkerReady capacity c a w := by
  intro hc hw
  have hready := hr hc hw
  cases h with
  | stop => subst hc; simp [stopRequest, goto] at hn
  | take hstop hqueue => subst hc; simp [reply] at hn
  | clear =>
      cases party with
      | reader => cases hat
      | closer => exact .inl hat.2.1
  | _ => exact hready

/-- Whoever sleeps waits for a condition that is false. -/
theorem decoder_awaits (h : DecoderRun backend capacity b ls s) :
    Program.Awaits (WorkerReady capacity) ClientReady s := by
  induction h with
  | nil => exact ⟨by rintro _ ⟨⟩, by rintro _ _ ⟨⟩⟩
  | @snoc ls s l t hrun hst ih =>
      refine Program.Step.awaits hst ih ?_ ?_ ?_ ?_ ?_
      · intro e o c ho hc
        exact (workerAct_move ho).not_ready hc
      · intro e o c k ho hr hn
        exact (workerAct_move ho).notifies hr hn
      · intro i e o c ho hc
        obtain ⟨sec, hmove, rfl⟩ := clientAct_move ho
        exact hmove.not_ready hc
      · intro i e o c k ho hr hn
        obtain ⟨sec, hmove, rfl⟩ := clientAct_move ho
        exact hmove.notifies hr hn
      · intro i e o c w ho hr hn
        obtain ⟨sec, hmove, rfl⟩ := clientAct_move ho
        obtain ⟨hparty, hat⟩ := decoder_at hrun i
        rw [hparty] at hmove
        exact hmove.notifies_worker hat hr hn

end

end MkvCodec.Decoder
