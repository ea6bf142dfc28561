import MkvCodec.Encoder.Lemmas.Effect

/-!
# Slot conservation

An owned frame is in the free list, in a queued item, with the worker, or with a client that copies into it.
No section of a session that has not failed changes how many there are, except the one that dies of an
exception in `own_frame`: the frame it took from the free list is gone.
-/

namespace MkvCodec.Encoder

open Concurrency

variable {cfg : Config}

/-! ## Counting -/

def itemSlots (items : List Item) : Nat := (items.map Item.slots).sum

def WorkerPc.slots (w : WorkerPc) : Nat := itemSlots w.item?.toList

/-- The owned frames of a session, wherever they are. -/
def SessionState.slots {ι : Type*} [Fintype ι] (s : SessionState ι) : Nat :=
  s.shared.freeFrames.length + itemSlots s.shared.queue + s.worker.slots + ∑ i, (s.client i).pc.slots

def Choice.throwsInCopy : Choice → Bool
  | .copyThrows _ => true
  | _ => false

/-- The step at which a copy into an owned frame throws. -/
def losesSlot {ι : Type*} : SessionLabel ι → Bool
  | .client _ e => e.throwsInCopy
  | _ => false

def lostSlots {ι : Type*} (ls : List (SessionLabel ι)) : Nat := ls.countP losesSlot

theorem lostSlots_singleton {ι : Type*} (l : SessionLabel ι) : lostSlots [l] = (losesSlot l).toNat := by
  cases h : losesSlot l <;> simp [lostSlots, h]

@[simp] theorem itemSlots_nil : itemSlots [] = 0 := rfl

@[simp] theorem itemSlots_cons (item : Item) (items : List Item) :
    itemSlots (item :: items) = item.slots + itemSlots items := by simp [itemSlots]

@[simp] theorem itemSlots_append (items items' : List Item) :
    itemSlots (items ++ items') = itemSlots items + itemSlots items' := by simp [itemSlots]

@[simp] theorem ClientPc.slots_returning (status : Status) : (ClientPc.returning status).slots = 0 := rfl

@[simp] theorem ownedFrames_length (items : List Item) : (ownedFrames items).length = itemSlots items := by
  induction items with
  | nil => rfl
  | cons item items ih =>
      cases item with
      | owned frame source =>
          simp only [ownedFrames, List.filterMap_cons, List.length_cons] at ih ⊢
          simp only [ih, itemSlots_cons, Item.slots]
          omega
      | borrowed frame submission => simpa [ownedFrames, Item.slots] using ih
      | flush token => simpa [ownedFrames, Item.slots] using ih

/-! ## One section -/

theorem Effect.slots {a : Impl} {pc : ClientPc} {e : Choice} {o : Section} (h : Effect cfg a pc e o) :
    o.shared.failed = a.failed ∧
      o.shared.freeFrames.length + itemSlots o.shared.queue + o.loc.slots + e.throwsInCopy.toNat =
        a.freeFrames.length + itemSlots a.queue + pc.slots := by
  cases h with
  | quiet he hslots hwait hsleep =>
      rcases he with rfl | ⟨c, rfl⟩ <;> simp [Choice.throwsInCopy, hslots]
  | lose hslots => simp [Choice.throwsInCopy, hslots]
  | take hfree hroom hslots hslots' =>
      simp only [Choice.throwsInCopy, hfree, hslots, hslots', List.length_cons, Bool.toNat_false, true_and]
      omega
  | giveBack hslots hns =>
      simp only [Choice.throwsInCopy, hslots, Impl.returnFrame, List.length_append, List.length_singleton,
        ClientPc.slots_returning, Bool.toNat_false, true_and]
      omega
  | pushOwned hpc hf hacc hroom =>
      obtain ⟨block, rfl⟩ := hpc
      simp [Choice.throwsInCopy, Impl.pushFrame, Impl.push, ClientPc.slots, Item.slots]
      omega
  | pushBorrowed hpc hf hacc hroom =>
      rcases hpc with rfl | rfl <;> simp [Choice.throwsInCopy, Impl.pushFrame, Impl.push, Item.slots,
        ClientPc.slots]
  | pushFlush hslots hslots' hf hacc hroom hwait hsleep =>
      simp [Choice.throwsInCopy, Impl.pushFlush, Impl.push, Item.slots, hslots, hslots']
  | cancel hpc hcl hca hf => subst hpc; simp [Choice.throwsInCopy, ClientPc.slots]
  | closeRequest hpc hreq => subst hpc; simp [Choice.throwsInCopy, ClientPc.slots]
  | recordSync hpc => subst hpc; simp [Choice.throwsInCopy, ClientPc.slots]
  | setPolicy hacc hcomp hsets => cases hsets <;> simp [Choice.throwsInCopy, ClientPc.slots]
  | backend hslots hslots' hpc hwait hcall => simp [Choice.throwsInCopy, Impl.called, hslots, hslots']

/-- The worker can lose a frame only by failing. -/
theorem WorkerEffect.slots {a : Impl} {w : WorkerPc} {e : Choice} {o : WorkerSection}
    (h : WorkerEffect a w e o) (hf : o.shared.failed = false) :
    a.failed = false ∧ o.shared.freeFrames.length + itemSlots o.shared.queue + o.loc.slots =
      a.freeFrames.length + itemSlots a.queue + w.slots := by
  cases h with
  | asleep hreq hq => exact ⟨hf, rfl⟩
  | stop hreq hq => exact ⟨hf, rfl⟩
  | @pop item rest hq =>
      refine ⟨hf, ?_⟩
      simp only [hq, itemSlots_cons, WorkerPc.slots, WorkerPc.item?, Option.toList_some, Option.toList_none,
        itemSlots_nil]
      omega
  | served => exact ⟨hf, rfl⟩
  | threw => exact ⟨hf, rfl⟩
  | failure hne => simp [recordFailure] at hf
  | @success item status hok =>
      cases item with
      | owned frame source =>
          refine ⟨hf, ?_⟩
          simp [recordSuccess, Impl.recycle, WorkerPc.slots, WorkerPc.item?]
          omega
      | borrowed frame submission => exact ⟨hf, rfl⟩
      | flush token => exact ⟨hf, rfl⟩
  | closed => exact ⟨hf, rfl⟩
  | closeThrew => exact ⟨hf, rfl⟩
  | finish => exact ⟨hf, rfl⟩
  | finishFailed => cases hf
  | handler => simp [recordException] at hf

/-- The queue bound and the recorded peak. -/
def QueueBound (cfg : Config) (a : Impl) : Prop :=
  a.queue.length ≤ cfg.capacity ∧ a.peakQueueDepth ≤ cfg.capacity

theorem QueueBound.push {a : Impl} {item : Item} (h : QueueBound cfg a) (hroom : a.hasRoom cfg = true) :
    QueueBound cfg (a.pushFrame item) := by
  have hlt : a.queue.length < cfg.capacity := by simpa [Impl.hasRoom] using hroom
  have hmod : u32 (a.queue.length + 1) = a.queue.length + 1 :=
    Nat.mod_eq_of_lt (by have := cfg.capacity_lt; omega)
  refine ⟨?_, ?_⟩
  · simp only [Impl.pushFrame, Impl.push, List.length_append, List.length_singleton]; omega
  · simp only [Impl.pushFrame, hmod]; exact max_le h.2 (by omega)

theorem Effect.queueBound {a : Impl} {pc : ClientPc} {e : Choice} {o : Section} (h : Effect cfg a pc e o)
    (hb : QueueBound cfg a) : QueueBound cfg o.shared := by
  cases h with
  | quiet | lose | take | giveBack | closeRequest | recordSync | setPolicy | backend => exact hb
  | pushOwned hpc hf hacc hroom => exact hb.push hroom
  | pushBorrowed hpc hf hacc hroom => exact hb.push hroom
  | pushFlush hslots hslots' hf hacc hroom hwait hsleep =>
      refine ⟨?_, hb.2⟩
      simp only [Impl.hasRoom, decide_eq_true_eq] at hroom
      simp only [Impl.pushFlush, Impl.push, List.length_append, List.length_singleton]
      omega
  | cancel => exact ⟨Nat.zero_le _, hb.2⟩

theorem WorkerEffect.queueBound {a : Impl} {w : WorkerPc} {e : Choice} {o : WorkerSection}
    (h : WorkerEffect a w e o) (hb : QueueBound cfg a) : QueueBound cfg o.shared := by
  cases h with
  | asleep | stop | served | threw | closed | closeThrew | finish | finishFailed | handler => exact hb
  | @pop item rest hq => exact ⟨by have := hb.1; simp [hq] at this; simp; omega, hb.2⟩
  | failure hne => exact ⟨Nat.zero_le _, hb.2⟩
  | @success item status hok => cases item <;> exact hb

/-! ## Whole runs -/

variable {ι : Type*} [DecidableEq ι]

theorem Step.slots [Fintype ι] {s t : SessionState ι} {l : SessionLabel ι} (h : Step cfg s l t)
    (hf : t.shared.failed = false) : s.shared.failed = false ∧ t.slots + lostSlots [l] = s.slots := by
  cases l with
  | worker e =>
      obtain ⟨_, o, ho, rfl⟩ := h.worker_inv
      obtain ⟨hf', hs⟩ := (workerAct_effect ho).slots hf
      refine ⟨hf', ?_⟩
      simp only [SessionState.slots, lostSlots_singleton, losesSlot, Bool.toNat_false]
      omega
  | client i e =>
      obtain ⟨_, o, ho, rfl⟩ := h.client_inv
      obtain ⟨hf', hs⟩ := (clientAct_effect ho).slots
      have hsum := sum_update (fun k : Client => k.pc.slots) s.client i o.loc
      refine ⟨hf'.symm.trans hf, ?_⟩
      simp only at hs hsum
      simp only [SessionState.slots, lostSlots_singleton, losesSlot]
      omega
  | wakeWorker =>
      rw [h.wakeWorker_inv] at hf ⊢
      exact ⟨hf, rfl⟩
  | wake i =>
      rw [h.wake_inv] at hf ⊢
      exact ⟨hf, rfl⟩

theorem slots_init {ι : Type*} [Fintype ι] : (SessionState.init cfg : SessionState ι).slots = cfg.capacity := by
  have hw : (if cfg.capacity = 0 then WorkerPc.notStarted else .loop).slots = 0 := by split <;> rfl
  simp [SessionState.slots, SessionState.init, Impl.init, Client.init, ClientPc.slots, hw]

/-- The frames that are left and the frames that were lost make up the capacity. -/
theorem slots_add_lost [Fintype ι] {ls : List (SessionLabel ι)} {s : SessionState ι} (h : SessionRun cfg ls s)
    (hf : s.shared.failed = false) : s.slots + lostSlots ls = cfg.capacity := by
  induction h with
  | nil => simpa [lostSlots] using slots_init
  | snoc hrun hst ih =>
      obtain ⟨hf', hs⟩ := Step.slots hst hf
      have := ih hf'
      simp only [lostSlots, List.countP_append] at this hs ⊢
      omega

theorem queue_bound {ls : List (SessionLabel ι)} {s : SessionState ι} (h : SessionRun cfg ls s) :
    QueueBound cfg s.shared := by
  refine (program cfg).invariant (I := fun a _ _ => QueueBound cfg a) (P := fun _ _ => True)
    (h.mono fun _ _ _ hst => ⟨hst, trivial⟩) ⟨Nat.zero_le _, Nat.zero_le _⟩ ?_ ?_
  · intro _ _ _ hb _ ho
    exact (workerAct_effect ho).queueBound hb
  · intro _ _ _ _ hb _ ho
    exact (clientAct_effect ho).queueBound hb

/-! ## Conservation -/

/-- In a session that has not failed, free, queued, worker-held and client-held frames make up the capacity
and the queue stays within it, exactly as long as no copy has thrown. -/
theorem slot_conservation [Fintype ι] {ls : List (SessionLabel ι)} {s : SessionState ι}
    (h : SessionRun cfg ls s) (hf : s.shared.failed = false) :
    (s.slots = cfg.capacity ∧ s.shared.queue.length ≤ cfg.capacity ∧
      s.shared.peakQueueDepth ≤ cfg.capacity) ↔ ∀ l ∈ ls, losesSlot l = false := by
  have hsum := slots_add_lost h hf
  have hlost : lostSlots ls = 0 ↔ ∀ l ∈ ls, losesSlot l = false := by
    simp only [lostSlots, List.countP_eq_zero, Bool.not_eq_true]
  rw [← hlost]
  constructor
  · rintro ⟨hs, -⟩
    omega
  · intro h0
    exact ⟨by omega, queue_bound h⟩

/-- The calls of one client up to the copy of its first frame. -/
def firstCopy (last : Choice) : List (SessionLabel Unit) :=
  [.client () (.call (.write (smallFrame 0))), .client () .run, .client () .run, .client () .run,
    .client () last]

theorem slot_conservation_small :
    ∃ s : SessionState Unit, SessionRun (.small 1 (by decide)) (firstCopy .run) s ∧
      s.slots = 1 ∧ s.shared.queue.length ≤ 1 ∧ s.shared.peakQueueDepth ≤ 1 := by
  have h : SessionRun (.small 1 (by decide)) (firstCopy .run) _ := Program.run_of_exec rfl
  exact ⟨_, h, (slot_conservation h rfl).mpr (by decide)⟩

/-- A copy that runs out of memory: the call reports an internal error, the session goes on, and the frame is
in nobody's hands. -/
theorem slot_lost :
    ∃ s : SessionState Unit, SessionRun (.small 1 (by decide)) (firstCopy (.copyThrows none)) s ∧
      s.shared.failed = false ∧ s.slots ≠ 1 := by
  refine ⟨_, Program.run_of_exec rfl, rfl, ?_⟩
  decide

end MkvCodec.Encoder
