import MkvCodec.Encoder.Lemmas.Order

/-!
# Copy policy and layout policy

A frame is checked against the policies when its call begins and reaches the backend later. What can come
between is a setter, as long as no frame has been accepted; and `write_borrowed` does not check at all.
-/

namespace MkvCodec.Encoder

open Concurrency

variable {cfg : Config}

/-! ## Frames and policies -/

/-- The copy policy in force permits CPU frames, and the frame satisfies the layout policy in force. -/
structure Permits (cfg : Config) (a : Impl) (frame : FrameView) : Prop where
  copy : a.prohibitsCpu = false
  layout : (a.layout cfg frame).result = .ok

/-- The frame of the caller in an item. -/
def Item.source? : Item → Option FrameView
  | .owned _ source => some source
  | .borrowed frame _ => some frame
  | .flush _ => none

def BackendCall.source? : BackendCall → Option FrameView
  | .item served _ => served.source?
  | .write frame _ => some frame
  | _ => none

/-- The frame that a client carries behind the checks of its call. -/
def ClientPc.checked? : ClientPc → Option FrameView
  | .writeCpuSync frame | .enqueueOwned frame _ | .enqueueOwnedSpace frame _ | .enqueueOwnedCopy frame _ _
  | .enqueueOwnedPush frame _ _ | .enqueueBorrowed frame | .enqueueBorrowedSpace frame => some frame
  | _ => none

/-- The client carries the frame to the backend; a synchronous session takes no borrowed submission there. -/
def ClientPc.Carries (cfg : Config) (pc : ClientPc) (frame : FrameView) : Prop :=
  pc.checked? = some frame ∧ (cfg.capacity = 0 → pc = .writeCpuSync frame)

/-- The setter at which a client stands will take its permission from a frame. -/
def Withdraws (cfg : Config) (a : Impl) (setter : ClientPc) (frame : FrameView) : Prop :=
  a.acceptedFrames = 0 ∧ a.completedFrames = 0 ∧
    match setter with
    | .setCopyPolicy policy => cfg.capacity = 0 ∧ policy.allowCpuCopy = false ∧
        (policy.requireGpuResident = true → cfg.supportsGpuFrames = true)
    | .setCpuLayoutPolicy policy =>
        (validateCpuFrameLayout frame cfg.width cfg.height policy.mode policy.requiredAlignment).result ≠ .ok
    | _ => False

/-- The condition on a step: `write_borrowed` takes only a frame that the policies in force permit, and no
setter withdraws the permission of a frame that another client carries. -/
def Careful {ι : Type*} (cfg : Config) (s : SessionState ι) : SessionLabel ι → Prop
  | .client i .run =>
      (∀ frame, (s.client i).pc = .writeBorrowed frame → cfg.capacity = 0 → s.shared.failed = false →
        s.shared.accepting = true → Permits cfg s.shared frame) ∧
      ∀ j frame, (s.client j).pc.Carries cfg frame → ¬ Withdraws cfg s.shared (s.client i).pc frame
  | _ => True

structure SamePolicy (a b : Impl) : Prop where
  requireGpuResident : b.requireGpuResident = a.requireGpuResident
  allowGpuCopy : b.allowGpuCopy = a.allowGpuCopy
  allowCpuCopy : b.allowCpuCopy = a.allowCpuCopy
  cpuLayoutMode : b.cpuLayoutMode = a.cpuLayoutMode
  cpuRequiredAlignment : b.cpuRequiredAlignment = a.cpuRequiredAlignment

theorem SamePolicy.refl (a : Impl) : SamePolicy a a := ⟨rfl, rfl, rfl, rfl, rfl⟩

theorem SamePolicy.trans {a b c : Impl} (h : SamePolicy a b) (h' : SamePolicy b c) : SamePolicy a c :=
  ⟨h'.1.trans h.1, h'.2.trans h.2, h'.3.trans h.3, h'.4.trans h.4, h'.5.trans h.5⟩

theorem SamePolicy.prohibitsCpu {a b : Impl} (h : SamePolicy a b) : b.prohibitsCpu = a.prohibitsCpu := by
  simp only [Impl.prohibitsCpu, h.requireGpuResident, h.allowCpuCopy]

theorem SamePolicy.layout {a b : Impl} (h : SamePolicy a b) (frame : FrameView) :
    b.layout cfg frame = a.layout cfg frame := by
  simp only [Impl.layout, h.cpuLayoutMode, h.cpuRequiredAlignment]

theorem WorkerEffect.samePolicy {a : Impl} {w : WorkerPc} {e : Choice} {o : WorkerSection}
    (h : WorkerEffect a w e o) : SamePolicy a o.shared := by
  cases h with
  | @success item status hok => cases item <;> exact ⟨rfl, rfl, rfl, rfl, rfl⟩
  | _ => exact ⟨rfl, rfl, rfl, rfl, rfl⟩

/-- Only a setter changes a policy, and only before the first frame. -/
theorem Effect.samePolicy {a : Impl} {pc : ClientPc} {e : Choice} {o : Section} (h : Effect cfg a pc e o) :
    SamePolicy a o.shared ∨ a.acceptedFrames = 0 ∧ a.completedFrames = 0 := by
  cases h with
  | setPolicy hacc hcomp hsets => exact .inr ⟨hacc, hcomp⟩
  | _ => exact .inl ⟨rfl, rfl, rfl, rfl, rfl⟩

theorem Effect.acceptedFrames_le {a : Impl} {pc : ClientPc} {e : Choice} {o : Section}
    (h : Effect cfg a pc e o) : a.acceptedFrames ≤ o.shared.acceptedFrames := by
  cases h with
  | pushOwned | pushBorrowed | recordSync => exact Nat.le_succ _
  | _ => exact Nat.le_refl _

/-! ## How a client comes to carry a frame -/

theorem write_checked {a : Impl} {frame f : FrameView} {block : Bool}
    (hf : (write cfg frame block a).loc.checked? = some f) : f = frame ∧ Permits cfg a f := by
  unfold write at hf
  split at hf
  · cases hf
  rename_i hcopy
  split at hf
  · cases hf
  split at hf
  · cases hf
  split at hf
  · cases hf
  split at hf
  · cases hf
  rename_i hlayout
  have hframe : frame = f := by
    simp only [goto] at hf
    split at hf <;> exact Option.some.inj hf
  subst hframe
  exact ⟨rfl, ⟨by simpa using hcopy, by simpa using hlayout⟩⟩

theorem writeBorrowed_checked {a : Impl} {frame f : FrameView}
    (hf : (writeBorrowed cfg frame a).loc.checked? = some f) :
    f = frame ∧ cfg.capacity = 0 ∧ a.failed = false ∧ a.accepting = true := by
  unfold writeBorrowed at hf
  split at hf
  · cases hf
  rename_i hcap
  split at hf
  · cases hf
  rename_i hfail
  split at hf
  · cases hf
  rename_i hacc
  exact ⟨(Option.some.inj hf).symm, by simpa using hcap, by simpa using hfail, by simpa using hacc⟩

theorem submitBorrowed_checked {a : Impl} {frame f : FrameView}
    (hf : (submitBorrowed cfg frame a).loc.checked? = some f) :
    f = frame ∧ (a.layout cfg f).result = .ok := by
  unfold submitBorrowed at hf
  split at hf
  · cases hf
  · rename_i hlayout
    obtain rfl : frame = f := Option.some.inj hf
    exact ⟨rfl, by simpa using hlayout⟩

/-- Behind the checks of its call a client carries the same frame or none. -/
def ClientPc.StaysWith (frame : FrameView) (pc : ClientPc) : Prop :=
  ∀ f, pc.checked? = some f → frame = f ∧ ∀ g, pc ≠ .writeCpuSync g

theorem ClientPc.staysWith_returning (frame : FrameView) (status : Status) :
    (ClientPc.returning status).StaysWith frame := by rintro f ⟨⟩

theorem enqueueOwned_staysWith {a : Impl} {frame : FrameView} {block : Bool} :
    (enqueueOwned cfg frame block a).loc.StaysWith frame := by
  unfold enqueueOwned
  repeat' split
  all_goals first
    | exact ClientPc.staysWith_returning _ _
    | intro f hf; exact ⟨Option.some.inj hf, by simp [goto]⟩

theorem enqueueOwnedSpace_staysWith {a : Impl} {frame : FrameView} {block : Bool} :
    (enqueueOwnedSpace cfg frame block a).loc.StaysWith frame := by
  unfold enqueueOwnedSpace
  repeat' split
  all_goals first
    | exact ClientPc.staysWith_returning _ _
    | intro f hf; exact ⟨Option.some.inj hf, by simp [goto, sleepOn]⟩

theorem enqueueOwnedCopy_staysWith {a : Impl} {frame : FrameView} {block : Bool} {owned : OwnedFrame} :
    (enqueueOwnedCopy frame block owned a).loc.StaysWith frame := by
  unfold enqueueOwnedCopy
  repeat' split
  · rintro f ⟨⟩
  · intro f hf; exact ⟨Option.some.inj hf, by simp [goto]⟩

theorem enqueueOwnedPush_staysWith {a : Impl} {frame : FrameView} {block : Bool} {owned : OwnedFrame} :
    (enqueueOwnedPush cfg frame block owned a).loc.StaysWith frame := by
  unfold enqueueOwnedPush
  repeat' split
  all_goals first
    | exact ClientPc.staysWith_returning _ _
    | intro f hf; exact ⟨Option.some.inj hf, by simp [sleepOn]⟩

theorem enqueueBorrowedSpace_staysWith {a : Impl} {frame : FrameView} :
    (enqueueBorrowedSpace cfg frame a).loc.StaysWith frame := by
  unfold enqueueBorrowedSpace
  repeat' split
  all_goals first
    | exact ClientPc.staysWith_returning _ _
    | intro f hf; exact ⟨Option.some.inj hf, by simp [sleepOn]⟩

theorem enqueueBorrowed_staysWith {a : Impl} {frame : FrameView} :
    (enqueueBorrowed cfg frame a).loc.StaysWith frame := by
  unfold enqueueBorrowed
  repeat' split
  all_goals first
    | exact ClientPc.staysWith_returning _ _
    | exact enqueueBorrowedSpace_staysWith

theorem flushSpace_checked {a : Impl} : (flushSpace cfg a).loc.checked? = none := by
  unfold flushSpace
  split
  · rfl
  split
  · rfl
  split
  · rfl
  · rcases flushWait_cases (a.nextFlushToken + 1) a.pushFlush with ⟨hw, -⟩ | ⟨status, hw⟩ <;> rw [hw] <;> rfl

/-- A client comes to carry a frame at the first section of its call and keeps it until it hands it over. -/
theorem clientSection_checked {a : Impl} {pc : ClientPc} {o : Section} {f : FrameView}
    (h : clientSection cfg a pc = some o) (hf : o.loc.checked? = some f) :
    (pc.checked? = some f ∧ ∀ g, o.loc ≠ .writeCpuSync g) ∨ (∃ block, pc = .write f block ∧ Permits cfg a f) ∨
      (pc = .writeBorrowed f ∧ cfg.capacity = 0 ∧ a.failed = false ∧ a.accepting = true) ∨
      (pc = .submitBorrowed f ∧ (a.layout cfg f).result = .ok ∧ ∀ g, o.loc ≠ .writeCpuSync g) := by
  cases pc with
  | idle | writeCpuSync | flushSync | closeSync | returning => cases h
  | write frame block =>
      cases h
      obtain ⟨rfl, hp⟩ := write_checked hf
      exact .inr (.inl ⟨block, rfl, hp⟩)
  | writeBorrowed frame =>
      cases h
      obtain ⟨rfl, hb⟩ := writeBorrowed_checked hf
      exact .inr (.inr (.inl ⟨rfl, hb⟩))
  | submitBorrowed frame =>
      cases h
      obtain ⟨rfl, hlayout⟩ := submitBorrowed_checked hf
      refine .inr (.inr (.inr ⟨rfl, hlayout, ?_⟩))
      unfold submitBorrowed
      split <;> simp [reply, goto]
  | enqueueOwned frame block =>
      cases h
      obtain ⟨rfl, hne⟩ := enqueueOwned_staysWith f hf
      exact .inl ⟨rfl, hne⟩
  | enqueueOwnedSpace frame block =>
      cases h
      obtain ⟨rfl, hne⟩ := enqueueOwnedSpace_staysWith f hf
      exact .inl ⟨rfl, hne⟩
  | enqueueOwnedCopy frame block owned =>
      cases h
      obtain ⟨rfl, hne⟩ := enqueueOwnedCopy_staysWith f hf
      exact .inl ⟨rfl, hne⟩
  | enqueueOwnedPush frame block owned =>
      cases h
      obtain ⟨rfl, hne⟩ := enqueueOwnedPush_staysWith f hf
      exact .inl ⟨rfl, hne⟩
  | enqueueBorrowed frame =>
      cases h
      obtain ⟨rfl, hne⟩ := enqueueBorrowed_staysWith f hf
      exact .inl ⟨rfl, hne⟩
  | enqueueBorrowedSpace frame =>
      cases h
      obtain ⟨rfl, hne⟩ := enqueueBorrowedSpace_staysWith f hf
      exact .inl ⟨rfl, hne⟩
  | enqueueOwnedReturn owned status => cases h; cases hf
  | flush =>
      cases h
      unfold flush at hf
      split at hf
      · split_ifs at hf <;> cases hf
      · rw [flushSpace_checked] at hf; cases hf
  | flushSpace => cases h; rw [flushSpace_checked] at hf; cases hf
  | flushWait token =>
      cases h
      rcases flushWait_cases token a with ⟨hw, -⟩ | ⟨status, hw⟩ <;> rw [hw] at hf <;> cases hf
  | writeCpuSyncRecord status => cases h; unfold writeCpuSyncRecord at hf; split at hf <;> cases hf
  | flushSyncRecord status => cases h; cases hf
  | cancel => cases h; unfold cancel at hf; split_ifs at hf <;> cases hf
  | close => cases h; unfold close at hf; split_ifs at hf <;> cases hf
  | closeSyncRecord status => cases h; cases hf
  | closeJoin =>
      simp only [clientSection] at h
      split at h <;> cases h
      unfold closeJoin at hf
      split at hf <;> cases hf
  | setCopyPolicy policy => cases h; unfold setCopyPolicy at hf; split_ifs at hf <;> cases hf
  | setCpuLayoutPolicy policy => cases h; unfold setCpuLayoutPolicy at hf; split_ifs at hf <;> cases hf

/-! ## The invariant -/

/-- Frames on their way to the backend are permitted. -/
structure Guarded {ι : Type*} (cfg : Config) (a : Impl) (w : WorkerPc) (ks : ι → Client) : Prop where
  async : cfg.capacity ≠ 0 → a.prohibitsCpu = false
  sync : ∀ i frame, (ks i).pc = .writeCpuSync frame → a.prohibitsCpu = false
  carried : ∀ i frame, (ks i).pc.Carries cfg frame → (a.layout cfg frame).result = .ok
  queued : ∀ item ∈ w.taken ++ a.queue, ∀ frame, item.source? = some frame →
    a.acceptedFrames ≠ 0 ∧ (a.layout cfg frame).result = .ok

/-- A step that keeps the policies and adds no frame to the queue. -/
theorem Guarded.frame {ι : Type*} {a b : Impl} {w w' : WorkerPc} {ks : ι → Client} (h : Guarded cfg a w ks)
    (hp : SamePolicy a b) (hq : ∀ item, item ∈ w'.taken ++ b.queue → item ∈ w.taken ++ a.queue ∨ item.source? = none)
    (hacc : a.acceptedFrames ≤ b.acceptedFrames) : Guarded cfg b w' ks := by
  refine ⟨?_, ?_, ?_, fun item hm frame hs => ?_⟩
  · rw [hp.prohibitsCpu]; exact h.async
  · rw [hp.prohibitsCpu]; exact h.sync
  · intro i frame hc
    rw [hp.layout]; exact h.carried i frame hc
  · rw [hp.layout]
    rcases hq item hm with hm | hnone
    · obtain ⟨hne, hl⟩ := h.queued item hm frame hs
      exact ⟨by omega, hl⟩
    · rw [hnone] at hs; cases hs

/-- The push of a frame that the layout policy admits. -/
theorem Guarded.push {ι : Type*} {a b : Impl} {w : WorkerPc} {ks : ι → Client} {item : Item} {frame : FrameView}
    (h : Guarded cfg a w ks) (hitem : item.source? = some frame) (hl : (a.layout cfg frame).result = .ok)
    (hp : SamePolicy a b) (hq : b.queue = a.queue ++ [item]) (hacc : b.acceptedFrames = a.acceptedFrames + 1) :
    Guarded cfg b w ks := by
  refine ⟨?_, ?_, ?_, fun item' hm frame' hs => ?_⟩
  · rw [hp.prohibitsCpu]; exact h.async
  · rw [hp.prohibitsCpu]; exact h.sync
  · intro i frame' hc
    rw [hp.layout]; exact h.carried i frame' hc
  · rw [hp.layout]
    rw [hq, ← List.append_assoc, List.mem_append, List.mem_singleton] at hm
    rcases hm with hm | rfl
    · exact ⟨by omega, (h.queued item' hm frame' hs).2⟩
    · rw [hitem] at hs
      cases hs
      exact ⟨by omega, hl⟩

theorem WorkerEffect.guarded {ι : Type*} {a : Impl} {w : WorkerPc} {e : Choice} {o : WorkerSection}
    {ks : ι → Client} (h : WorkerEffect a w e o) (hg : Guarded cfg a w ks) :
    Guarded cfg o.shared o.loc ks := by
  refine hg.frame h.samePolicy (fun item hm => .inl ?_) (Nat.le_of_eq h.acceptedFrames_eq.symm)
  cases h with
  | @pop item' rest hq => simpa [WorkerPc.taken, hq] using hm
  | @success item' status hok => cases item' <;> exact hm
  | served | threw => exact List.mem_append_right _ hm
  | failure hne => cases hm
  | _ => exact hm

theorem capacity_ne_zero_of_hasRoom {a : Impl} (h : a.hasRoom cfg = true) : cfg.capacity ≠ 0 := by
  simp only [Impl.hasRoom, decide_eq_true_eq] at h
  omega

section

variable {ι : Type*} {ks : ι → Client} {i : ι} {a : Impl} {w : WorkerPc}

/-- What a setter writes leaves the frames on their way permitted. -/
theorem Guarded.sets {r g c : Bool} {m : CpuLayoutMode} {n : Nat} (hg : Guarded cfg a w ks)
    (hacc : a.acceptedFrames = 0) (hcomp : a.completedFrames = 0) (hsets : Sets cfg a (ks i).pc r c m n)
    (hcap : ∀ j frame, (ks j).pc = .writeCpuSync frame → cfg.capacity = 0)
    (hcare : ∀ j frame, (ks j).pc.Carries cfg frame → ¬ Withdraws cfg a (ks i).pc frame) :
    Guarded cfg { a with requireGpuResident := r, allowGpuCopy := g, allowCpuCopy := c, cpuLayoutMode := m,
                         cpuRequiredAlignment := n } w ks := by
  generalize (ks i).pc = pc at hsets hcare
  cases hsets with
  | @copy policy hqueue hgpu =>
      refine ⟨fun hne => ?_, fun j frame hj => ?_, hg.carried, hg.queued⟩
      · have hkeep : ¬ (policy.requireGpuResident = true ∨ policy.allowCpuCopy = false) :=
          fun hor => hne (hqueue hor)
        simp only [not_or, Bool.not_eq_true, Bool.not_eq_false] at hkeep
        simp [Impl.prohibitsCpu, hkeep]
      · have hallow : policy.allowCpuCopy = true := by
          by_contra hoff
          rw [Bool.not_eq_true] at hoff
          have hcarry : (ks j).pc.Carries cfg frame := ⟨by rw [hj]; rfl, fun _ => hj⟩
          exact hcare j frame hcarry ⟨hacc, hcomp, hcap j frame hj, hoff, fun hr => (hgpu hr).1⟩
        have hreq : policy.requireGpuResident = false := by
          by_contra hr
          rw [(hgpu (by simpa using hr)).2] at hallow
          cases hallow
        simp [Impl.prohibitsCpu, hreq, hallow]
  | @layout policy =>
      refine ⟨hg.async, hg.sync, fun j frame hj => ?_, fun item hm frame hs => ?_⟩
      · by_contra hbad
        exact hcare j frame hj ⟨hacc, hcomp, hbad⟩
      · exact absurd hacc (hg.queued item hm frame hs).1

theorem Effect.guarded {e : Choice} {o : Section} (h : Effect cfg a (ks i).pc e o) (hg : Guarded cfg a w ks)
    (hcap : ∀ j frame, (ks j).pc = .writeCpuSync frame → cfg.capacity = 0)
    (hcare : e = .run → ∀ j frame, (ks j).pc.Carries cfg frame → ¬ Withdraws cfg a (ks i).pc frame) :
    Guarded cfg o.shared w ks := by
  have hsame : SamePolicy a a := .refl a
  generalize hpc : (ks i).pc = pc at h hcare
  cases h with
  | quiet | lose => exact hg
  | pushOwned hpush hf hacc hroom =>
      obtain ⟨block, rfl⟩ := hpush
      have hne := capacity_ne_zero_of_hasRoom hroom
      have hl := hg.carried i _ ⟨by rw [hpc]; rfl, fun h0 => absurd h0 hne⟩
      exact hg.push rfl hl ⟨rfl, rfl, rfl, rfl, rfl⟩ rfl rfl
  | @pushBorrowed frame hpush hf hacc hroom =>
      have hne := capacity_ne_zero_of_hasRoom hroom
      have hl : (a.layout cfg frame).result = .ok := by
        refine hg.carried i _ ⟨?_, fun h0 => absurd h0 hne⟩
        rcases hpush with hpush | hpush <;> rw [hpc, hpush] <;> rfl
      exact hg.push rfl hl ⟨rfl, rfl, rfl, rfl, rfl⟩ rfl rfl
  | pushFlush =>
      refine hg.frame ⟨rfl, rfl, rfl, rfl, rfl⟩ (fun item hm => ?_) (Nat.le_refl _)
      simp only [Impl.pushFlush, Impl.push, ← List.append_assoc, List.mem_append, List.mem_singleton] at hm
      rcases hm with hm | rfl
      · exact .inl (List.mem_append.mpr hm)
      · exact .inr rfl
  | cancel =>
      refine hg.frame ⟨rfl, rfl, rfl, rfl, rfl⟩ (fun item hm => .inl ?_) (Nat.le_refl _)
      rw [List.append_nil] at hm
      exact List.mem_append_left _ hm
  | recordSync => exact hg.frame ⟨rfl, rfl, rfl, rfl, rfl⟩ (fun item hm => .inl hm) (Nat.le_succ _)
  | setPolicy hacc hcomp hsets =>
      rw [← hpc] at hsets hcare
      exact hg.sets hacc hcomp hsets hcap (hcare rfl)
  | _ => exact hg.frame ⟨rfl, rfl, rfl, rfl, rfl⟩ (fun item hm => .inl hm) (Nat.le_refl _)

/-- A client moves to a point at which what it carries is permitted. -/
theorem Guarded.move [DecidableEq ι] {k : Client} (hg : Guarded cfg a w ks)
    (hsync : ∀ frame, k.pc = .writeCpuSync frame → a.prohibitsCpu = false)
    (hcarry : ∀ frame, k.pc.Carries cfg frame → (a.layout cfg frame).result = .ok) :
    Guarded cfg a w (Function.update ks i k) := by
  refine ⟨hg.async, fun j frame hj => ?_, fun j frame hj => ?_, hg.queued⟩
  · by_cases hji : j = i
    · subst hji; rw [Function.update_self] at hj; exact hsync frame hj
    · rw [Function.update_of_ne hji] at hj; exact hg.sync j frame hj
  · by_cases hji : j = i
    · subst hji; rw [Function.update_self] at hj; exact hcarry frame hj
    · rw [Function.update_of_ne hji] at hj; exact hg.carried j frame hj

end

/-- A client that has set a policy carries no frame. -/
theorem Effect.samePolicy_of_checked {a : Impl} {pc : ClientPc} {e : Choice} {o : Section} {f : FrameView}
    (h : Effect cfg a pc e o) (hf : o.loc.checked? = some f) : SamePolicy a o.shared := by
  cases h with
  | setPolicy => cases hf
  | _ => exact ⟨rfl, rfl, rfl, rfl, rfl⟩

/-- Whatever a client carries after an action was carried before it or has just passed the checks. -/
theorem Action.checked {a : Impl} {k : Client} {e : Choice} {o : Outcome Impl Client Cond} {f : FrameView}
    (h : Action cfg a k e o) (hf : o.loc.pc.checked? = some f) :
    e = .run ∧ ((k.pc.checked? = some f ∧ ∀ g, o.loc.pc ≠ .writeCpuSync g) ∨
      (∃ block, k.pc = .write f block ∧ Permits cfg a f) ∨
      (k.pc = .writeBorrowed f ∧ cfg.capacity = 0 ∧ a.failed = false ∧ a.accepting = true) ∨
      (k.pc = .submitBorrowed f ∧ (a.layout cfg f).result = .ok ∧ ∀ g, o.loc.pc ≠ .writeCpuSync g)) := by
  cases h with
  | @start c hpc => cases c <;> cases hf
  | finish hpc hcur => cases hf
  | threw hpc hcur => cases hf
  | act hs => exact ⟨rfl, clientSection_checked hs hf⟩
  | @backend ended c s hcur hs =>
      generalize k.pc = pc at hs
      cases pc with
      | writeCpuSync frame => cases ended <;> cases hs <;> cases hf
      | flushSync => cases ended <;> cases hs <;> cases hf
      | closeSync => cases ended <;> cases hs <;> cases hf
      | _ => cases hs

/-! ## Whole runs -/

variable {ι : Type*} [DecidableEq ι]

theorem Client.Placed.capacity_of_writeCpuSync {k : Client} {frame : FrameView} (h : k.Placed cfg)
    (hpc : k.pc = .writeCpuSync frame) : cfg.capacity = 0 := by
  obtain ⟨pc, current, history⟩ := k
  cases current with
  | none =>
      have hidle : pc = .idle := h
      rw [hidle] at hpc
      cases hpc
  | some c =>
      have hw : pc.Within cfg c := h
      rw [show pc = .writeCpuSync frame from hpc] at hw
      exact hw.1

theorem guarded_run {ls : List (SessionLabel ι)} {s : SessionState ι}
    (h : Run (Restrict (Step cfg) (Careful cfg)) (SessionState.init cfg) ls s) :
    Guarded cfg s.shared s.worker s.client := by
  induction h with
  | nil =>
      refine ⟨fun _ => rfl, by rintro _ _ ⟨⟩, by rintro _ _ ⟨⟨⟩, -⟩, fun item hm => ?_⟩
      simp only [SessionState.init, Impl.init, List.append_nil] at hm
      split at hm <;> cases hm
  | @snoc ls s l t hrun hst ih =>
      obtain ⟨hst, hcare⟩ := hst
      cases l with
      | worker e => obtain ⟨_, o, ho, rfl⟩ := hst.worker_inv; exact (workerAct_effect ho).guarded ih
      | wakeWorker => rw [hst.wakeWorker_inv]; exact ih
      | wake i => rw [hst.wake_inv]; exact ih
      | client i e =>
          obtain ⟨_, o, ho, rfl⟩ := hst.client_inv
          have he := clientAct_effect ho
          have hact := clientAct_action ho
          have hcap : ∀ j frame, (s.client j).pc = .writeCpuSync frame → cfg.capacity = 0 :=
            fun j frame hj => (session_placed hrun.of_restrict j).capacity_of_writeCpuSync hj
          have hg : Guarded cfg o.shared s.worker s.client := by
            refine he.guarded (o := ⟨o.shared, o.loc.pc, o.notify, o.sleep⟩) ih hcap ?_
            rintro rfl
            exact hcare.2
          refine hg.move (fun frame hpc => ?_) (fun frame hcarry => ?_)
          · have hf : o.loc.pc.checked? = some frame := by rw [hpc]; rfl
            rw [(he.samePolicy_of_checked hf).prohibitsCpu]
            obtain ⟨rfl, ⟨-, hne⟩ | ⟨block, -, hp⟩ | ⟨hb, h0, hfail, hacc⟩ | ⟨-, -, hne⟩⟩ := hact.checked hf
            · exact absurd hpc (hne frame)
            · exact hp.copy
            · exact (hcare.1 frame hb h0 hfail hacc).copy
            · exact absurd hpc (hne frame)
          · obtain ⟨hf, hsync⟩ := hcarry
            rw [(he.samePolicy_of_checked hf).layout]
            obtain ⟨rfl, ⟨hold, hne⟩ | ⟨block, -, hp⟩ | ⟨hb, h0, hfail, hacc⟩ | ⟨-, hl, -⟩⟩ := hact.checked hf
            · exact ih.carried i frame ⟨hold, fun h0 => absurd (hsync h0) (hne frame)⟩
            · exact hp.layout
            · exact (hcare.1 frame hb h0 hfail hacc).layout
            · exact hl

/-! ## The policies hold -/

theorem eq_of_append_singleton {α : Type*} {xs : List α} {x y : α} (h : xs ++ [x] = xs ++ [y]) : x = y := by
  simpa using h

theorem Action.called {a : Impl} {k : Client} {e : Choice} {o : Outcome Impl Client Cond} {call : BackendCall}
    {f : FrameView} (h : Action cfg a k e o) (hc : o.shared.calls = a.calls ++ [call])
    (hf : call.source? = some f) : k.pc = .writeCpuSync f := by
  have hne : a.calls ≠ a.calls ++ [call] := by simp
  cases h with
  | start => exact absurd hc hne
  | finish => exact absurd hc hne
  | threw => exact absurd hc hne
  | act hs =>
      have he := clientSection_effect hs
      generalize k.pc = pc at he
      cases he <;> exact absurd hc hne
  | @backend ended c s hcur hs =>
      generalize k.pc = pc at hs ⊢
      cases pc with
      | writeCpuSync frame =>
          cases ended <;> cases hs <;> obtain rfl := eq_of_append_singleton hc <;> cases hf <;> rfl
      | flushSync => cases ended <;> cases hs <;> obtain rfl := eq_of_append_singleton hc <;> cases hf
      | closeSync => cases ended <;> cases hs <;> obtain rfl := eq_of_append_singleton hc <;> cases hf
      | _ => cases hs

theorem WorkerEffect.called {a : Impl} {w : WorkerPc} {e : Choice} {o : WorkerSection} {call : BackendCall}
    {f : FrameView} (h : WorkerEffect a w e o) (hc : o.shared.calls = a.calls ++ [call])
    (hf : call.source? = some f) : ∃ item, w = .serve item ∧ item.source? = some f := by
  have hne : a.calls ≠ a.calls ++ [call] := by simp
  cases h with
  | served => obtain rfl := eq_of_append_singleton hc; exact ⟨_, rfl, hf⟩
  | threw => obtain rfl := eq_of_append_singleton hc; exact ⟨_, rfl, hf⟩
  | closed => obtain rfl := eq_of_append_singleton hc; cases hf
  | closeThrew => obtain rfl := eq_of_append_singleton hc; cases hf
  | @success item status hok => cases item <;> exact absurd hc hne
  | _ => exact absurd hc hne

theorem Step.frozen {s t : SessionState ι} {l : SessionLabel ι} (h : Step cfg s l t)
    (hacc : s.shared.acceptedFrames ≠ 0) : t.shared.acceptedFrames ≠ 0 ∧ SamePolicy s.shared t.shared := by
  cases l with
  | worker e =>
      obtain ⟨_, o, ho, rfl⟩ := h.worker_inv
      have he := workerAct_effect ho
      exact ⟨by rw [he.acceptedFrames_eq]; exact hacc, he.samePolicy⟩
  | client i e =>
      obtain ⟨_, o, ho, rfl⟩ := h.client_inv
      have he := clientAct_effect ho
      have hle := he.acceptedFrames_le
      refine ⟨by simp only at hle ⊢; omega, ?_⟩
      rcases he.samePolicy with hsame | ⟨h0, -⟩
      · exact hsame
      · exact absurd h0 hacc
  | wakeWorker => rw [h.wakeWorker_inv]; exact ⟨hacc, .refl _⟩
  | wake i => rw [h.wake_inv]; exact ⟨hacc, .refl _⟩

/-- In a run of careful steps every frame that goes to the backend is permitted by the policies in force; and
in any run the policies are frozen once a frame has been accepted. -/
theorem policies_hold {ls : List (SessionLabel ι)} {s : SessionState ι} :
    (Run (Restrict (Step cfg) (Careful cfg)) (SessionState.init cfg) ls s → ∀ {l t call frame}, Step cfg s l t →
      t.shared.calls = s.shared.calls ++ [call] → call.source? = some frame → Permits cfg s.shared frame) ∧
    (SessionRun cfg ls s → s.shared.acceptedFrames ≠ 0 → ∀ {ls' t}, Run (Step cfg) s ls' t →
      SamePolicy s.shared t.shared) := by
  constructor
  · intro h l t call frame hst hcall hsrc
    have hg := guarded_run h
    cases l with
    | worker e =>
        obtain ⟨_, o, ho, rfl⟩ := hst.worker_inv
        obtain ⟨item, hw, hitem⟩ := (workerAct_effect ho).called hcall hsrc
        have hcap : cfg.capacity ≠ 0 := by
          intro h0
          rw [(session_notStarted h.of_restrict).mpr h0] at hw
          cases hw
        have hmem : item ∈ s.worker.taken ++ s.shared.queue := by rw [hw]; simp [WorkerPc.taken]
        exact ⟨hg.async hcap, (hg.queued item hmem frame hitem).2⟩
    | client i e =>
        obtain ⟨_, o, ho, rfl⟩ := hst.client_inv
        have hpc := (clientAct_action ho).called hcall hsrc
        exact ⟨hg.sync i frame hpc, hg.carried i frame ⟨by rw [hpc]; rfl, fun _ => hpc⟩⟩
    | wakeWorker => rw [hst.wakeWorker_inv] at hcall; simp at hcall
    | wake i => rw [hst.wake_inv] at hcall; simp at hcall
  · intro _ hacc ls' t hrun
    have hfrozen := hrun.lift (Q := fun s t : SessionState ι => s.shared.acceptedFrames ≠ 0 →
      t.shared.acceptedFrames ≠ 0 ∧ SamePolicy s.shared t.shared) (fun s h => ⟨h, .refl _⟩)
      (fun hab hbc h => ⟨(hbc (hab h).1).1, (hab h).2.trans (hbc (hab h).1).2⟩)
      (fun hst h => Step.frozen hst h)
    exact (hfrozen hacc).2

/-- With one client only a borrowed write has to be looked at. -/
def carefulAlone (cfg : Config) (s : SessionState Unit) : SessionLabel Unit → Bool
  | .client _ .run =>
      match (s.client ()).pc with
      | .writeBorrowed frame => !s.shared.prohibitsCpu && decide ((s.shared.layout cfg frame).result = .ok)
      | _ => true
  | _ => true

theorem careful_of_alone (s : SessionState Unit) (l : SessionLabel Unit) (h : carefulAlone cfg s l = true) :
    Careful cfg s l := by
  cases l with
  | client i e =>
      cases e with
      | run =>
          refine ⟨fun frame hpc _ _ _ => ?_, fun j frame hcarry hw => ?_⟩
          · rw [carefulAlone, show (s.client ()).pc = .writeBorrowed frame from hpc] at h
            simp only [Bool.and_eq_true, Bool.not_eq_true', decide_eq_true_eq] at h
            exact ⟨h.1, h.2⟩
          · -- a client at a setter carries no frame
            have hchecked := hcarry.1
            cases hpc : (s.client i).pc with
            | setCopyPolicy | setCpuLayoutPolicy => rw [show (s.client j).pc = _ from hpc] at hchecked; cases hchecked
            | _ => rw [hpc] at hw; exact hw.2.2
      | _ => trivial
  | _ => trivial

/-- A policy of each kind is set, and a borrowed frame that both permit is written. -/
def permittedRun : List (SessionLabel Unit) :=
  [.client () (.call (.setCopyPolicy ⟨false, false, true⟩)), .client () .run, .client () .run,
    .client () (.call (.setCpuLayoutPolicy ⟨.strict, 2⟩)), .client () .run, .client () .run,
    .client () (.call (.writeBorrowed (smallFrame 0))), .client () .run]

/-- The call returns, and setters come too late. -/
def refusedRun : List (SessionLabel Unit) :=
  [.client () .run, .client () (.call (.setCopyPolicy ⟨false, true, false⟩)), .client () .run, .client () .run,
    .client () (.call (.setCpuLayoutPolicy ⟨.allowCopy, 1⟩)), .client () .run, .client () .run]

theorem policies_hold_small :
    ∃ s t u v : SessionState Unit, SessionRun (.small 0 (by decide)) permittedRun s ∧
      Step (.small 0 (by decide)) s (.client () (.backend (.returned .ok))) t ∧
      t.shared.calls = [.write (smallFrame 0) (.returned .ok)] ∧ Permits (.small 0 (by decide)) s.shared (smallFrame 0) ∧
      Step (.small 0 (by decide)) t (.client () .run) u ∧ Run (Step (.small 0 (by decide))) u refusedRun v ∧
      SamePolicy u.shared v.shared ∧ v.shared.allowGpuCopy = false ∧ v.shared.cpuLayoutMode = .strict := by
  have hs : Run (Restrict (Step (.small 0 (by decide))) (Careful (.small 0 (by decide))))
      (SessionState.init (.small 0 (by decide))) permittedRun _ :=
    Program.restrict_of_exec rfl rfl careful_of_alone
  have hpermits := policies_hold.1 hs (l := .client () (.backend (.returned .ok))) rfl rfl rfl
  have hu : SessionRun (.small 0 (by decide))
      (permittedRun ++ [.client () (.backend (.returned .ok)), .client () .run]) _ := Program.run_of_exec rfl
  have hfrozen (v : SessionState Unit) (hv : Run (Step (.small 0 (by decide))) _ refusedRun v) :=
    policies_hold.2 hu (by decide) hv
  exact ⟨_, _, _, _, hs.of_restrict, rfl, rfl, hpermits, rfl, Program.run_of_exec (by rfl),
    hfrozen _ (Program.run_of_exec (by rfl)), rfl, rfl⟩

/-- A copy policy that prohibits CPU frames, then a borrowed write. -/
def borrowedRun : List (SessionLabel Unit) :=
  [.client () (.call (.setCopyPolicy ⟨false, true, false⟩)), .client () .run, .client () .run,
    .client () (.call (.writeBorrowed (smallFrame 0))), .client () .run]

/-- The frame of the borrowed write goes to the backend although the copy policy prohibits it. -/
theorem borrowed_write_unchecked :
    ∃ s t : SessionState Unit, SessionRun (.small 0 (by decide)) borrowedRun s ∧
      Step (.small 0 (by decide)) s (.client () (.backend (.returned .ok))) t ∧
      t.shared.calls = s.shared.calls ++ [.write (smallFrame 0) (.returned .ok)] ∧
      ¬ Permits (.small 0 (by decide)) s.shared (smallFrame 0) := by
  refine ⟨_, _, Program.run_of_exec rfl, rfl, rfl, ?_⟩
  intro hpermits
  cases hpermits.copy

end MkvCodec.Encoder
