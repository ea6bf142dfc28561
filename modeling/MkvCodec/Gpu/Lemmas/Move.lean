import Mathlib.Algebra.Order.BigOperators.Group.Finset
import MkvCodec.Gpu.Lease

/-!
# What a section of a GPU frame can do

The sections of `Gpu.Lease` by their effects, and the rule of invariants of a frame.
-/

namespace MkvCodec.Gpu

open Concurrency

variable {C : Type*}

/-- The sections that may recycle the frame, each with the core that it leaves to `maybe_recycle_locked`. -/
inductive Recycles (a : Frame C) : Pc C → GpuFrameCore C → Next → Prop
  | poll {next} : Recycles a (.poll next) a.core next
  | release {next} :
      Recycles a (.releaseExternal next)
        { a.core with
          externalLeases :=
            if a.core.externalLeases ≠ 0 then a.core.externalLeases - 1 else a.core.externalLeases } next
  | destroy {reply} : Recycles a (.destroyWait [] reply) { a.core with externalLeases := 0 } (.destroyed reply)

inductive Move (a : Frame C) : Pc C → Choice C → Section C → Prop
  | use {n op h} (hn : a.handles[n]? = some h) (hlive : h.deleted = false) (howned : 0 < h.owned) :
      Move a .idle (.call (.handle n op)) ⟨(a.modify n .use).enter, .check n op, none⟩
  | release {n h} (hn : a.handles[n]? = some h) (hlive : h.deleted = false) (howned : 0 < h.owned)
      (hlast : 2 ≤ h.owned ∨ h.users = 0) :
      Move a .idle (.call (.release n)) ⟨(a.modify n .disown).enter, .dropReference n, none⟩
  | library {call pc} (hpc : pc = .acquire .makeHandle ∨ pc = .acquire .component ∨ (∃ c, pc = .addConsumer c) ∨
      pc = .poll (.finish none none)) (hheld : 0 < a.holders) (hlife : a.life = .alive) :
      Move a .idle (.call call) ⟨a.enter, pc, none⟩
  | releaseBare (hbare : 0 < a.bare) :
      Move a .idle (.call .releaseExternal)
        ⟨{ a.enter with bare := a.bare - 1 }, .releaseExternal (.finish none none), none⟩
  | drop (hheld : 0 < a.holders) : Move a .idle (.call .dropCore) ⟨{ a with holders := a.holders - 1 }, .idle, none⟩
  | destroy (hlife : a.life = .alive) (hcalls : a.calls = 0) (hunheld : a.unheld = true) :
      Move a .idle (.call .destroy) ⟨a.enter, .dropCore none, none⟩
  | imported {config out core} (hcore : importExternal config out = .ok core) (hlife : a.life = .unborn) :
      Move a (.importFrame config out) .run ⟨{ a with core := core, life := .alive }, .acquire .importer, none⟩
  | importFails {config out e status} (hstatus : status.result ≠ .ok) :
      Move a (.importFrame config out) e (finish { a with imported := some status } none (some (.of status)))
  | acquireThrows {who} (hr : a.core.recycled = true) :
      Move a (.acquire who) .run (rethrow a who (some GpuFrameCore.recycledError))
  | bare (hr : a.core.recycled = false) :
      Move a (.acquire .component) .run
        (finish { a with core := { a.core with externalLeases := u32 (a.core.externalLeases + 1) }, bare := a.bare + 1 }
          none (some (.of .ok)))
  | acquired {who} (hr : a.core.recycled = false) (hwho : who ≠ .component) :
      Move a (.acquire who) .run
        ⟨{ a with core := { a.core with externalLeases := u32 (a.core.externalLeases + 1) } }, .wrap who, none⟩
  | wrapped :
      Move a (.wrap .makeHandle) .run
        (finish { a with handles := a.handles ++ [newHandle a 1] } none (some (.of .ok)))
  | wrappedImport :
      Move a (.wrap .importer) .run
        ⟨{ a with handles := a.handles ++ [newHandle a 0] }, .accept a.handles.length, none⟩
  | wrapThrows {who what} : Move a (.wrap who) (.throws what) ⟨a, .releaseExternal (.rethrow who what), none⟩
  | accept {n} : Move a (.accept n) .run (accept a n)
  | rejected {n op h} (hn : a.handles[n]? = some h) (hvalid : valid a.core h = false) :
      Move a (.check n op) .run (finish a (some n) (some (.of invalidFrame)))
  | replied {n op h reply} (hn : a.handles[n]? = some h) (hvalid : valid a.core h = true) :
      Move a (.check n op) .run (finish a (some n) (some reply))
  | core {n h} (hn : a.handles[n]? = some h) (hvalid : valid a.core h = true) :
      Move a (.check n .getCore) .run (finish { a with holders := a.holders + 1 } (some n) (some (.of .ok)))
  | goOn {n op h pc} (hn : a.handles[n]? = some h) (hvalid : valid a.core h = true)
      (hpc : pc = .addReference n ∨ pc = .query n ∨ (∃ t, pc = .wait n t) ∨ pc = .native n) :
      Move a (.check n op) .run ⟨a, pc, none⟩
  | addReference {n} : Move a (.addReference n) .run (finish (a.modify n .addReference) (some n) (some (.of .ok)))
  | asked {pc n e reply} (hpc : pc = .query n ∨ ∃ t, pc = .wait n t) :
      Move a pc e ⟨a, .poll (.finish (some n) (some reply)), none⟩
  | native {n reply} (hreply : a.core.recycled = true → reply.status.result.isError = true) :
      Move a (.native n) .run (finish a (some n) (some reply))
  | addConsumer {c} :
      Move a (.addConsumer c) .run
        (finish { a with core := (a.core.addConsumer c).2 } none (some (.of (a.core.addConsumer c).1)))
  | dropReference {n h} (hn : a.handles[n]? = some h) (hrefs : h.references ≠ 1) :
      Move a (.dropReference n) .run (finish (a.modify n .dropReference) none none)
  | dropLast {n h} (hn : a.handles[n]? = some h) (hrefs : h.references = 1) :
      Move a (.dropReference n) .run ⟨a.modify n .dropReference, .releaseExternal (.delete n), none⟩
  | settle {pc core next} (hrec : Recycles a pc core next)
      (hkeep : core.recycled = true ∨ core.externalLeases ≠ 0 ∨ ¬ core.Terminal a.states) :
      Move a pc .run (proceed { a with core := core } next)
  | recycle {pc core next} (hrec : Recycles a pc core next) (hr : core.recycled = false)
      (hleases : core.externalLeases = 0) (hterminal : core.Terminal a.states) :
      Move a pc .run ⟨{ a with core := { core with recycled := true } }, .callback core.desc.generation next, none⟩
  | callback {generation next} : Move a (.callback generation next) .run (callback a generation next)
  | delete {n} : Move a (.delete n) .run (finish (a.modify n .delete) none none)
  | dropCore {reply} (hcalls : a.calls = 1) (hunheld : a.unheld = true) (hr : a.core.recycled = false) :
      Move a (.dropCore reply) .run ⟨{ a with life := .dying }, .destroyWait a.core.completions reply, none⟩
  | dropRecycled {reply} (hcalls : a.calls = 1) (hunheld : a.unheld = true) (hr : a.core.recycled = true) :
      Move a (.dropCore reply) .run (proceed { a with life := .dying } (.destroyed reply))
  | destroyWait {completion rest reply} (hdone : (completion.query a.states).isPending = false) :
      Move a (.destroyWait (completion :: rest) reply) .run ⟨a, .destroyWait rest reply, none⟩

theorem recycleThen_move {a : Frame C} {pc : Pc C} {core : GpuFrameCore C} {next : Next}
    (h : Recycles a pc core next) : Move a pc .run (recycleThen a next (core.maybeRecycle a.states)) := by
  rcases core.maybeRecycle_cases a.states with ⟨heq, hkeep⟩ | ⟨heq, hr, hleases, hterminal⟩
  · rw [heq]
    exact .settle h hkeep
  · rw [heq]
    exact .recycle h hr hleases hterminal

theorem start_move {a : Frame C} {call : Call C} {o : Section C} (h : start a call = some o) :
    Move a .idle (.call call) o := by
  have hlibrary {pc : Pc C} (hpc : pc = .acquire .makeHandle ∨ pc = .acquire .component ∨
      (∃ c, pc = .addConsumer c) ∨ pc = .poll (.finish none none)) (h : library a pc = some o) :
      Move a .idle (.call call) o := by
    unfold library at h
    split at h
    · rename_i hcond
      cases h
      simp only [Bool.and_eq_true, decide_eq_true_eq] at hcond
      exact .library hpc hcond.1 hcond.2
    · cases h
  cases call with
  | handle n op =>
      simp only [start] at h
      split at h
      · cases h
      · rename_i hn
        split at h
        · rename_i hcond
          cases h
          simp only [Bool.and_eq_true, Bool.not_eq_true', decide_eq_true_eq] at hcond
          exact .use hn hcond.1 hcond.2
        · cases h
  | release n =>
      simp only [start] at h
      split at h
      · cases h
      · rename_i hn
        split at h
        · rename_i hcond
          cases h
          simp only [Bool.and_eq_true, Bool.or_eq_true, Bool.not_eq_true', decide_eq_true_eq] at hcond
          exact .release hn hcond.1.1 hcond.1.2 hcond.2
        · cases h
  | makeHandle => exact hlibrary (.inl rfl) h
  | acquireExternal => exact hlibrary (.inr (.inl rfl)) h
  | addConsumer c => exact hlibrary (.inr (.inr (.inl ⟨c, rfl⟩))) h
  | pollRecycle => exact hlibrary (.inr (.inr (.inr rfl))) h
  | releaseExternal =>
      simp only [start] at h
      split at h
      · cases h; exact .releaseBare ‹_›
      · cases h
  | dropCore =>
      simp only [start] at h
      split at h
      · cases h; exact .drop ‹_›
      · cases h
  | destroy =>
      simp only [start] at h
      split at h
      · rename_i hcond
        cases h
        simp only [Bool.and_eq_true, decide_eq_true_eq] at hcond
        exact .destroy hcond.1.1 hcond.1.2 hcond.2
      · cases h

theorem checkHandle_move {a : Frame C} {n : Nat} {op : HandleOp} {o : Section C}
    (h : checkHandle a n op = some o) : Move a (.check n op) .run o := by
  unfold checkHandle at h
  split at h
  · cases h
  · rename_i hn
    split at h
    · rename_i hvalid
      cases h
      cases op with
      | retain => exact .goOn hn hvalid (.inl rfl)
      | wait t => exact .goOn hn hvalid (.inr (.inr (.inl ⟨t, rfl⟩)))
      | getCore => exact .core hn hvalid
      | getDesc out => cases out <;> exact .replied hn hvalid
      | queryCompletion out =>
          cases out
          · exact .replied hn hvalid
          · exact .goOn hn hvalid (.inr (.inl rfl))
      | getNativeHandle out =>
          cases out
          · exact .replied hn hvalid
          · exact .goOn hn hvalid (.inr (.inr (.inr rfl)))
    · rename_i hvalid
      cases h
      exact .rejected hn (by simpa using hvalid)

theorem acquire_move {a : Frame C} {who : Acquirer} : Move a (.acquire who) .run (acquire a who) := by
  unfold acquire
  cases hr : a.core.recycled with
  | true =>
      have hthrows : a.core.acquireExternal = .error GpuFrameCore.recycledError := by
        simp [GpuFrameCore.acquireExternal, hr]
      rw [hthrows]
      exact .acquireThrows hr
  | false =>
      have hok : a.core.acquireExternal =
          .ok { a.core with externalLeases := u32 (a.core.externalLeases + 1) } := by
        simp [GpuFrameCore.acquireExternal, hr]
      rw [hok]
      cases who with
      | component => exact .bare hr
      | makeHandle => exact .acquired hr (by simp)
      | importer => exact .acquired hr (by simp)

theorem native_move {a : Frame C} {n : Nat} : Move a (.native n) .run (native a n) := by
  unfold native GpuFrameCore.getNativeHandle
  cases hr : a.core.recycled with
  | true => exact .native fun _ => rfl
  | false =>
      cases a.core.native with
      | none => exact .native fun h => by rw [hr] at h; cases h
      | some native => exact .native fun h => by rw [hr] at h; cases h

theorem runSection_move {a : Frame C} {pc : Pc C} {o : Section C} (h : runSection a pc = some o) :
    Move a pc .run o := by
  cases pc with
  | idle => cases h
  | importFrame config out =>
      simp only [runSection, importFrame] at h
      split at h
      · rename_i hstatus
        cases h
        exact .importFails (by rw [importExternal_error hstatus]; simp)
      · rename_i hcore
        split at h
        · cases h
          exact .imported hcore ‹_›
        · cases h
  | acquire who => cases h; exact acquire_move
  | wrap who =>
      cases who with
      | component => cases h
      | makeHandle => cases h; exact .wrapped
      | importer => cases h; exact .wrappedImport
  | accept n => cases h; exact .accept
  | check n op => exact checkHandle_move h
  | addReference n => cases h; exact .addReference
  | query n =>
      obtain ⟨producer, hp, rfl⟩ := Option.map_eq_some_iff.mp h
      exact .asked (.inl rfl)
  | wait n t =>
      obtain ⟨producer, hp, h⟩ := Option.bind_eq_some_iff.mp h
      obtain ⟨status, hs, rfl⟩ := Option.map_eq_some_iff.mp h
      exact .asked (.inr ⟨t, rfl⟩)
  | native n => cases h; exact native_move
  | addConsumer c => cases h; exact .addConsumer
  | poll next => cases h; exact recycleThen_move .poll
  | dropReference n =>
      simp only [runSection, dropReference] at h
      split at h
      · cases h
      · rename_i hn
        split at h
        · cases h; exact .dropLast hn ‹_›
        · cases h; exact .dropReference hn ‹_›
  | releaseExternal next => cases h; exact recycleThen_move .release
  | callback generation next => cases h; exact .callback
  | delete n => cases h; exact .delete
  | dropCore reply =>
      simp only [runSection, dropCore] at h
      split at h
      · rename_i hcond
        simp only [Bool.and_eq_true, decide_eq_true_eq] at hcond
        split at h
        · cases h; exact .dropRecycled hcond.1 hcond.2 ‹_›
        · rename_i hr
          cases h
          exact .dropCore hcond.1 hcond.2 (by simpa using hr)
      · cases h
  | destroyWait rest reply =>
      cases rest with
      | nil => cases h; exact recycleThen_move .destroy
      | cons completion rest =>
          simp only [runSection, destroyWait] at h
          split at h
          · cases h
          · rename_i hdone
            cases h
            exact .destroyWait (by simpa using hdone)

theorem clientSection_move {a : Frame C} {pc : Pc C} {e : Choice C} {o : Section C}
    (h : clientSection e a pc = some o) : Move a pc e o := by
  unfold clientSection at h
  split at h
  · exact start_move h
  · exact runSection_move h
  · rename_i what
    cases pc with
    | importFrame config out => cases h; exact .importFails (by simp [guard])
    | wrap who => cases h; exact .wrapThrows
    | _ => cases h
  · cases pc with
    | wait n t =>
        simp only [timeoutSection] at h
        split at h
        · cases h
        · cases h; exact .asked (.inr ⟨t, rfl⟩)
    | _ => cases h
  · cases h

/-! ## The end of a call -/

section

variable (a : Frame C) (handle : Option Nat) (reply : Option Reply) (who : Acquirer) (what : Option String)
  (next : Next)

@[simp] theorem leave_core : (a.leave handle).core = a.core := by cases handle <;> rfl

@[simp] theorem leave_states : (a.leave handle).states = a.states := by cases handle <;> rfl

@[simp] theorem leave_bare : (a.leave handle).bare = a.bare := by cases handle <;> rfl

@[simp] theorem leave_holders : (a.leave handle).holders = a.holders := by cases handle <;> rfl

@[simp] theorem leave_life : (a.leave handle).life = a.life := by cases handle <;> rfl

@[simp] theorem leave_recycles : (a.leave handle).recycles = a.recycles := by cases handle <;> rfl

@[simp] theorem leave_accepted : (a.leave handle).accepted = a.accepted := by cases handle <;> rfl

@[simp] theorem leave_releases : (a.leave handle).releases = a.releases := by cases handle <;> rfl

@[simp] theorem leave_calls : (a.leave handle).calls = a.calls - 1 := by cases handle <;> rfl

@[simp] theorem leave_imported : (a.leave handle).imported = a.imported := by cases handle <;> rfl

@[simp] theorem finish_shared : (finish a handle reply).shared = a.leave handle := rfl

@[simp] theorem finish_pc : (finish a handle reply).pc = .idle := rfl

theorem rethrow_cases : (rethrow a who what = ⟨a, .dropCore (some (.of (guard "unknown external GPU frame import failure"
    what))), none⟩ ∧ who = .importer) ∨
      rethrow a who what = finish a none (some (.of (guard "unknown GPU frame failure" what))) := by
  cases who with
  | importer => exact .inl ⟨rfl, rfl⟩
  | _ => exact .inr rfl

/-- What no end of a call changes. -/
theorem proceed_same : (proceed a next).shared.core = a.core ∧ (proceed a next).shared.states = a.states ∧
    (proceed a next).shared.bare = a.bare ∧ (proceed a next).shared.holders = a.holders ∧
    (proceed a next).shared.recycles = a.recycles ∧ (proceed a next).shared.accepted = a.accepted ∧
    (proceed a next).shared.releases = a.releases := by
  cases next with
  | finish handle reply => simp [proceed]
  | delete handle => simp [proceed]
  | rethrow who what => cases who <;> simp [proceed, rethrow]
  | destroyed reply => cases reply <;> simp [proceed]

@[simp] theorem proceed_core : (proceed a next).shared.core = a.core := (proceed_same a next).1

@[simp] theorem proceed_states : (proceed a next).shared.states = a.states := (proceed_same a next).2.1

@[simp] theorem proceed_bare : (proceed a next).shared.bare = a.bare := (proceed_same a next).2.2.1

@[simp] theorem proceed_holders : (proceed a next).shared.holders = a.holders := (proceed_same a next).2.2.2.1

@[simp] theorem proceed_recycles : (proceed a next).shared.recycles = a.recycles := (proceed_same a next).2.2.2.2.1

@[simp] theorem proceed_accepted : (proceed a next).shared.accepted = a.accepted :=
  (proceed_same a next).2.2.2.2.2.1

@[simp] theorem proceed_releases : (proceed a next).shared.releases = a.releases :=
  (proceed_same a next).2.2.2.2.2.2

@[simp] theorem rethrow_core : (rethrow a who what).shared.core = a.core := proceed_core a (.rethrow who what)

@[simp] theorem rethrow_states : (rethrow a who what).shared.states = a.states := proceed_states a (.rethrow who what)

@[simp] theorem rethrow_recycles : (rethrow a who what).shared.recycles = a.recycles :=
  proceed_recycles a (.rethrow who what)

end

/-! ## Whole runs -/

section

variable [DecidableEq C] {ι : Type*} [DecidableEq ι]

/-- The record of a thread after a section. -/
def Client.after (k : Client C) (o : Section C) : Client C := ⟨o.pc, k.replies ++ o.reply.toList⟩

theorem Step.client_move {s t : FrameState C ι} {i : ι} {e : Choice C} (h : Step s (.client i e) t) :
    ∃ o, Move s.shared (s.client i).pc e o ∧ t.shared = o.shared ∧
      t.client = Function.update s.client i ((s.client i).after o) := by
  obtain ⟨_, o, ho, rfl⟩ := h.client_inv
  obtain ⟨sec, hsec, rfl⟩ := Option.map_eq_some_iff.mp ho
  exact ⟨sec, clientSection_move hsec, rfl, rfl⟩

theorem Step.driver_inv {s t : FrameState C ι} {e : Choice C} (h : Step s (.worker e) t) :
    ∃ c state, e = .signal c state ∧
      t.shared = { s.shared with states := Function.update s.shared.states c state } ∧ t.client = s.client := by
  obtain ⟨_, o, ho, rfl⟩ := h.worker_inv
  cases e with
  | signal c state => cases ho; exact ⟨c, state, rfl, rfl, rfl⟩
  | _ => cases ho

/-- The rule of invariants of a frame. -/
theorem frame_invariant {I : Frame C → (ι → Client C) → Prop} {P : FrameState C ι → FrameLabel C ι → Prop}
    {s₀ s : FrameState C ι} {ls : List (FrameLabel C ι)} (h : Run (Restrict Step P) s₀ ls s)
    (h₀ : I s₀.shared s₀.client)
    (hsignal : ∀ {s : FrameState C ι} {c state}, I s.shared s.client → P s (.worker (.signal c state)) →
      I { s.shared with states := Function.update s.shared.states c state } s.client)
    (hmove : ∀ {s : FrameState C ι} {i e o}, I s.shared s.client → P s (.client i e) →
      Move s.shared (s.client i).pc e o →
      I o.shared (Function.update s.client i ((s.client i).after o))) : I s.shared s.client := by
  refine h.invariant (I := fun s => I s.shared s.client) h₀ ?_
  rintro s l t hs ⟨hst, hP⟩
  cases l with
  | worker e =>
      obtain ⟨c, state, rfl, hshared, hclient⟩ := Step.driver_inv hst
      rw [hshared, hclient]
      exact hsignal hs hP
  | client i e =>
      obtain ⟨o, hm, hshared, hclient⟩ := Step.client_move hst
      rw [hshared, hclient]
      exact hmove hs hP hm
  | wakeWorker => rw [hst.wakeWorker_inv]; exact hs
  | wake i => rw [hst.wake_inv]; exact hs

omit [DecidableEq C] in
/-- What a quantity of the frame owes to where the threads stand, when every section balances the two. -/
theorem frame_balance [Fintype ι] {q : Frame C → Nat} {f : Pc C → Nat} {a : Frame C} {ks : ι → Client C} {i : ι}
    {o : Section C} (h : q a = ∑ j, f (ks j).pc) (hmove : q o.shared + f (ks i).pc = q a + f o.pc) :
    q o.shared = ∑ j, f (Function.update ks i ((ks i).after o) j).pc := by
  have hsum := sum_update (fun k => f k.pc) ks i ((ks i).after o)
  simp only [Client.after] at hsum ⊢
  omega

omit [DecidableEq C] [DecidableEq ι] in
theorem le_sum_pc [Fintype ι] (f : Pc C → Nat) (ks : ι → Client C) (i : ι) :
    f (ks i).pc ≤ ∑ j, f (ks j).pc :=
  Finset.single_le_sum (f := fun j => f (ks j).pc) (fun _ _ => Nat.zero_le _) (Finset.mem_univ i)

end

end MkvCodec.Gpu
