import MkvCodec.Gpu.Dlpack

/-!
# The books of DLPack exports

What one section does to the reference count of a frame and to the account of the export that it belongs to.
-/

namespace MkvCodec.Gpu

variable {C : Type*} {a : Frame C} {pc : Pc C} {e : Choice C} {o : Section C}

theorem Recycles.native {core : GpuFrameCore C} {next : Next} (h : Recycles a pc core next) :
    core.native = a.core.native := by
  cases h <;> rfl

/-- What a frame exports stays the same from its birth on. -/
theorem Move.same_native (h : Move a pc e o) (hlife : a.life ≠ .unborn) : o.shared.core.native = a.core.native := by
  cases h with
  | imported _ hunborn => exact absurd hunborn hlife
  | settle hrec => rw [proceed_core]; exact hrec.native
  | recycle hrec => exact hrec.native
  | @addConsumer c =>
      rw [finish_shared, leave_core]
      unfold GpuFrameCore.addConsumer
      split
      · rfl
      · split <;> rfl
  | _ => simp [Frame.modify, Frame.enter, Gpu.accept, Gpu.callback]

theorem proceed_born (hlife : a.life ≠ .unborn) (next : Next) : (proceed a next).shared.life ≠ .unborn := by
  cases next with
  | finish handle reply => simpa [proceed] using hlife
  | delete handle => exact hlife
  | rethrow who what => cases who <;> simpa [proceed, rethrow] using hlife
  | destroyed reply => cases reply <;> simp [proceed]

theorem Move.stays_born (h : Move a pc e o) (hlife : a.life ≠ .unborn) : o.shared.life ≠ .unborn := by
  cases h with
  | imported _ hunborn => exact absurd hunborn hlife
  | @acquireThrows who => exact proceed_born hlife (.rethrow who _)
  | @settle _ core => exact proceed_born (a := { a with core := core }) hlife _
  | callback =>
      rw [Gpu.callback]
      exact proceed_born (by exact hlife) _
  | dropCore => simp
  | @dropRecycled reply => exact proceed_born (a := { a with life := .dying }) (by simp) (.destroyed reply)
  | _ => simpa [Frame.modify, Frame.enter, Gpu.accept] using hlife

namespace Dlpack

open Concurrency

/-! ## The books of the C ABI -/

/-- The counters of the handles against the shares of the calls in progress. -/
structure Books {ι : Type*} [Fintype ι] (a : Frame C) (pcs : ι → Pc C) : Prop where
  refs : ∀ n, a.references n = a.owned n + ∑ i, (pcs i).refs n
  users : ∀ n, a.users n = ∑ i, (pcs i).uses n
  used : ∀ n, a.users n ≠ 0 → a.owned n ≠ 0

section

variable {ι : Type*} [Fintype ι] {pcs : ι → Pc C} {i : ι}

theorem le_sum_of (f : Pc C → Nat) (pcs : ι → Pc C) (i : ι) : f (pcs i) ≤ ∑ j, f (pcs j) :=
  Finset.single_le_sum (f := fun j => f (pcs j)) (fun _ _ => Nat.zero_le _) (Finset.mem_univ i)

theorem Books.share (h : Books a pcs) (n : Nat) : (pcs i).refs n ≤ a.references n := by
  rw [h.refs n]
  exact (le_sum_of (Pc.refs n) pcs i).trans (Nat.le_add_left _ _)

theorem Books.use (h : Books a pcs) (n : Nat) : (pcs i).uses n ≤ a.users n := by
  rw [h.users n]
  exact le_sum_of (Pc.uses n) pcs i

/-- A call that uses a handle works on one that has a reference. -/
theorem Books.referenced (h : Books a pcs) {n : Nat} (huses : (pcs i).uses n = 1) : a.references n ≠ 0 := by
  have huse := h.use (i := i) n
  have howned := h.used n (by omega)
  rw [h.refs n]
  omega

variable [DecidableEq ι]

theorem Books.move (h : Books a pcs) (hm : Move a (pcs i) e o)
    (hadd : ∀ n, pcs i = .addReference n → a.references n + 1 < 2 ^ 32) :
    Books o.shared (Function.update pcs i o.pc) := by
  have hshare (n : Nat) : (pcs i).refs n ≤ a.references n := h.share n
  have hreferenced (n : Nat) (hpc : pcs i = .addReference n) : a.references n ≠ 0 :=
    h.referenced (i := i) (by simp [hpc, Pc.uses])
  refine ⟨fun n => ?_, fun n => ?_, fun n => hm.used (h.used n) hshare hreferenced⟩
  · have hsum := sum_update (Pc.refs n) pcs i o.pc
    have hrefs := hm.refs (n := n) hshare fun m hpc => ⟨hreferenced m hpc, hadd m hpc⟩
    have hold := h.refs n
    omega
  · have hsum := sum_update (Pc.uses n) pcs i o.pc
    have huses := hm.uses (h.use n)
    have hold := h.users n
    omega

/-- An exception leaves the wait of a call. -/
theorem Books.leave (h : Books a pcs) {n timeoutMs : Nat} (hpc : pcs i = .wait n timeoutMs) :
    Books (a.leave (some n)) (Function.update pcs i .idle) := by
  refine ⟨fun m => ?_, fun m => ?_, fun m hm => ?_⟩
  · have hsum := sum_update (Pc.refs m) pcs i .idle
    have hold := h.refs m
    have hshare : (pcs i).refs m = 0 := by rw [hpc]; rfl
    have hidle : (Pc.idle : Pc C).refs m = 0 := rfl
    rw [leave_references, leave_owned]
    omega
  · have hsum := sum_update (Pc.uses m) pcs i .idle
    have hold := h.users m
    have hshare : (pcs i).uses m = if n = m then 1 else 0 := by rw [hpc]; rfl
    have hidle : (Pc.idle : Pc C).uses m = 0 := rfl
    rw [leave_users]
    omega
  · rw [leave_owned]
    exact h.used m (by have := leave_users_le a (some n) m; omega)

end

/-! ## A thread at work for an export -/

/-- Where the thread of an export of handle `n`, or of its deleter, can stand in the C ABI, and what the books say
there. -/
inductive Working (native : Option NativeHandleDesc) (request : Request) (n : Nat) :
    Stage → Int → Bool → Pc C → Option Reply → Prop
  | descCheck {complete : Bool} {reply : Option Reply} :
      Working native request n .getDesc 0 complete (.check n (.getDesc true)) reply
  | desc {complete : Bool} {reply : Option Reply} : Working native request n .getDesc 0 complete .idle reply
  | nativeCheck {desc : GpuFrameDesc} {plane : Fin 4} {complete : Bool} {reply : Option Reply} :
      Working native request n (.getNativeHandle desc plane) 0 complete (.check n (.getNativeHandle true)) reply
  | nativeRead {desc : GpuFrameDesc} {plane : Fin 4} {complete : Bool} {reply : Option Reply} :
      Working native request n (.getNativeHandle desc plane) 0 complete (.native n) reply
  | native {desc : GpuFrameDesc} {plane : Fin 4} {complete : Bool} {reply : Option Reply}
      (h : ∀ status value, reply = some ⟨status, some (.native value)⟩ → native = some value) :
      Working native request n (.getNativeHandle desc plane) 0 complete .idle reply
  | retainCheck {source : Source} {complete : Bool} {reply : Option Reply} (h : native = some source.native) :
      Working native request n (.retain source) 0 complete (.check n .retain) reply
  | retainAdd {source : Source} {complete : Bool} {reply : Option Reply} (h : native = some source.native) :
      Working native request n (.retain source) 0 complete (.addReference n) reply
  | retained {source : Source} {complete : Bool} {reply : Reply} (h : native = some source.native)
      (hok : reply.status.result = .ok) : Working native request n (.retain source) 1 complete .idle (some reply)
  | refused {source : Source} {complete : Bool} {reply : Reply} (hfails : reply.status.result ≠ .ok) :
      Working native request n (.retain source) 0 complete .idle (some reply)
  | dependency {source : Source} {complete : Bool} {reply : Option Reply} (h : native = some source.native) :
      Working native request n (.dependency source) 1 complete .idle reply
  | callback {source : Source} {complete : Bool} {reply : Option Reply} (h : native = some source.native)
      (hstream : request.consumerStream ≠ 0) (hevent : source.native.handles 3 ≠ 0) :
      Working native request n (.callback source) 1 complete .idle reply
  | stream {source : Source} {complete : Bool} {reply : Option Reply} (h : native = some source.native)
      (hstream : request.consumerStream ≠ 0) (hevent : source.native.handles 3 ≠ 0) :
      Working native request n (.stream source) 1 complete .idle reply
  | waitCheck {source : Source} {timeoutMs : Nat} {complete : Bool} {reply : Option Reply} :
      Working native request n (.wait source) 1 complete (.check n (.wait timeoutMs)) reply
  | waiting {source : Source} {timeoutMs : Nat} {complete : Bool} {reply : Option Reply} :
      Working native request n (.wait source) 1 complete (.wait n timeoutMs) reply
  | waitPoll {source : Source} {complete : Bool} {answer : Reply} {reply : Option Reply}
      (h : answer.status.result = .ok → complete = true) :
      Working native request n (.wait source) 1 complete (.poll (.finish (some n) (some answer))) reply
  | waitCallback {source : Source} {generation : Nat} {complete : Bool} {answer : Reply} {reply : Option Reply}
      (h : answer.status.result = .ok → complete = true) :
      Working native request n (.wait source) 1 complete (.callback generation (.finish (some n) (some answer))) reply
  | waited {source : Source} {complete : Bool} {answer : Reply} (h : answer.status.result = .ok → complete = true) :
      Working native request n (.wait source) 1 complete .idle (some answer)
  | unwind {result : Option Status} {complete : Bool} {reply : Option Reply} :
      Working native request n (.unwind result) 1 complete .idle reply
  | drop {stage : Stage} {complete : Bool} {reply : Option Reply} (h : stage.returning = true) :
      Working native request n stage 1 complete (.dropReference n) reply
  | releaseLease {stage : Stage} {complete : Bool} {reply : Option Reply} (h : stage.returning = true) :
      Working native request n stage 0 complete (.releaseExternal (.delete n)) reply
  | releaseCallback {stage : Stage} {generation : Nat} {complete : Bool} {reply : Option Reply}
      (h : stage.returning = true) :
      Working native request n stage 0 complete (.callback generation (.delete n)) reply
  | delete {stage : Stage} {complete : Bool} {reply : Option Reply} (h : stage.returning = true) :
      Working native request n stage 0 complete (.delete n) reply
  | released {stage : Stage} {complete : Bool} {reply : Option Reply} (h : stage.returning = true) :
      Working native request n stage 0 complete .idle reply

section

variable {native : Option NativeHandleDesc} {request : Request} {n : Nat} {stage : Stage} {leases : Int}
  {complete : Bool} {reply : Option Reply}

/-- A thread that works for an export touches no handle but that of the export. -/
theorem Working.touches (h : Working native request n stage leases complete pc reply) {m : Nat}
    (hpc : pc = .addReference m ∨ pc = .dropReference m ∨ ∃ who, pc = .wrap who) : m = n := by
  cases h <;> simp_all

theorem Working.waits {m timeoutMs : Nat}
    (h : Working native request n stage leases complete (.wait m timeoutMs : Pc C) reply) : m = n ∧ leases = 1 := by
  cases h
  exact ⟨rfl, rfl⟩

theorem Working.unsettled (h : Working native request n stage leases complete pc reply) : stage.settled = false := by
  have hreturning (hstage : stage.returning = true) : stage.settled = false := by
    cases stage with
    | release | deleter => rfl
    | _ => cases hstage
  cases h with
  | drop hstage | releaseLease hstage | releaseCallback hstage | delete hstage | released hstage =>
      exact hreturning hstage
  | _ => rfl

theorem checkHandle_cases {op : HandleOp} (h : checkHandle a n op = some o) :
    o = finish a (some n) (some (.of invalidFrame)) ∨ o = afterCheck a n op := by
  unfold checkHandle at h
  split at h
  · cases h
  · split at h <;> cases h
    · exact .inr rfl
    · exact .inl rfl

/-- A poll or a release goes on with what comes next, or calls the recycle callback first. -/
theorem recycleThen_pc (a : Frame C) (next : Next) (r : GpuFrameCore C × Option Nat) :
    (∃ b : Frame C, recycleThen a next r = proceed b next) ∨
      ∃ generation, (recycleThen a next r).pc = .callback generation next ∧ (recycleThen a next r).reply = none := by
  unfold recycleThen
  cases r.2 with
  | none => exact .inl ⟨_, rfl⟩
  | some generation => exact .inr ⟨generation, rfl, rfl⟩

end

theorem producerComplete_of_wait {status : Status} {producer : Completion C} (hproducer : a.core.producer = some producer)
    (hstatus : (producer.query a.states).waitStatus = some status) (hok : status.result = .ok) :
    producerComplete a = true := by
  unfold producerComplete
  simp only [hproducer]
  cases hquery : producer.query a.states with
  | pending => simp [hquery, CompletionState.waitStatus] at hstatus
  | complete => rfl
  | failed status' hne =>
      simp only [hquery, CompletionState.waitStatus, Option.some.injEq] at hstatus
      exact absurd hok (hstatus ▸ hne)

/-- The rest of a call of the C ABI that has recycled the frame or not. -/
theorem recycleThen_working {request : Request} {n : Nat} {stage : Stage} {leases : Int} {complete : Bool}
    {native : Option NativeHandleDesc} {reply : Option Reply} {next : Next} (r : GpuFrameCore C × Option Nat)
    (hnext : ∀ b : Frame C,
      Working native request n stage leases complete (proceed b next).pc ((proceed b next).reply.or reply))
    (hcallback : ∀ generation,
      Working native request n stage leases complete (.callback generation next : Pc C) reply) :
    Working native request n stage leases complete (recycleThen a next r).pc ((recycleThen a next r).reply.or reply) := by
  rcases recycleThen_pc a next r with ⟨b, hb⟩ | ⟨generation, hpc, hreply⟩
  · rw [hb]
    exact hnext b
  · rw [hpc, hreply, Option.none_or]
    exact hcallback generation

/-- Where a section of the C ABI leaves the thread, when it leaves the reference count alone. -/
theorem Working.same {native : Option NativeHandleDesc} {request : Request} {n : Nat} {stage : Stage} {leases : Int}
    {complete : Bool} {reply : Option Reply} (h : Working native request n stage leases complete pc reply)
    (ho : runSection a pc = some o) (hnative : native = a.core.native)
    (hadd : pc ≠ .addReference n) (hdrop : pc ≠ .dropReference n) :
    Working native request n stage leases (complete || producerComplete a) o.pc (o.reply.or reply) := by
  cases h with
  | descCheck =>
      rcases checkHandle_cases ho with rfl | rfl
      · exact .desc
      · exact .desc
  | nativeCheck =>
      rcases checkHandle_cases ho with rfl | rfl
      · exact .native (by simp [finish, Reply.of])
      · exact .nativeRead
  | nativeRead =>
      cases ho
      have hpc : (Gpu.native a n).pc = .idle := by
        unfold Gpu.native
        split <;> rfl
      rw [hpc]
      refine .native fun status value hvalue => ?_
      unfold Gpu.native GpuFrameCore.getNativeHandle at hvalue
      split at hvalue
      · simp [finish, Reply.of] at hvalue
      · rename_i hread
        simp only [finish, Option.some_or, Option.some.injEq, Reply.mk.injEq, Output.native.injEq] at hvalue
        split at hread
        · cases hread
        · split at hread
          · cases hread
          · rename_i hsome
            cases hread
            rw [hnative, hsome, hvalue.2]
  | retainCheck hsource =>
      rcases checkHandle_cases ho with rfl | rfl
      · exact .refused (by simp [Reply.of, invalidFrame])
      · exact .retainAdd hsource
  | retainAdd => exact absurd rfl hadd
  | waitCheck =>
      rcases checkHandle_cases ho with rfl | rfl
      · exact .waited (by simp [Reply.of, invalidFrame])
      · exact .waiting
  | waiting =>
      obtain ⟨producer, hproducer, h⟩ := Option.bind_eq_some_iff.mp ho
      obtain ⟨status, hstatus, rfl⟩ := Option.map_eq_some_iff.mp h
      refine .waitPoll fun hok => ?_
      rw [producerComplete_of_wait hproducer hstatus hok, Bool.or_true]
  | @waitPoll _ _ answer _ hok =>
      cases ho
      have hlater (hres : answer.status.result = .ok) : (complete || producerComplete a) = true := by
        rw [hok hres, Bool.true_or]
      exact recycleThen_working _ (fun b => .waited hlater) fun generation => .waitCallback hlater
  | waitCallback hok =>
      cases ho
      exact .waited fun hres => by rw [hok hres, Bool.true_or]
  | drop => exact absurd rfl hdrop
  | releaseLease hstage =>
      cases ho
      exact recycleThen_working _ (fun b => .delete hstage) fun generation => .releaseCallback hstage
  | releaseCallback hstage =>
      cases ho
      exact .delete hstage
  | delete hstage =>
      cases ho
      exact .released hstage
  | _ => cases ho

theorem modify_addReference {n : Nat} (hne : a.references n ≠ 0) (hsmall : a.references n + 1 < 2 ^ 32) :
    (a.modify n .addReference).references n = a.references n + 1 := by
  obtain ⟨h, hn, href⟩ := exists_of_at hne
  have hself : (a.modify n .addReference).references n = u32 (h.references + 1) := at_modify_self hn
  rw [Frame.references, href] at hsmall
  rw [hself, u32_of_lt hsmall, Frame.references, href]

theorem modify_dropReference {n : Nat} (hne : a.references n ≠ 0) :
    (a.modify n .dropReference).references n + 1 = a.references n := by
  obtain ⟨h, hn, href⟩ := exists_of_at hne
  have hself : (a.modify n .dropReference).references n = h.dropReference.references := at_modify_self hn
  rw [Frame.references, href] at hne
  rw [hself, Frame.references, href, GpuFrameHandle.dropReference]
  simp only [if_neg hne]
  omega

/-- A section of the C ABI on behalf of an export. -/
theorem Working.section {native : Option NativeHandleDesc} {request : Request} {n : Nat} {stage : Stage}
    {leases : Int} {complete : Bool} {reply : Option Reply}
    (h : Working native request n stage leases complete pc reply) (ho : runSection a pc = some o)
    (hnative : native = a.core.native)
    (hadd : pc = .addReference n → a.references n ≠ 0 ∧ a.references n + 1 < 2 ^ 32)
    (hdrop : pc = .dropReference n → a.references n ≠ 0) :
    Working native request n stage (leases + ((o.shared.references n : Int) - a.references n))
      (complete || producerComplete a) o.pc (o.reply.or reply) := by
  by_cases hpcAdd : pc = .addReference n
  · obtain ⟨hne, hsmall⟩ := hadd hpcAdd
    have hcount := modify_addReference hne hsmall
    subst hpcAdd
    cases ho
    have hdelta : ((a.modify n .addReference).references n : Int) - a.references n = 1 := by omega
    simp only [finish_shared, leave_references]
    cases h with
    | retainAdd hsource =>
        rw [hdelta]
        exact .retained hsource rfl
  · by_cases hpcDrop : pc = .dropReference n
    · have hcount := modify_dropReference (hdrop hpcDrop)
      subst hpcDrop
      have hdelta : ((a.modify n .dropReference).references n : Int) - a.references n = -1 := by omega
      cases h with
      | drop hstage =>
          simp only [runSection, dropReference] at ho
          split at ho
          · cases ho
          · split at ho <;> cases ho
            · rw [hdelta]
              exact .releaseLease hstage
            · simp only [finish_shared, leave_references]
              rw [hdelta]
              exact .released hstage
    · have hsame : o.shared.references n = a.references n := by
        rcases (runSection_move ho).references (n := n) with hsame | hpc
        · exact hsame
        · rcases hpc with hpc | hpc | ⟨who, hpc⟩
          · exact absurd hpc hpcAdd
          · exact absurd hpc hpcDrop
          · subst hpc
            cases h
      rw [hsame, Int.sub_self, Int.add_zero]
      exact h.same ho hnative hpcAdd hpcDrop

/-! ## The effect of a section -/

/-- What a thread can do to the frame: nothing, a section of the C ABI, or to leave a wait with an exception. -/
inductive Touch (a : Frame C) (pc : Pc C) : Frame C → Pc C → Prop
  | same : Touch a pc a pc
  | move {e : Choice C} {o : Section C} (h : Move a pc e o) : Touch a pc o.shared o.pc
  | leave {n timeoutMs : Nat} (h : pc = .wait n timeoutMs) : Touch a pc (a.leave (some n)) .idle

section

variable {b : Frame C} {pc' : Pc C} (h : Touch a pc b pc')

include h

theorem Touch.native (hlife : a.life ≠ .unborn) : b.core.native = a.core.native := by
  cases h with
  | same => rfl
  | move h => exact h.same_native hlife
  | leave => rw [leave_core]

theorem Touch.born (hlife : a.life ≠ .unborn) : b.life ≠ .unborn := by
  cases h with
  | same => exact hlife
  | move h => exact h.stays_born hlife
  | leave => rwa [leave_life]

theorem Touch.books {ι : Type*} [Fintype ι] [DecidableEq ι] {pcs : ι → Pc C} {i : ι} (hb : Books a pcs)
    (hi : pcs i = pc) (hadd : ∀ n, pc = .addReference n → a.references n + 1 < 2 ^ 32) :
    Books b (Function.update pcs i pc') := by
  subst hi
  cases h with
  | same => rwa [Function.update_eq_self]
  | move h => exact hb.move h hadd
  | leave h => exact hb.leave h

end

/-- The books of an export that nobody is at work for. -/
def Account.Resting (account : Account) : Prop :=
  match account.stage with
  | .failed _ | .deleted => account.leases = 0
  | .exported _ => account.leases = 1 ∧ (account.complete = true ∨ account.registered.isSome = true)
  | _ => False

/-- The dependency that an export has registered is one on the event of the frame, on the stream of its consumer. -/
def Account.Dependent (native : Option NativeHandleDesc) (account : Account) : Prop :=
  ∀ d, account.registered = some d → ∃ value, native = some value ∧ value.handles 3 ≠ 0 ∧
    account.request.consumerStream ≠ 0 ∧ d = ⟨value.handles 3, account.request.consumerStream⟩

/-- The thread `t`, which works for an account or not. -/
def Exporter.Engaged (native : Option NativeHandleDesc) (account : Account) (n : Nat) (t : Exporter C) : Prop :=
  Working native account.request n account.stage account.leases account.complete t.pc t.reply

/-- What a section for account `k` makes of the system. -/
structure Effect (x : Exports C) (pc : Pc C) (k n : Nat) (account account' : Account) (o : Act C) : Prop where
  accounts : ∃ f, o.1.accounts = x.accounts.modify k f ∧ f account = account'
  others : o.1.others = x.others
  touch : Touch x.frame pc o.1.frame o.2.pc
  request : account'.request = account.request
  leases : account'.leases = account.leases + ((o.1.frame.references n : Int) - x.frame.references n)
  apart : ∀ m, m ≠ n → o.1.frame.references m = x.frame.references m
  dependent : account'.Dependent x.frame.core.native
  after : o.2.task = some k ∧ o.2.Engaged x.frame.core.native account' n ∨ o.2.task = none ∧ account'.Resting

/-! ## The books of all exports -/

theorem sum_map_modify {α : Type*} {g : α → Int} {f : α → α} {l : List α} {k : Nat} {y : α} (h : l[k]? = some y) :
    ((l.modify k f).map g).sum = (l.map g).sum + (g (f y) - g y) := by
  induction l generalizing k with
  | nil => cases h
  | cons z l ih =>
      cases k with
      | zero =>
          cases h
          simp only [List.modify_zero_cons, List.map_cons, List.sum_cons]
          omega
      | succ k =>
          have := ih (by simpa using h)
          simp only [List.modify_succ_cons, List.map_cons, List.sum_cons]
          omega

theorem getElem?_modify_of_some {α : Type*} {f : α → α} {l : List α} {k : Nat} {y : α} (h : l[k]? = some y) :
    (l.modify k f)[k]? = some (f y) := by
  simp [h]

theorem getElem?_modify_of_ne {α : Type*} {f : α → α} {l : List α} {k j : Nat} (h : k ≠ j) :
    (l.modify k f)[j]? = l[j]? := by
  simp [h]

/-- Every thread that works for an export has its account, the books of which fit where it stands; every other
account is settled; and the accounts add up. -/
structure Sound {ι : Type*} [Fintype ι] (x : Exports C) (ts : ι → Exporter C) : Prop where
  books : Books x.frame fun i => (ts i).pc
  born : x.frame.life ≠ .unborn
  total : ∀ n, (x.frame.references n : Int) = x.others n + x.leased n
  tasks : ∀ i (k : Nat), (ts i).task = some k → ∃ account n, x.accounts[k]? = some account ∧
    account.request.frame = some n ∧ (ts i).Engaged x.frame.core.native account n
  alone : ∀ i j k, (ts i).task = some k → (ts j).task = some k → i = j
  resting : ∀ (k : Nat) (account : Account), x.accounts[k]? = some account → (∀ i, (ts i).task ≠ some k) → account.Resting
  dependent : ∀ (k : Nat) (account : Account), x.accounts[k]? = some account → account.Dependent x.frame.core.native

section

variable {ι : Type*} [Fintype ι] [DecidableEq ι] {x : Exports C} {ts : ι → Exporter C} {i : ι}

theorem books_update {b : Frame C} {t : Exporter C}
    (h : Books b (Function.update (fun j => (ts j).pc) i t.pc)) :
    Books b fun j => (Function.update ts i t j).pc := by
  have hcomp : (fun j => (Function.update ts i t j).pc) = Function.update (fun j => (ts j).pc) i t.pc :=
    Function.comp_update (fun t : Exporter C => t.pc) ts i t
  rw [hcomp]
  exact h

theorem Sound.effect (h : Sound x ts) {k n : Nat} {account account' : Account} {o : Act C}
    (haccount : x.accounts[k]? = some account) (hframe : account.request.frame = some n)
    (hfree : ∀ j, j ≠ i → (ts j).task ≠ some k) (htask : (ts i).task = none ∨ (ts i).task = some k)
    (hadd : ∀ n, (ts i).pc = .addReference n → x.frame.references n + 1 < 2 ^ 32)
    (ho : Effect x (ts i).pc k n account account' o) : Sound o.1 (Function.update ts i o.2) := by
  obtain ⟨f, haccounts, hf⟩ := ho.accounts
  have hnative := ho.touch.native h.born
  have hself : o.1.accounts[k]? = some account' := by
    rw [haccounts, getElem?_modify_of_some haccount, hf]
  have hother {j : Nat} (hj : k ≠ j) : o.1.accounts[j]? = x.accounts[j]? := by
    rw [haccounts, getElem?_modify_of_ne hj]
  have hframe' : account'.request.frame = some n := by rw [ho.request, hframe]
  refine ⟨books_update (ho.touch.books h.books rfl hadd), ho.touch.born h.born, fun m => ?_, fun j l hj => ?_,
    fun j j' l hj hj' => ?_, fun l other hl hrest => ?_, fun l other hl => ?_⟩
  · have hold := h.total m
    have hleased : o.1.leased m = x.leased m + (account'.on m - account.on m) := by
      rw [Exports.leased, haccounts, sum_map_modify haccount, hf]
      rfl
    rw [ho.others, hleased]
    by_cases hm : m = n
    · subst hm
      have := ho.leases
      simp only [Account.on, hframe, hframe', ↓reduceIte]
      omega
    · have hapart := ho.apart m hm
      simp only [Account.on, hframe, hframe', Option.some.injEq, Ne.symm hm, ↓reduceIte]
      omega
  · rw [hnative]
    by_cases hji : j = i
    · subst hji
      rw [Function.update_self] at hj ⊢
      rcases ho.after with ⟨hsome, hengaged⟩ | ⟨hnone, -⟩
      · rw [hsome] at hj
        cases hj
        exact ⟨account', n, hself, hframe', hengaged⟩
      · rw [hnone] at hj
        cases hj
    · rw [Function.update_of_ne hji] at hj ⊢
      have hkl : k ≠ l := by
        rintro rfl
        exact hfree j hji hj
      rw [hother hkl]
      exact h.tasks j l hj
  · have hne {m : ι} (hm : m ≠ i) (hl : (Function.update ts i o.2 m).task = some l) : l ≠ k ∧ (ts m).task = some l := by
      rw [Function.update_of_ne hm] at hl
      refine ⟨?_, hl⟩
      rintro rfl
      exact hfree m hm hl
    have hmine (hl : (Function.update ts i o.2 i).task = some l) : l = k := by
      rw [Function.update_self] at hl
      rcases ho.after with ⟨hsome, -⟩ | ⟨hnone, -⟩
      · rw [hsome] at hl
        exact (Option.some.inj hl).symm
      · rw [hnone] at hl
        cases hl
    by_cases hji : j = i
    · by_cases hji' : j' = i
      · rw [hji, hji']
      · subst hji
        exact absurd (hmine hj) (hne hji' hj').1
    · by_cases hji' : j' = i
      · subst hji'
        exact absurd (hmine hj') (hne hji hj).1
      · exact h.alone j j' l (hne hji hj).2 (hne hji' hj').2
  · by_cases hkl : k = l
    · subst hkl
      rw [hself] at hl
      cases hl
      rcases ho.after with ⟨hsome, -⟩ | ⟨-, hresting⟩
      · have := hrest i
        rw [Function.update_self] at this
        exact absurd hsome this
      · exact hresting
    · rw [hother hkl] at hl
      refine h.resting l other hl fun j hj => ?_
      by_cases hji : j = i
      · subst hji
        rcases htask with hnone | hsome
        · rw [hnone] at hj
          cases hj
        · rw [hsome] at hj
          exact hkl (Option.some.inj hj)
      · have := hrest j
        rw [Function.update_of_ne hji] at this
        exact this hj
  · rw [hnative]
    by_cases hkl : k = l
    · subst hkl
      rw [hself] at hl
      cases hl
      exact ho.dependent
    · rw [hother hkl] at hl
      exact h.dependent l other hl

end

/-! ## What the sections of an export do -/

section

variable {x : Exports C} {t : Exporter C} {k n : Nat} {account : Account} {s : Section C}

theorem charge_eq (b : Frame C) (hframe : account.request.frame = some n) :
    account.charge a b =
      { account with
        leases := account.leases + ((b.references n : Int) - a.references n)
        complete := account.complete || producerComplete a } := by
  simp only [Account.charge, hframe]

theorem start_handle {op : HandleOp} (h : start a (.handle n op) = some s) :
    s.pc = .check n op ∧ s.reply = none := by
  simp only [start] at h
  split at h
  · cases h
  · split at h <;> cases h
    exact ⟨rfl, rfl⟩

theorem start_release (h : start a (.release n) = some s) : s.pc = .dropReference n ∧ s.reply = none := by
  simp only [start] at h
  split at h
  · cases h
  · split at h <;> cases h
    exact ⟨rfl, rfl⟩

theorem section_effect (hframe : account.request.frame = some n) (htask : t.task = some k)
    (hwork : t.Engaged x.frame.core.native account n) (hdependent : account.Dependent x.frame.core.native)
    (hs : runSection x.frame t.pc = some s)
    (hadd : t.pc = .addReference n → x.frame.references n ≠ 0 ∧ x.frame.references n + 1 < 2 ^ 32)
    (hdrop : t.pc = .dropReference n → x.frame.references n ≠ 0) :
    Effect x t.pc k n account (account.charge x.frame s.shared) (x.record (some k) s.shared, t.after s) where
  accounts := ⟨_, rfl, rfl⟩
  others := rfl
  touch := .move (runSection_move hs)
  request := by rw [charge_eq s.shared hframe]
  leases := by rw [charge_eq s.shared hframe]; rfl
  apart m hm := by
    rcases (runSection_move hs).references (n := m) with hsame | hpc
    · exact hsame
    · exact absurd (hwork.touches hpc) hm
  dependent := by rw [charge_eq s.shared hframe]; exact hdependent
  after := by
    rw [charge_eq s.shared hframe]
    exact .inl ⟨htask, hwork.section hs rfl hadd hdrop⟩

theorem goTo_effect {stage : Stage} (htask : t.task = some k)
    (hwork : t.Engaged x.frame.core.native (account.turn stage) n)
    (hdependent : account.Dependent x.frame.core.native) :
    Effect x t.pc k n account (account.turn stage) (goTo x t k stage) where
  accounts := ⟨_, rfl, rfl⟩
  others := rfl
  touch := .same
  request := rfl
  leases := by simp [goTo, Exports.turn, Account.turn]
  apart _ _ := rfl
  dependent := hdependent
  after := .inl ⟨htask, hwork⟩

theorem endTask_effect {stage : Stage} (hresting : (account.turn stage).Resting)
    (hdependent : account.Dependent x.frame.core.native) :
    Effect x t.pc k n account (account.turn stage) (endTask x t k stage) where
  accounts := ⟨_, rfl, rfl⟩
  others := rfl
  touch := .same
  request := rfl
  leases := by simp [endTask, Exports.turn, Account.turn]
  apart _ _ := rfl
  dependent := hdependent
  after := .inr ⟨rfl, hresting⟩

/-- The dependency has been registered, and the export succeeds. -/
theorem register_effect {source : Source} (hleases : account.leases = 1)
    (hnative : x.frame.core.native = some source.native) (hstream : account.request.consumerStream ≠ 0)
    (hevent : source.native.handles 3 ≠ 0) :
    Effect x t.pc k n account ((account.register (source.dependency account.request)).turn (.exported source.tensor))
      (endTask (x.register k (source.dependency account.request)) t k (.exported source.tensor)) where
  accounts := ⟨Account.turn (.exported source.tensor) ∘ Account.register (source.dependency account.request),
    List.modify_modify_eq .., rfl⟩
  others := rfl
  touch := .same
  request := rfl
  leases := by simp [endTask, Exports.turn, Exports.register, Account.turn, Account.register]
  apart _ _ := rfl
  dependent := by
    rintro d hd
    cases hd
    exact ⟨source.native, hnative, hevent, hstream, rfl⟩
  after := .inr ⟨rfl, hleases, .inr rfl⟩

theorem callAbi_effect {stage : Stage} {call : Call C} {o : Act C} (hframe : account.request.frame = some n)
    (htask : t.task = some k) (hidle : t.pc = .idle) (hdependent : account.Dependent x.frame.core.native)
    (ho : callAbi x t k stage call = some o)
    (hwork : ∀ s, start x.frame call = some s → Working x.frame.core.native account.request n stage account.leases
      (account.complete || producerComplete x.frame) s.pc (s.reply.or t.reply)) :
    ∃ account', Effect x t.pc k n account account' o := by
  obtain ⟨s, hs, rfl⟩ := Option.map_eq_some_iff.mp ho
  have hmove := start_move hs
  have hsame (m : Nat) : s.shared.references m = x.frame.references m := by
    rcases hmove.references (n := m) with hsame | hpc | hpc | ⟨who, hpc⟩
    · exact hsame
    all_goals cases hpc
  refine ⟨(account.charge x.frame s.shared).turn stage, ⟨Account.turn stage ∘ Account.charge x.frame s.shared,
    List.modify_modify_eq .., rfl⟩, rfl, ?_, ?_, ?_, fun m _ => hsame m, ?_, .inl ⟨htask, ?_⟩⟩
  · rw [hidle]
    exact .move hmove
  · rw [charge_eq s.shared hframe]
    rfl
  · rw [charge_eq s.shared hframe]
    rfl
  · rw [charge_eq s.shared hframe]
    exact hdependent
  · rw [charge_eq s.shared hframe]
    simp only [Exporter.Engaged, Account.turn, Exporter.after, hsame n, Int.sub_self, Int.add_zero]
    exact hwork s hs

/-- An export that has no lease yet fails. -/
theorem fail_effect (result : Option Status) (hleases : account.leases = 0)
    (hdependent : account.Dependent x.frame.core.native) :
    ∃ account', Effect x t.pc k n account account' (endTask x t k (.failed result)) :=
  ⟨_, endTask_effect hleases hdependent⟩

/-- An export that has its lease fails. -/
theorem unwind_effect (result : Option Status) (htask : t.task = some k) (hidle : t.pc = .idle)
    (hleases : account.leases = 1) (hdependent : account.Dependent x.frame.core.native) :
    ∃ account', Effect x t.pc k n account account' (goTo x t k (.unwind result)) := by
  refine ⟨_, goTo_effect htask ?_ hdependent⟩
  simp only [Exporter.Engaged, Account.turn, hleases, hidle]
  exact .unwind

theorem afterDesc_effect {planeIndex : Nat} {answer : Answer} {reply : Reply} {o : Act C}
    (hframe : account.request.frame = some n) (htask : t.task = some k) (hidle : t.pc = .idle)
    (hdependent : account.Dependent x.frame.core.native) (hleases : account.leases = 0)
    (ho : afterDesc x t k n planeIndex answer reply = some o) : ∃ account', Effect x t.pc k n account account' o := by
  unfold afterDesc at ho
  split at ho
  · split at ho
    · cases ho
      exact fail_effect _ hleases hdependent
    · split at ho
      · refine callAbi_effect hframe htask hidle hdependent ho fun s hs => ?_
        obtain ⟨hpc, hreply⟩ := start_handle hs
        rw [hpc, hreply, hleases]
        exact .nativeCheck
      · cases ho
  · cases ho
    exact fail_effect _ hleases hdependent

theorem afterNative_effect {desc : GpuFrameDesc} {plane : Fin 4} {answer : Answer} {reply : Reply} {o : Act C}
    (hframe : account.request.frame = some n) (htask : t.task = some k) (hidle : t.pc = .idle)
    (hdependent : account.Dependent x.frame.core.native) (hleases : account.leases = 0)
    (hnative : ∀ value, reply.output = some (.native value) → x.frame.core.native = some value)
    (ho : afterNative x t k n desc plane answer reply = some o) :
    ∃ account', Effect x t.pc k n account account' o := by
  unfold afterNative at ho
  split at ho
  · rename_i value houtput
    split at ho
    · cases ho
      exact fail_effect _ hleases hdependent
    · cases answer with
      | ok =>
          refine callAbi_effect hframe htask hidle hdependent ho fun s hs => ?_
          obtain ⟨hpc, hreply⟩ := start_handle hs
          rw [hpc, hreply, hleases]
          exact .retainCheck (hnative value houtput)
      | fails =>
          cases ho
          exact fail_effect _ hleases hdependent
      | throws =>
          cases ho
          exact fail_effect _ hleases hdependent
  · cases ho
    exact fail_effect _ hleases hdependent

theorem dependency_effect {nvidia : Bool} {source : Source} {answer : Answer} {o : Act C}
    (hframe : account.request.frame = some n) (htask : t.task = some k) (hidle : t.pc = .idle)
    (hdependent : account.Dependent x.frame.core.native) (hleases : account.leases = 1)
    (hnative : x.frame.core.native = some source.native)
    (ho : dependency nvidia x t k n account.request source answer = some o) :
    ∃ account', Effect x t.pc k n account account' o := by
  simp only [dependency] at ho
  split at ho
  · rename_i hcallback
    simp only [Bool.and_eq_true, decide_eq_true_eq] at hcallback
    cases ho
    refine ⟨_, goTo_effect htask ?_ hdependent⟩
    simp only [Exporter.Engaged, Account.turn, hleases, hidle]
    exact .callback hnative hcallback.1.2.1 hcallback.1.2.2
  · split at ho
    · rename_i hstream
      simp only [Bool.and_eq_true, decide_eq_true_eq] at hstream
      split at ho
      · cases ho
        refine ⟨_, goTo_effect htask ?_ hdependent⟩
        simp only [Exporter.Engaged, Account.turn, hleases, hidle]
        exact .stream hnative hstream.2.1 hstream.2.2
      · cases ho
        exact unwind_effect _ htask hidle hleases hdependent
    · refine callAbi_effect hframe htask hidle hdependent ho fun s hs => ?_
      obtain ⟨hpc, hreply⟩ := start_handle hs
      rw [hpc, hreply, hleases]
      exact .waitCheck

theorem afterCallback_effect {source : Source} {answer : Answer} (htask : t.task = some k) (hidle : t.pc = .idle)
    (hdependent : account.Dependent x.frame.core.native) (hleases : account.leases = 1)
    (hnative : x.frame.core.native = some source.native) (hstream : account.request.consumerStream ≠ 0)
    (hevent : source.native.handles 3 ≠ 0) :
    ∃ account', Effect x t.pc k n account account' (afterCallback x t k account.request source answer) := by
  cases answer with
  | ok => exact ⟨_, register_effect hleases hnative hstream hevent⟩
  | fails status => exact unwind_effect _ htask hidle hleases hdependent
  | throws => exact unwind_effect _ htask hidle hleases hdependent

theorem afterStream_effect {source : Source} {answer : Answer} (htask : t.task = some k) (hidle : t.pc = .idle)
    (hdependent : account.Dependent x.frame.core.native) (hleases : account.leases = 1)
    (hnative : x.frame.core.native = some source.native) (hstream : account.request.consumerStream ≠ 0)
    (hevent : source.native.handles 3 ≠ 0) :
    ∃ account', Effect x t.pc k n account account' (afterStream x t k account.request source answer) := by
  unfold afterStream
  split
  · exact ⟨_, register_effect hleases hnative hstream hevent⟩
  · exact unwind_effect _ htask hidle hleases hdependent
  · exact unwind_effect _ htask hidle hleases hdependent

theorem afterWait_effect {source : Source} {answer : Answer} {reply : Reply} (htask : t.task = some k)
    (hidle : t.pc = .idle) (hdependent : account.Dependent x.frame.core.native) (hleases : account.leases = 1)
    (hcomplete : reply.status.result = .ok → account.complete = true) :
    ∃ account', Effect x t.pc k n account account' (afterWait x t k source answer reply) := by
  unfold afterWait
  split
  · rename_i hok
    exact ⟨_, endTask_effect ⟨hleases, .inl (hcomplete hok)⟩ hdependent⟩
  · exact unwind_effect _ htask hidle hleases hdependent

/-- Every step of the adapter keeps the books of its export. -/
theorem adapterStep_effect {nvidia : Bool} {answer : Answer} {o : Act C} (hframe : account.request.frame = some n)
    (htask : t.task = some k) (hidle : t.pc = .idle) (hwork : t.Engaged x.frame.core.native account n)
    (hdependent : account.Dependent x.frame.core.native)
    (ho : adapterStep nvidia answer x t k n account = some o) : ∃ account', Effect x t.pc k n account account' o := by
  obtain ⟨request, stage, leases, complete, registered⟩ := account
  unfold adapterStep at ho
  unfold Exporter.Engaged at hwork
  rw [hidle] at hwork
  generalize hreply : t.reply = reply at hwork ho
  cases hwork with
  | desc =>
      obtain ⟨reply, -, ho⟩ := Option.bind_eq_some_iff.mp ho
      exact afterDesc_effect hframe htask hidle hdependent rfl ho
  | native hnative =>
      obtain ⟨reply, rfl, ho⟩ := Option.bind_eq_some_iff.mp ho
      refine afterNative_effect hframe htask hidle hdependent rfl (fun value houtput => ?_) ho
      exact hnative reply.status value (by rw [← houtput])
  | retained hnative hok =>
      cases ho
      simp only [afterRetain, hok, ↓reduceIte]
      refine ⟨_, goTo_effect htask ?_ hdependent⟩
      simp only [Exporter.Engaged, Account.turn, hidle]
      exact .dependency hnative
  | refused hfails =>
      cases ho
      simp only [afterRetain, hfails, ↓reduceIte]
      exact fail_effect _ rfl hdependent
  | dependency hnative => exact dependency_effect hframe htask hidle hdependent rfl hnative ho
  | callback hnative hstream hevent =>
      cases ho
      exact afterCallback_effect htask hidle hdependent rfl hnative hstream hevent
  | stream hnative hstream hevent =>
      cases ho
      exact afterStream_effect htask hidle hdependent rfl hnative hstream hevent
  | waited hcomplete =>
      cases ho
      exact afterWait_effect htask hidle hdependent rfl hcomplete
  | unwind =>
      refine callAbi_effect hframe htask hidle hdependent ho fun s hs => ?_
      obtain ⟨hpc, hreply⟩ := start_release hs
      rw [hpc]
      exact .drop rfl
  | released hstage =>
      cases stage with
      | release result =>
          cases ho
          exact fail_effect _ rfl hdependent
      | deleter =>
          cases ho
          refine ⟨_, endTask_effect ?_ hdependent⟩
          rfl
      | _ => cases hstage

end

end Dlpack

end MkvCodec.Gpu
