import MkvCodec.Python.OpenClProcessorSlots

/-!
# Closing the Intel OpenCL processor

A close of the adapter looks at all pools behind the lock, says that the adapter is closed and then closes one pool after the
other. A conversion that has looked up its pool earlier may come between any two of these steps.
-/

namespace MkvCodec.Python

open Concurrency

variable {ι : Type*} [DecidableEq ι]

/-! ## Where a close stands -/

namespace AdapterPc

/-- The pool that a close is at, and those that it has not come to. -/
def left : AdapterPc → Option (Option Nat × List Nat)
  | .closing pools => some (none, pools)
  | .runtimeClosing p rest | .tearing p _ rest => some (some p, rest)
  | _ => none

/-- The pools that a close is to look at, and those that it has looked at. -/
def checks : AdapterPc → Option (List Nat × List Nat)
  | .checking todo checked => some (todo, checked)
  | _ => none

/-- A close whose runtime raised has pools left. -/
def strands : AdapterPc → Bool
  | .tearing _ failed rest => failed && !rest.isEmpty
  | _ => false

/-- What the invariant says of a thread. -/
def closePart (pc : AdapterPc) : Option (Option Nat × List Nat) × Option (List Nat × List Nat) × Bool :=
  (pc.left, pc.checks, pc.strands)

end AdapterPc

inductive PoolStage
  | usable
  | closing
  | closed

/-- A pool in each stage. From its close on nobody has a slot of it. -/
def OutputPool.At (pool : OutputPool) (size : Nat) : PoolStage → Prop
  | .usable => pool.closed = false ∧ pool.resources = size ∧ pool.torn = 0
  | .closing => pool.closed = true ∧ pool.inUse = [] ∧ pool.torn = 0
  | .closed => pool.closed = true ∧ pool.inUse = [] ∧ pool.torn = 1

theorem AdapterPc.checks_of_left {pc : AdapterPc} {part : Option Nat × List Nat} (h : pc.left = some part) :
    pc.checks = none := by
  cases pc with
  | checking todo checked => cases h
  | _ => rfl

namespace OutputPool.At

variable {pool : OutputPool} {size index : Nat} {stage : PoolStage}

theorem slots (h : pool.At size stage) (hopen : pool.closed = false) (slots : FreeList.Slots Nat) :
    { pool with toSlots := slots }.At size stage := by
  cases stage with
  | usable => exact h
  | closing | closed =>
      have hclosed := h.1
      rw [hopen] at hclosed
      cases hclosed

theorem release (h : pool.At size stage) : (pool.release index).At size stage := by
  cases stage with
  | usable => exact h
  | closing | closed =>
      have hgive : pool.release index = pool := by
        rw [OutputPool.release, FreeList.give, h.2.1, if_neg List.not_mem_nil]
      rw [hgive]
      exact h

theorem torn_le (h : pool.At size stage) : pool.torn ≤ 1 := by
  cases stage with
  | usable | closing =>
      rw [h.2.2]
      exact Nat.zero_le 1
  | closed => exact Nat.le_of_eq h.2.2

end OutputPool.At

namespace OpenClAdapter

/-- The stage of a pool, by the flag of the adapter and by the thread that closes its pools. -/
def stage (closed : Bool) (worker : Option (ι × Option Nat × List Nat)) (p : Nat) : PoolStage :=
  match closed, worker with
  | false, _ => .usable
  | true, none => .closed
  | true, some (_, current, rest) => if p ∈ rest then .usable else if current = some p then .closing else .closed

/-- One close at most gets to the pools, and it has in its hands every pool that is not closed. -/
structure Closable (s : OpenClAdapter ι) (worker : Option (ι × Option Nat × List Nat)) : Prop where
  thread : ∀ j part, (s.threads j).left = some part ↔ worker = some (j, part)
  nodup : ∀ i current rest, worker = some (i, current, rest) →
    (current.toList ++ rest).Nodup ∧ ∀ p ∈ current.toList ++ rest, p < s.poolCount
  closed : s.closed = false → worker = none
  pool : ∀ p < s.poolCount, (s.pool p).At s.poolSize (stage s.closed worker p)
  pools : s.closed = false → s.pools.map Prod.snd = List.range s.poolCount
  lock : ∀ j, s.lock = some j ↔ (s.threads j).checks ≠ none
  checks : ∀ j todo checked, (s.threads j).checks = some (todo, checked) →
    s.closed = false ∧ checked ++ todo = List.range s.poolCount
  strands : ∀ j, (s.threads j).strands = false
  late : s.late = false
  occupied : s.occupied = false

variable {s : OpenClAdapter ι} {worker : Option (ι × Option Nat × List Nat)} {i : ι} {pc : AdapterPc} {p index k : Nat}

namespace Closable

omit [DecidableEq ι] in
/-- A step that leaves the close of every thread where it is. -/
theorem go (h : s.Closable worker) {pool : Nat → OutputPool} {leaseCount : Nat} {lease : Nat → PooledLease ι}
    {threads : ι → AdapterPc} {acquired returned : List (Nat × Nat)}
    (hthreads : ∀ j, (threads j).closePart = (s.threads j).closePart)
    (hpool : ∀ p < s.poolCount, ∀ stage, (s.pool p).At s.poolSize stage → (pool p).At s.poolSize stage) :
    Closable { s with
      pool := pool
      leaseCount := leaseCount
      lease := lease
      threads := threads
      acquired := acquired
      returned := returned } worker := by
  have hleft (j : ι) : (threads j).left = (s.threads j).left := congrArg (·.1) (hthreads j)
  have hchecks (j : ι) : (threads j).checks = (s.threads j).checks := congrArg (·.2.1) (hthreads j)
  have hstrands (j : ι) : (threads j).strands = (s.threads j).strands := congrArg (·.2.2) (hthreads j)
  exact
    { thread := fun j part => by
        rw [← h.thread, ← hleft]
      nodup := h.nodup
      closed := h.closed
      pool := fun p hp => hpool p hp _ (h.pool p hp)
      pools := h.pools
      lock := fun j => by
        rw [h.lock, ← hchecks]
      checks := fun j todo checked hj => h.checks j todo checked ((hchecks j).symm.trans hj)
      strands := fun j => (hstrands j).trans (h.strands j)
      late := h.late
      occupied := h.occupied }

theorem closePart_update (hpc : pc.closePart = (s.threads i).closePart) (j : ι) :
    (Function.update s.threads i pc j).closePart = (s.threads j).closePart := by
  rcases eq_or_ne j i with rfl | hne
  · rw [Function.update_self, hpc]
  · rw [Function.update_of_ne hne]

theorem put (h : s.Closable worker) (hpc : pc.closePart = (s.threads i).closePart) : (s.put i pc).Closable worker :=
  h.go (closePart_update hpc) fun _ _ _ hp => hp

omit [DecidableEq ι] in
theorem pool_update {pool : OutputPool}
    (hpool : p < s.poolCount → ∀ stage, (s.pool p).At s.poolSize stage → pool.At s.poolSize stage) (q : Nat)
    (hq : q < s.poolCount) (stage : PoolStage) (h : (s.pool q).At s.poolSize stage) :
    (Function.update s.pool p pool q).At s.poolSize stage := by
  rcases eq_or_ne q p with rfl | hne
  · rw [Function.update_self]
    exact hpool hq stage h
  · rw [Function.update_of_ne hne]
    exact h

theorem strands_update (h : s.Closable worker) (hpc : pc.strands = false) (j : ι) :
    (Function.update s.threads i pc j).strands = false :=
  (Function.forall_update_iff s.threads fun _ pc => pc.strands = false).mpr ⟨hpc, fun j _ => h.strands j⟩ j

/-- The thread that closes pools goes on with them. -/
theorem move (h : s.Closable worker) (hi : ∀ j part, worker = some (j, part) → j = i) (j : ι)
    (part : Option Nat × List Nat) :
    (Function.update s.threads i pc j).left = some part ↔ pc.left.map (Prod.mk i) = some (j, part) := by
  rcases eq_or_ne j i with rfl | hne
  · rw [Function.update_self]
    cases pc.left with
    | none => simp
    | some part' => simp
  · rw [Function.update_of_ne hne, h.thread]
    refine iff_of_false (fun hj => hne (hi j part hj)) ?_
    cases pc.left with
    | none => simp
    | some part' => simp [hne.symm]

omit [DecidableEq ι] in
theorem worker_of_left (h : s.Closable worker) {part : Option Nat × List Nat} (hi : (s.threads i).left = some part) :
    worker = some (i, part) ∧ s.closed = true := by
  have hworker := (h.thread i part).mp hi
  refine ⟨hworker, ?_⟩
  rw [← Bool.not_eq_false]
  intro hopen
  rw [h.closed hopen] at hworker
  cases hworker

/-- The thread that closes pools has fewer of them left. -/
theorem proceed (h : s.Closable worker) {current : Option Nat} {rest : List Nat} {pool : Nat → OutputPool}
    (hi : (s.threads i).left = some (current, rest)) (hpc : pc.checks = none ∧ pc.strands = false)
    (hleft : ∀ current' rest', pc.left = some (current', rest') →
      (current'.toList ++ rest').Sublist (current.toList ++ rest))
    (hpool : ∀ p < s.poolCount, (s.pool p).At s.poolSize (stage true (some (i, current, rest)) p) →
      (pool p).At s.poolSize (stage true (pc.left.map (Prod.mk i)) p)) :
    Closable { s with pool := pool, threads := Function.update s.threads i pc } (pc.left.map (Prod.mk i)) := by
  obtain ⟨hworker, hclosed⟩ := h.worker_of_left hi
  have hchecks (j : ι) : (Function.update s.threads i pc j).checks = (s.threads j).checks := by
    rcases eq_or_ne j i with rfl | hne
    · rw [Function.update_self, hpc.1, AdapterPc.checks_of_left hi]
    · rw [Function.update_of_ne hne]
  have hnodup := h.nodup i current rest hworker
  exact
    { thread := h.move fun j part hj => by
        rw [hworker] at hj
        cases hj
        rfl
      nodup := fun j current' rest' hj => by
        obtain ⟨part, hpart, heq⟩ := Option.map_eq_some_iff.mp hj
        cases heq
        have hsub := hleft current' rest' hpart
        exact ⟨hnodup.1.sublist hsub, fun p hp => hnodup.2 p (hsub.subset hp)⟩
      closed := fun hopen => by
        dsimp only at hopen
        rw [hclosed] at hopen
        cases hopen
      pool := fun p hp => by
        have hat := h.pool p hp
        rw [hclosed, hworker] at hat
        dsimp only
        rw [hclosed]
        exact hpool p hp hat
      pools := h.pools
      lock := fun j => by
        rw [hchecks]
        exact h.lock j
      checks := fun j todo checked hj => h.checks j todo checked ((hchecks j).symm.trans hj)
      strands := h.strands_update hpc.2
      late := h.late
      occupied := h.occupied }

end Closable

/-! ## Steps of a close -/

theorem succeed_eq (hactive : s.active = false) : s.succeed i = s.put i (.idle .closed) := by
  rw [succeed, hactive, Bool.or_false]
  rfl

omit [DecidableEq ι] in
theorem active_eq_false : s.active = false ↔ ∀ p < s.poolCount, (s.pool p).inUse = [] := by
  simp [active]

namespace Closable

omit [DecidableEq ι] in
/-- The lock lets one close at a time look at the pools. -/
theorem not_checks (h : s.Closable worker) (hi : (s.threads i).checks ≠ none) {j : ι} (hj : j ≠ i) :
    (s.threads j).checks = none := by
  by_contra hsome
  have heq := (h.lock j).mpr hsome
  rw [(h.lock i).mpr hi] at heq
  exact hj (Option.some.inj heq).symm

/-- A thread goes on with the lock, or gives it back. -/
theorem look (h : s.Closable worker) {lock : Option ι} (hothers : ∀ j, j ≠ i → (s.threads j).checks = none)
    (hleft : (s.threads i).left = none) (hpc : pc.left = none) (hstrands : pc.strands = false)
    (hlock : ∀ j, lock = some j ↔ j = i ∧ pc.checks ≠ none)
    (hchecks : ∀ todo checked, pc.checks = some (todo, checked) →
      s.closed = false ∧ checked ++ todo = List.range s.poolCount) :
    Closable { s with lock := lock, threads := Function.update s.threads i pc } worker := by
  refine ⟨fun j part => ?_, h.nodup, h.closed, h.pool, h.pools, fun j => ?_, fun j todo checked hj => ?_,
    h.strands_update hstrands, h.late, h.occupied⟩
  · rw [← h.thread]
    dsimp only
    rcases eq_or_ne j i with rfl | hne
    · rw [Function.update_self, hleft, hpc]
    · rw [Function.update_of_ne hne]
  · dsimp only
    rw [hlock]
    rcases eq_or_ne j i with rfl | hne
    · rw [Function.update_self]
      simp
    · rw [Function.update_of_ne hne, hothers j hne]
      simp [hne]
  · dsimp only at hj ⊢
    rcases eq_or_ne j i with rfl | hne
    · rw [Function.update_self] at hj
      exact hchecks todo checked hj
    · rw [Function.update_of_ne hne, hothers j hne] at hj
      cases hj

theorem startClose (h : s.Closable worker) (hi : (s.threads i).closePart = (none, none, false)) (hlock : s.lock = none)
    (hactive : s.closed = true → s.active = false) : (s.startClose i).Closable worker := by
  unfold OpenClAdapter.startClose
  split
  · rename_i hclosed
    rw [succeed_eq (hactive hclosed)]
    exact h.put hi.symm
  · rename_i hopen
    rw [Bool.not_eq_true] at hopen
    refine h.look (fun j _ => ?_) (congrArg (·.1) hi) rfl rfl (fun j => ?_) ?_
    · by_contra hsome
      have heq := (h.lock j).mpr hsome
      rw [hlock] at heq
      cases heq
    · simp [AdapterPc.checks, eq_comm]
    · rintro todo checked ⟨⟩
      exact ⟨hopen, h.pools hopen⟩

/-- All pools have been looked at. -/
theorem startPools (h : s.Closable worker) {checked : List Nat} (hi : s.threads i = .checking [] checked) :
    (s.check i checked []).Closable (some (i, none, checked)) := by
  have hchecks : (s.threads i).checks = some ([], checked) := by
    rw [hi]
    rfl
  obtain ⟨hopen, hall⟩ := h.checks i [] checked hchecks
  rw [List.append_nil] at hall
  have hnobody (j : ι) : ((s.check i checked []).threads j).checks = none := by
    simp only [OpenClAdapter.check]
    rcases eq_or_ne j i with rfl | hne
    · rw [Function.update_self]
      rfl
    · rw [Function.update_of_ne hne]
      exact h.not_checks (by simp [hchecks]) hne
  refine ⟨?_, ?_, nofun, fun p hp => ?_, nofun, fun j => ?_, fun j todo checked hj => ?_, h.strands_update rfl, h.late,
    h.occupied⟩
  · exact h.move fun j part hj => by
      rw [h.closed hopen] at hj
      cases hj
  · rintro j current rest ⟨⟩
    rw [hall]
    exact ⟨List.nodup_range, fun p hp => List.mem_range.mp hp⟩
  · have hat := h.pool p hp
    rw [hopen] at hat
    have hmem : p ∈ checked := by
      rw [hall]
      exact List.mem_range.mpr hp
    simp only [OpenClAdapter.check, stage, if_pos hmem]
    exact hat
  · rw [hnobody]
    simp [OpenClAdapter.check]
  · rw [hnobody] at hj
    cases hj

theorem check (h : s.Closable worker) {todo checked : List Nat} (hi : s.threads i = .checking todo checked) :
    ∃ worker, (s.check i checked todo).Closable worker := by
  cases todo with
  | nil => exact ⟨_, h.startPools hi⟩
  | cons p todo =>
      refine ⟨worker, ?_⟩
      have hchecks : (s.threads i).checks = some (p :: todo, checked) := by
        rw [hi]
        rfl
      have hleft : (s.threads i).left = none := by
        rw [hi]
        rfl
      have hothers (j : ι) (hj : j ≠ i) : (s.threads j).checks = none := h.not_checks (by simp [hchecks]) hj
      obtain ⟨hopen, hall⟩ := h.checks i (p :: todo) checked hchecks
      simp only [OpenClAdapter.check]
      split
      · refine h.look hothers hleft rfl rfl (fun j => ?_) nofun
        simp [AdapterPc.checks]
      · refine h.look hothers hleft rfl rfl (fun j => ?_) ?_
        · rw [(h.lock i).mpr (by simp [hchecks])]
          simp [AdapterPc.checks, eq_comm]
        · rintro todo' checked' ⟨⟩
          rw [List.append_assoc]
          exact ⟨hopen, hall⟩

/-- The close of a pool that nobody has a slot of. -/
theorem closePool (h : s.Closable worker) {pools : List Nat} (hi : s.threads i = .closing pools)
    (hfree : ∀ p rest, pools = p :: rest → (s.pool p).inUse = []) : ∃ worker, (s.closePool i pools).Closable worker := by
  have hleft : (s.threads i).left = some (none, pools) := by
    rw [hi]
    rfl
  obtain ⟨hworker, hclosed⟩ := h.worker_of_left hleft
  cases pools with
  | nil =>
      have hactive : s.active = false := by
        refine active_eq_false.mpr fun p hp => ?_
        have hat := h.pool p hp
        rw [hclosed, hworker] at hat
        exact hat.2.1
      rw [OpenClAdapter.closePool, succeed_eq hactive]
      exact ⟨_, h.proceed hleft ⟨rfl, rfl⟩ nofun fun p hp hat => hat⟩
  | cons p rest =>
      have hnodup := h.nodup i none (p :: rest) hworker
      have hp : p < s.poolCount := hnodup.2 p List.mem_cons_self
      have hat := h.pool p hp
      rw [hclosed, hworker] at hat
      simp only [stage, List.mem_cons_self, if_true] at hat
      simp only [OpenClAdapter.closePool, hat.1, hfree p rest rfl, ne_eq, not_true_eq_false, Bool.false_eq_true, if_false]
      refine ⟨_, h.proceed hleft ⟨rfl, rfl⟩ ?_ fun q hq hat' => ?_⟩
      · rintro current' rest' ⟨⟩
        exact List.Sublist.refl _
      · have hnew : p ∉ rest := (List.nodup_cons.mp hnodup.1).1
        dsimp only [OpenClAdapter.setPool]
        rcases eq_or_ne q p with rfl | hne
        · rw [Function.update_self]
          simp only [AdapterPc.left, Option.map_some, stage, if_neg hnew, if_true]
          exact ⟨rfl, hfree q rest rfl, hat.2.2⟩
        · rw [Function.update_of_ne hne]
          simpa [AdapterPc.left, stage, hne, hne.symm] using hat'

theorem tear (h : s.Closable worker) {failed : Bool} {rest : List Nat} (hi : s.threads i = .tearing p failed rest) :
    ∃ worker, (s.tear i p failed rest false).Closable worker := by
  have hleft : (s.threads i).left = some (some p, rest) := by
    rw [hi]
    rfl
  obtain ⟨hworker, hclosed⟩ := h.worker_of_left hleft
  have hnodup := h.nodup i (some p) rest hworker
  have hnew : p ∉ rest := (List.nodup_cons.mp hnodup.1).1
  have hat := h.pool p (hnodup.2 p List.mem_cons_self)
  rw [hclosed, hworker] at hat
  simp only [stage, if_neg hnew, if_true] at hat
  have hpool (q : Nat) (hq : q < s.poolCount) (part : Option (Option Nat × List Nat))
      (hpart : part = some (none, rest) ∨ part = none ∧ rest = [])
      (hat' : (s.pool q).At s.poolSize (stage true (some (i, some p, rest)) q)) :
      (Function.update s.pool p { s.pool p with resources := 0, torn := (s.pool p).torn + 1 } q).At s.poolSize
        (stage true (part.map (Prod.mk i)) q) := by
    rcases eq_or_ne q p with rfl | hne
    · rw [Function.update_self]
      have hstage : stage true (part.map (Prod.mk i)) q = .closed := by
        rcases hpart with rfl | ⟨rfl, rfl⟩ <;> simp [stage, hnew]
      rw [hstage]
      exact ⟨hat.1, hat.2.1, by rw [hat.2.2]⟩
    · rw [Function.update_of_ne hne]
      have hstage : stage true (part.map (Prod.mk i)) q = stage true (some (i, some p, rest)) q := by
        rcases hpart with rfl | ⟨rfl, rfl⟩ <;> simp [stage, hne.symm]
      rw [hstage]
      exact hat'
  simp only [OpenClAdapter.tear, Bool.false_eq_true, if_false]
  cases failed with
  | false =>
      refine ⟨_, h.proceed hleft ⟨rfl, rfl⟩ ?_ fun q hq hat' => hpool q hq _ (.inl rfl) hat'⟩
      rintro current' rest' ⟨⟩
      exact List.sublist_cons_self p rest
  | true =>
      have hrest : rest = [] := by
        have hstrands := h.strands i
        rw [hi] at hstrands
        simpa [AdapterPc.strands] using hstrands
      exact ⟨_, h.proceed hleft ⟨rfl, rfl⟩ nofun
        fun q hq hat' => hpool q hq _ (.inr ⟨rfl, hrest⟩) hat'⟩

omit [DecidableEq ι] in
theorem open_of_lookup (h : s.Closable worker) {key : PoolKey} (hopen : s.closed = false)
    (hp : s.pools.lookup key = some p) : (s.pool p).closed = false := by
  obtain ⟨before, after, hpools, -⟩ := List.lookup_eq_some_iff.mp hp
  have hmem : p ∈ s.pools.map Prod.snd := by
    rw [hpools]
    simp
  rw [h.pools hopen, List.mem_range] at hmem
  have hat := h.pool p hmem
  rw [hopen] at hat
  exact hat.1

theorem construct (h : s.Closable worker) (key : PoolKey) (hi : (s.threads i).closePart = (none, none, false))
    (hopen : s.closed = false) (hlock : s.lock = none) :
    Closable { s with
      pools := s.pools ++ [(key, s.poolCount)]
      poolCount := s.poolCount + 1
      pool := Function.update s.pool s.poolCount (.new s.poolSize)
      threads := Function.update s.threads i (.acquiring s.poolCount) } worker := by
  have hput : (s.put i (.acquiring s.poolCount)).Closable worker := h.put hi.symm
  refine ⟨hput.thread, fun j current rest hj => ?_, h.closed, fun p hp => ?_, fun _ => ?_, hput.lock,
    fun j todo checked hj => ?_, hput.strands, h.late, h.occupied⟩
  · rw [h.closed hopen] at hj
    cases hj
  · dsimp only at hp ⊢
    rw [hopen]
    rcases eq_or_ne p s.poolCount with rfl | hne
    · rw [Function.update_self]
      exact ⟨rfl, rfl, rfl⟩
    · have hat := h.pool p (by omega)
      rw [hopen] at hat
      rw [Function.update_of_ne hne]
      exact hat
  · rw [List.map_append, h.pools hopen, List.range_succ]
    rfl
  · have hsome : s.lock = some j := (hput.lock j).mpr (Option.ne_none_iff_exists'.mpr ⟨_, hj⟩)
    rw [hlock] at hsome
    cases hsome

end Closable

end OpenClAdapter

end MkvCodec.Python
