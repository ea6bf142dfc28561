import Mathlib.Data.List.Nodup
import Mathlib.Data.List.Perm.Subperm
import Mathlib.Data.Fintype.Basic
import Mathlib.Logic.Function.Basic
import MkvCodec.Concurrency.Transition

/-!
# Shared leases of GPU outputs

`gpu_output_lease.py`: a reference count under a lock, tokens that stand for its references, and the DLPack provider that
gives a token to each capsule. Threads of any number make calls; a finalizer in the middle of another call counts as a
thread of its own. A section under the lock is one step. The `_shared` of a token is read and cleared outside of the
lock, in two steps.
-/

namespace MkvCodec.Python

open Concurrency

/-! ## Model -/

/-- The callbacks of a lease, as the cleanup calls them. -/
inductive LeaseCallback
  | wait
  | closeCompletion
  | releaseSlot
  deriving DecidableEq

/-- The callback that the cleanup calls next. -/
def LeaseCallback.next : LeaseCallback → Option LeaseCallback
  | .wait => some .closeCompletion
  | .closeCompletion => some .releaseSlot
  | .releaseSlot => none

/-- How a call ends. -/
inductive LeaseOutcome
  | returned
  | token (t : Nat)
  | capsule (t : Nat)
  | runtimeError (message : String)
  | callbackFailed (c : LeaseCallback)
  | providerFailed
  deriving DecidableEq

def leaseReleased : LeaseOutcome := .runtimeError "GPU output lease is released"

/-- Where a thread stands. `export` says that a call is part of `__dlpack__`, and `after` is how the thread goes on when
its `close` succeeds. -/
inductive LeasePc
  | idle (last : LeaseOutcome)
  | waiting (timeoutMs : Nat) (dlpack : Bool)
  | retaining
  | constructing (t : Nat) (dlpack : Bool)
  | exporting (t : Nat)
  | unwinding (t : Nat)
  | clearing (t : Nat) (after : LeaseOutcome)
  | dropping (t : Nat) (after : LeaseOutcome)
  | cleaning (wired : Bool) (c : LeaseCallback) (failure : Option LeaseCallback) (after : LeaseOutcome)
  deriving DecidableEq

inductive LeaseCall
  | retain
  | close (t : Nat)
  | wait (timeoutMs : Nat)
  | dlpack

/-- A thread starts a call, or goes on with it; `raises` is what code outside of the lease does in that step. -/
inductive LeaseStep (ι : Type*)
  | call (i : ι) (c : LeaseCall)
  | next (i : ι) (raises : Bool)

/-- `SharedGpuOutputLease`, its tokens and the threads. `wired` says that the callbacks are still those of the constructor,
`shared` that the `_shared` of a token is set. Tokens are numbered as their references are counted. Of the past there are
the number of references, the tokens whose references were taken away, and the callbacks that cleanups have called. -/
structure OutputLease (ι : Type*) where
  references : Nat
  released : Bool
  wired : Bool
  shared : Nat → Bool
  threads : ι → LeasePc
  issued : Nat
  taken : List Nat
  cleanup : List LeaseCallback

variable {ι : Type*} [DecidableEq ι]

namespace OutputLease

def new (ι : Type*) : OutputLease ι := ⟨0, false, true, fun _ => false, fun _ => .idle .returned, 0, [], []⟩

def put (s : OutputLease ι) (i : ι) (pc : LeasePc) : OutputLease ι :=
  { s with threads := Function.update s.threads i pc }

/-- The section of `retain`. -/
def retain (s : OutputLease ι) (i : ι) (dlpack : Bool) : OutputLease ι :=
  if s.released then s.put i (.idle leaseReleased)
  else
    { s with
      references := s.references + 1
      issued := s.issued + 1
      threads := Function.update s.threads i (.constructing s.issued dlpack) }

/-- The section of `wait`. -/
def wait (s : OutputLease ι) (i : ι) (timeoutMs : Nat) (dlpack : Bool) : OutputLease ι :=
  s.put i (if s.released then .idle leaseReleased else .waiting timeoutMs dlpack)

/-- `GpuOutputLeaseToken.close` reads `_shared`. -/
def readShared (s : OutputLease ι) (i : ι) (t : Nat) (after : LeaseOutcome) : OutputLease ι :=
  s.put i (if s.shared t then .clearing t after else .idle after)

def setShared (s : OutputLease ι) (t : Nat) (value : Bool) : OutputLease ι :=
  { s with shared := Function.update s.shared t value }

/-- The section of `_release_reference`. -/
def releaseReference (s : OutputLease ι) (i : ι) (t : Nat) (after : LeaseOutcome) : OutputLease ι :=
  if s.references = 0 then s.put i (.idle after)
  else if s.references - 1 = 0 then
    { s with
      references := s.references - 1
      taken := s.taken ++ [t]
      released := true
      wired := false
      threads := Function.update s.threads i (.cleaning s.wired .wait none after) }
  else
    { s with
      references := s.references - 1
      taken := s.taken ++ [t]
      threads := Function.update s.threads i (.idle after) }

/-- How a thread goes on behind a callback of the cleanup. The first failure is raised behind the last callback. -/
def afterCallback (wired : Bool) (c : LeaseCallback) (failure : Option LeaseCallback) (after : LeaseOutcome) : LeasePc :=
  match c.next with
  | some c' => .cleaning wired c' failure after
  | none => .idle (failure.elim after .callbackFailed)

/-- The cleanup calls a callback. The ones put in place of those of the constructor do nothing. -/
def clean (s : OutputLease ι) (i : ι) (wired : Bool) (c : LeaseCallback) (failure : Option LeaseCallback)
    (after : LeaseOutcome) (raises : Bool) : OutputLease ι :=
  { s with
    cleanup := if wired then s.cleanup ++ [c] else s.cleanup
    threads := Function.update s.threads i
      (afterCallback wired c (if failure.isNone && wired && raises then some c else failure) after) }

def start (s : OutputLease ι) (i : ι) : LeaseCall → OutputLease ι
  | .retain => s.retain i false
  | .close t => s.readShared i t .returned
  | .wait timeoutMs => s.wait i timeoutMs false
  | .dlpack => s.wait i 0xFFFFFFFF true

/-- The next step of a thread that stands at `pc`. -/
def advance (s : OutputLease ι) (i : ι) (raises : Bool) : LeasePc → Option (OutputLease ι)
  | .idle _ => none
  | .waiting _ dlpack =>
      if raises then s.put i (.idle (.callbackFailed .wait))
      else if dlpack then s.put i .retaining
      else s.put i (.idle .returned)
  | .retaining => s.retain i true
  | .constructing t dlpack =>
      (s.setShared t true).put i (if dlpack then .exporting t else .idle (.token t))
  | .exporting t => s.put i (if raises then .unwinding t else .idle (.capsule t))
  | .unwinding t => s.readShared i t .providerFailed
  | .clearing t after => (s.setShared t false).put i (.dropping t after)
  | .dropping t after => s.releaseReference i t after
  | .cleaning wired c failure after => s.clean i wired c failure after raises

def step (s : OutputLease ι) : LeaseStep ι → Option (OutputLease ι)
  | .call i c =>
      match s.threads i with
      | .idle _ => some (s.start i c)
      | _ => none
  | .next i raises => s.advance i raises (s.threads i)

def Step (s : OutputLease ι) (l : LeaseStep ι) (t : OutputLease ι) : Prop := s.step l = some t

/-- The token whose `_shared` is read in a step. -/
def reads (s : OutputLease ι) : LeaseStep ι → Option Nat
  | .call _ (.close t) => some t
  | .next i _ =>
      match s.threads i with
      | .unwinding t => some t
      | _ => none
  | _ => none

/-! ## Where the references are -/

/-- The phases in which a reference belongs to a thread. -/
inductive Phase
  | constructing
  | clearing
  | dropping
  deriving DecidableEq

end OutputLease

def LeasePc.phase : LeasePc → Option (Nat × OutputLease.Phase)
  | .constructing t _ => some (t, .constructing)
  | .clearing t _ => some (t, .clearing)
  | .dropping t _ => some (t, .dropping)
  | _ => none

/-- The callback that a thread is to call in a cleanup, and whether it is one of the constructor's. -/
def LeasePc.cleans : LeasePc → Option (Bool × LeaseCallback)
  | .cleaning wired c _ _ => some (wired, c)
  | _ => none

/-- Where the reference of a token is. -/
inductive Place (ι : Type*)
  | unissued
  | thread (i : ι) (phase : OutputLease.Phase)
  | live
  | gone

/-- Who cleans up. -/
inductive Cleaner (ι : Type*)
  | nobody
  | thread (i : ι) (c : LeaseCallback)
  | finished

namespace OutputLease

/-- Every reference is in one place. -/
structure Placed (s : OutputLease ι) (place : Nat → Place ι) : Prop where
  thread : ∀ i t phase, (s.threads i).phase = some (t, phase) ↔ place t = .thread i phase
  shared : ∀ t, s.shared t = true ↔ place t = .live ∨ ∃ i, place t = .thread i .clearing
  taken : ∀ t, t ∈ s.taken ↔ place t = .gone
  unissued : ∀ t, s.issued ≤ t ↔ place t = .unissued

/-- The callbacks that have been called when the cleanup is to call `c`. -/
def LeaseCallback.before : LeaseCallback → List LeaseCallback
  | .wait => []
  | .closeCompletion => [.wait]
  | .releaseSlot => [.wait, .closeCompletion]

def allCallbacks : List LeaseCallback := [.wait, .closeCompletion, .releaseSlot]

def Cleaner.called : Cleaner ι → List LeaseCallback
  | .nobody => []
  | .thread _ c => LeaseCallback.before c
  | .finished => allCallbacks

/-- One thread cleans up at most, with the callbacks of the constructor. -/
structure Cleaned (s : OutputLease ι) (cleaner : Cleaner ι) : Prop where
  thread : ∀ i wired c, (s.threads i).cleans = some (wired, c) ↔ cleaner = .thread i c ∧ wired = true
  nobody : s.released = false ↔ cleaner = .nobody
  cleanup : s.cleanup = Cleaner.called cleaner

/-- The invariant. -/
structure Sound (s : OutputLease ι) (place : Nat → Place ι) (cleaner : Cleaner ι) : Prop where
  placed : s.Placed place
  cleaned : s.Cleaned cleaner
  nodup : s.taken.Nodup
  count : s.references + s.taken.length = s.issued
  released : s.released = true ↔ 0 < s.issued ∧ s.references = 0
  wired : s.wired = !s.released

variable {s : OutputLease ι} {place : Nat → Place ι} {cleaner : Cleaner ι} {i : ι} {t : Nat} {pc : LeasePc}

namespace Placed

/-- A thread takes the reference of a token to another place. -/
theorem move {threads : ι → LeasePc} {q : Place ι}
    (h : ∀ i t phase, (threads i).phase = some (t, phase) ↔ place t = .thread i phase)
    (hi : ∀ u phase, (threads i).phase = some (u, phase) → u = t) (ht : ∀ j phase, place t = .thread j phase → j = i)
    (hpc : ∀ u phase, pc.phase = some (u, phase) ↔ u = t ∧ q = .thread i phase)
    (hq : ∀ j phase, q = .thread j phase → j = i) :
    ∀ j u phase, (Function.update threads i pc j).phase = some (u, phase) ↔
      Function.update place t q u = .thread j phase := by
  intro j u phase
  rcases eq_or_ne j i with rfl | hj
  · rw [Function.update_self]
    rcases eq_or_ne u t with rfl | hu
    · rw [Function.update_self, hpc]
      simp only [true_and]
    · rw [Function.update_of_ne hu, hpc, ← h]
      exact iff_of_false (fun hc => hu hc.1) (fun hc => hu (hi _ _ hc))
  · rw [Function.update_of_ne hj, h]
    rcases eq_or_ne u t with rfl | hu
    · rw [Function.update_self]
      exact iff_of_false (fun hc => hj (ht _ _ hc)) (fun hc => hj (hq _ _ hc))
    · rw [Function.update_of_ne hu]

/-- A thread goes on without a reference of its own. -/
theorem stay {threads : ι → LeasePc} (h : ∀ i t phase, (threads i).phase = some (t, phase) ↔ place t = .thread i phase)
    (hi : (threads i).phase = none) (hpc : pc.phase = none) :
    ∀ j u phase, (Function.update threads i pc j).phase = some (u, phase) ↔ place u = .thread j phase := by
  intro j u phase
  rcases eq_or_ne j i with rfl | hj
  · rw [Function.update_self, hpc, ← h, hi]
  · rw [Function.update_of_ne hj, h]

end Placed

/-- A thread goes on that does not clean up. -/
theorem Cleaned.stay {threads : ι → LeasePc}
    (h : ∀ i wired c, (threads i).cleans = some (wired, c) ↔ cleaner = .thread i c ∧ wired = true)
    (hi : (threads i).cleans = none) (hpc : pc.cleans = none) :
    ∀ j wired c, (Function.update threads i pc j).cleans = some (wired, c) ↔ cleaner = .thread j c ∧ wired = true := by
  intro j wired c
  rcases eq_or_ne j i with rfl | hj
  · rw [Function.update_self, hpc, ← h, hi]
  · rw [Function.update_of_ne hj, h]

/-- A thread goes on that may clean up. -/
theorem Cleaned.move {threads : ι → LeasePc} {cleaner' : Cleaner ι}
    (h : ∀ i wired c, (threads i).cleans = some (wired, c) ↔ cleaner = .thread i c ∧ wired = true)
    (hi : ∀ j c, cleaner = .thread j c → j = i)
    (hpc : ∀ wired c, pc.cleans = some (wired, c) ↔ cleaner' = .thread i c ∧ wired = true)
    (hcleaner : ∀ j c, cleaner' = .thread j c → j = i) :
    ∀ j wired c, (Function.update threads i pc j).cleans = some (wired, c) ↔ cleaner' = .thread j c ∧ wired = true := by
  intro j wired c
  rcases eq_or_ne j i with rfl | hj
  · rw [Function.update_self, hpc]
  · rw [Function.update_of_ne hj, h]
    exact iff_of_false (fun hc => hj (hi _ _ hc.1)) (fun hc => hj (hcleaner _ _ hc.1))

omit [DecidableEq ι] in
/-- When no reference is left, every token has lost its own. -/
theorem Sound.all_taken (h : s.Sound place cleaner) (hzero : s.references = 0) (ht : t < s.issued) : t ∈ s.taken := by
  have hsub : s.taken ⊆ List.range s.issued := by
    intro u hu
    rw [List.mem_range]
    by_contra hle
    have hgone := (h.placed.taken u).mp hu
    rw [(h.placed.unissued u).mp (by omega)] at hgone
    cases hgone
  have hlength : (List.range s.issued).length ≤ s.taken.length := by
    rw [List.length_range]
    have := h.count
    omega
  exact ((List.subperm_of_subset h.nodup hsub).perm_of_length_le hlength).mem_iff.mpr (List.mem_range.mpr ht)

namespace Sound

/-- A step that changes a thread and nothing else. -/
theorem put (h : s.Sound place cleaner) (hphase : (s.threads i).phase = none) (hcleans : (s.threads i).cleans = none)
    (hpc : pc.phase = none) (hpc' : pc.cleans = none) : (s.put i pc).Sound place cleaner where
  placed := ⟨Placed.stay h.placed.thread hphase hpc, h.placed.shared, h.placed.taken, h.placed.unissued⟩
  cleaned := ⟨Cleaned.stay h.cleaned.thread hcleans hpc', h.cleaned.nobody, h.cleaned.cleanup⟩
  nodup := h.nodup
  count := h.count
  released := h.released
  wired := h.wired

omit [DecidableEq ι] in
/-- A fact about every token, when one token gets to another place. -/
theorem forall_update {A A' : Nat → Prop} {P : Place ι → Prop} {q : Place ι} (h : ∀ u, A u ↔ P (place u))
    (hne : ∀ u, u ≠ t → (A' u ↔ A u)) (ht : A' t ↔ P q) : ∀ u, A' u ↔ P (Function.update place t q u) := by
  intro u
  rcases eq_or_ne u t with rfl | hu
  · rw [Function.update_self, ht]
  · rw [Function.update_of_ne hu, hne u hu, h]

theorem retain (h : s.Sound place cleaner) (dlpack : Bool) (hphase : (s.threads i).phase = none)
    (hcleans : (s.threads i).cleans = none) : ∃ place, (s.retain i dlpack).Sound place cleaner := by
  unfold OutputLease.retain
  split
  · exact ⟨place, h.put hphase hcleans rfl rfl⟩
  rename_i hreleased
  have hfresh : place s.issued = .unissued := (h.placed.unissued _).mp (Nat.le_refl _)
  refine ⟨Function.update place s.issued (.thread i .constructing), ⟨?_, ?_, ?_, ?_⟩, ?_, h.nodup, ?_, ?_, h.wired⟩
  · refine Placed.move h.placed.thread ?_ ?_ ?_ ?_
    · rw [hphase]
      nofun
    · rw [hfresh]
      nofun
    · intro u phase
      simp [LeasePc.phase, eq_comm]
    · rintro j phase ⟨⟩
      rfl
  · refine forall_update (P := fun p => p = .live ∨ ∃ i, p = .thread i .clearing) h.placed.shared (fun _ _ => Iff.rfl) ?_
    rw [h.placed.shared, hfresh]
    simp
  · refine forall_update (P := fun p => p = .gone) h.placed.taken (fun _ _ => Iff.rfl) ?_
    rw [h.placed.taken, hfresh]
    simp
  · refine forall_update (P := fun p => p = .unissued) h.placed.unissued ?_ ?_
    · intro u hu
      dsimp only
      omega
    · simp
  · exact ⟨Cleaned.stay h.cleaned.thread hcleans rfl, h.cleaned.nobody, h.cleaned.cleanup⟩
  · have := h.count
    dsimp only
    omega
  · simpa using hreleased

/-- The place of a token changes from one that belongs to a thread. -/
theorem placed_of_thread (h : s.Sound place cleaner) {phase : Phase} {q : Place ι} {b : Bool} {taken : List Nat}
    (hi : (s.threads i).phase = some (t, phase))
    (hpc : ∀ u phase, pc.phase = some (u, phase) ↔ u = t ∧ q = .thread i phase)
    (hq : ∀ j phase, q = .thread j phase → j = i) (hb : b = true ↔ q = .live ∨ ∃ i, q = .thread i .clearing)
    (htaken : ∀ u, u ∈ taken ↔ u ∈ s.taken ∨ u = t ∧ q = .gone) (hissued : q ≠ .unissued) :
    Placed { s with
      shared := Function.update s.shared t b
      threads := Function.update s.threads i pc
      taken := taken } (Function.update place t q) := by
  have hplace : place t = .thread i phase := (h.placed.thread _ _ _).mp hi
  refine ⟨?_, ?_, ?_, ?_⟩
  · refine Placed.move h.placed.thread ?_ ?_ hpc hq
    · intro u phase' hu
      rw [hi] at hu
      cases hu
      rfl
    · intro j phase' hj
      rw [hplace] at hj
      cases hj
      rfl
  · refine forall_update (P := fun p => p = .live ∨ ∃ i, p = .thread i .clearing) h.placed.shared ?_ ?_
    · intro u hu
      dsimp only
      rw [Function.update_of_ne hu]
    · dsimp only
      rw [Function.update_self, hb]
  · refine forall_update (P := fun p => p = .gone) h.placed.taken ?_ ?_
    · intro u hu
      simp [htaken, hu]
    · rw [htaken, h.placed.taken, hplace]
      simp
  · refine forall_update (P := fun p => p = .unissued) h.placed.unissued (fun _ _ => Iff.rfl) ?_
    rw [h.placed.unissued, hplace]
    simp [hissued]

variable (pc) in
/-- `retain` makes the token. -/
theorem construct (h : s.Sound place cleaner) (hi : (s.threads i).phase = some (t, .constructing))
    (hcleans : (s.threads i).cleans = none) (hpc : pc.phase = none) (hpc' : pc.cleans = none) :
    ∃ place, ((s.setShared t true).put i pc).Sound place cleaner := by
  refine ⟨Function.update place t .live, ?_, ?_, h.nodup, h.count, h.released, h.wired⟩
  · refine h.placed_of_thread hi ?_ nofun (by simp) (by simp [setShared]) nofun
    intro u phase
    rw [hpc]
    simp
  · exact ⟨Cleaned.stay h.cleaned.thread hcleans hpc', h.cleaned.nobody, h.cleaned.cleanup⟩

theorem clear (h : s.Sound place cleaner) (after : LeaseOutcome) (hi : (s.threads i).phase = some (t, .clearing))
    (hcleans : (s.threads i).cleans = none) :
    ∃ place, ((s.setShared t false).put i (.dropping t after)).Sound place cleaner := by
  refine ⟨Function.update place t (.thread i .dropping), ?_, ?_, h.nodup, h.count, h.released, h.wired⟩
  · refine h.placed_of_thread hi ?_ ?_ (by simp) (by simp [setShared]) nofun
    · intro u phase
      simp [LeasePc.phase, eq_comm]
    · rintro j phase ⟨⟩
      rfl
  · exact ⟨Cleaned.stay h.cleaned.thread hcleans rfl, h.cleaned.nobody, h.cleaned.cleanup⟩

/-- A `close` reads `_shared`, while no other one is about to clear it. -/
theorem readShared (h : s.Sound place cleaner) (after : LeaseOutcome) (hphase : (s.threads i).phase = none)
    (hcleans : (s.threads i).cleans = none) (halone : ∀ j, (s.threads j).phase ≠ some (t, .clearing)) :
    ∃ place, (s.readShared i t after).Sound place cleaner := by
  unfold OutputLease.readShared
  split
  case isFalse => exact ⟨place, h.put hphase hcleans rfl rfl⟩
  case isTrue hshared =>
    have hplace : place t = .live := by
      refine ((h.placed.shared t).mp hshared).resolve_right ?_
      rintro ⟨j, hj⟩
      exact halone j ((h.placed.thread _ _ _).mpr hj)
    refine ⟨Function.update place t (.thread i .clearing), ⟨?_, ?_, ?_, ?_⟩, ?_, h.nodup, h.count, h.released, h.wired⟩
    · refine Placed.move h.placed.thread ?_ ?_ ?_ ?_
      · rw [hphase]
        nofun
      · rw [hplace]
        nofun
      · intro u phase
        simp [LeasePc.phase, eq_comm]
      · rintro j phase ⟨⟩
        rfl
    · refine forall_update (P := fun p => p = .live ∨ ∃ i, p = .thread i .clearing) h.placed.shared
        (fun _ _ => Iff.rfl) ?_
      simp [OutputLease.put, hshared]
    · refine forall_update (P := fun p => p = .gone) h.placed.taken (fun _ _ => Iff.rfl) ?_
      simp [OutputLease.put, h.placed.taken, hplace]
    · refine forall_update (P := fun p => p = .unissued) h.placed.unissued (fun _ _ => Iff.rfl) ?_
      simp [OutputLease.put, h.placed.unissued, hplace]
    · exact ⟨Cleaned.stay h.cleaned.thread hcleans rfl, h.cleaned.nobody, h.cleaned.cleanup⟩

theorem releaseReference (h : s.Sound place cleaner) {after : LeaseOutcome}
    (hi : (s.threads i).phase = some (t, .dropping)) (hcleans : (s.threads i).cleans = none) :
    ∃ place cleaner, (s.releaseReference i t after).Sound place cleaner := by
  have hplace : place t = .thread i .dropping := (h.placed.thread _ _ _).mp hi
  have hissued : t < s.issued := by
    by_contra hle
    rw [(h.placed.unissued t).mp (by omega)] at hplace
    cases hplace
  have hlive : t ∉ s.taken := by
    rw [h.placed.taken, hplace]
    nofun
  have hpositive : s.references ≠ 0 := fun hzero => hlive (h.all_taken hzero hissued)
  have hreleased : s.released = false := by
    rw [Bool.eq_false_iff]
    intro hreleased
    exact hpositive (h.released.mp hreleased).2
  have hnodup : (s.taken ++ [t]).Nodup := List.nodup_append.mpr ⟨h.nodup, List.nodup_singleton t, by
    rintro u hu v hv rfl
    exact hlive (List.mem_singleton.mp hv ▸ hu)⟩
  have hcount : s.references - 1 + (s.taken ++ [t]).length = s.issued := by
    have := h.count
    rw [List.length_append, List.length_singleton]
    omega
  have hplaced : ∀ pc : LeasePc, pc.phase = none →
      Placed { s with
        shared := Function.update s.shared t false
        threads := Function.update s.threads i pc
        taken := s.taken ++ [t] } (Function.update place t .gone) := by
    intro pc hpc
    refine h.placed_of_thread hi ?_ nofun (by simp) (by simp) nofun
    intro u phase
    rw [hpc]
    simp
  have hshared : Function.update s.shared t false = s.shared := by
    rw [Function.update_eq_self_iff, eq_comm, Bool.eq_false_iff, ne_eq, h.placed.shared, hplace]
    simp
  rw [hshared] at hplaced
  unfold OutputLease.releaseReference
  rw [if_neg hpositive]
  split
  case isTrue hlast =>
    have hnobody : cleaner = .nobody := h.cleaned.nobody.mp hreleased
    obtain ⟨hthread, hshared, htaken, hunissued⟩ := hplaced (.cleaning s.wired .wait none after) rfl
    refine ⟨_, .thread i .wait, ⟨hthread, hshared, htaken, hunissued⟩, ⟨?_, by simp, ?_⟩, hnodup, hcount, ?_, rfl⟩
    · refine Cleaned.move h.cleaned.thread ?_ ?_ ?_
      · rw [hnobody]
        nofun
      · intro wired c
        simp [LeasePc.cleans, h.wired, hreleased, and_comm]
      · rintro j c ⟨⟩
        rfl
    · rw [h.cleaned.cleanup, hnobody]
      rfl
    · simp only [hlast, true_iff, and_true]
      omega
  case isFalse hmore =>
    obtain ⟨hthread, hshared, htaken, hunissued⟩ := hplaced (.idle after) rfl
    refine ⟨_, cleaner, ⟨hthread, hshared, htaken, hunissued⟩, ?_, hnodup, hcount, ?_, h.wired⟩
    · exact ⟨Cleaned.stay h.cleaned.thread hcleans rfl, h.cleaned.nobody, h.cleaned.cleanup⟩
    · simp [hreleased, hmore]

theorem clean (h : s.Sound place cleaner) {wired raises : Bool} {c : LeaseCallback} {failure : Option LeaseCallback}
    {after : LeaseOutcome} (hi : s.threads i = .cleaning wired c failure after) :
    ∃ cleaner, (s.clean i wired c failure after raises).Sound place cleaner := by
  obtain ⟨rfl, rfl⟩ := (h.cleaned.thread i wired c).mp (congrArg LeasePc.cleans hi)
  have hreleased : s.released ≠ false := fun hreleased => nomatch h.cleaned.nobody.mp hreleased
  have hphase : ∀ failure, (afterCallback true c failure after).phase = none := by
    intro failure
    cases c <;> rfl
  refine ⟨c.next.elim .finished (.thread i), ?_, ⟨?_, ?_, ?_⟩, h.nodup, h.count, h.released, h.wired⟩
  · exact ⟨Placed.stay h.placed.thread (congrArg LeasePc.phase hi) (hphase _), h.placed.shared, h.placed.taken,
      h.placed.unissued⟩
  · refine Cleaned.move h.cleaned.thread ?_ ?_ ?_
    · rintro j c' ⟨⟩
      rfl
    · intro wired c'
      cases c <;> simp [afterCallback, LeaseCallback.next, LeasePc.cleans, and_comm]
    · cases c <;> rintro j c' ⟨⟩ <;> rfl
  · refine iff_of_false hreleased ?_
    cases c <;> nofun
  · rw [OutputLease.clean, if_pos rfl, h.cleaned.cleanup]
    cases c <;> rfl

end Sound

/-! ## Runs -/

/-- A `close` reads the `_shared` of a token only when no other one is about to clear it. -/
def Careful (s : OutputLease ι) (l : LeaseStep ι) : Prop :=
  ∀ t, s.reads l = some t → ∀ j, (s.threads j).phase ≠ some (t, .clearing)

instance [Fintype ι] (s : OutputLease ι) (l : LeaseStep ι) : Decidable (s.Careful l) :=
  match h : s.reads l with
  | none => isTrue (by simp [Careful, h])
  | some t => decidable_of_iff (∀ j, (s.threads j).phase ≠ some (t, .clearing)) (by simp [Careful, h])

namespace Sound

theorem start (h : s.Sound place cleaner) {c : LeaseCall} (hphase : (s.threads i).phase = none)
    (hcleans : (s.threads i).cleans = none) (hc : s.Careful (.call i c)) :
    ∃ place cleaner, (s.start i c).Sound place cleaner := by
  cases c with
  | retain =>
      obtain ⟨place, h⟩ := h.retain false hphase hcleans
      exact ⟨place, cleaner, h⟩
  | close t =>
      obtain ⟨place, h⟩ := h.readShared _ hphase hcleans (hc t rfl)
      exact ⟨place, cleaner, h⟩
  | wait timeoutMs =>
      refine ⟨place, cleaner, h.put hphase hcleans ?_ ?_⟩ <;> split <;> rfl
  | dlpack =>
      refine ⟨place, cleaner, h.put hphase hcleans ?_ ?_⟩ <;> split <;> rfl

/-- What a thread does next keeps the invariant. -/
theorem advance (h : s.Sound place cleaner) {raises : Bool} (hi : s.threads i = pc) {s' : OutputLease ι}
    (hs : s.advance i raises pc = some s') (hc : s.Careful (.next i raises)) :
    ∃ place cleaner, s'.Sound place cleaner := by
  have hphase : (s.threads i).phase = pc.phase := congrArg LeasePc.phase hi
  have hcleans : (s.threads i).cleans = pc.cleans := congrArg LeasePc.cleans hi
  cases pc with
  | idle last => cases hs
  | waiting timeoutMs dlpack =>
      simp only [OutputLease.advance] at hs
      split at hs
      · cases hs
        exact ⟨place, cleaner, h.put hphase hcleans rfl rfl⟩
      split at hs
      · cases hs
        exact ⟨place, cleaner, h.put hphase hcleans rfl rfl⟩
      · cases hs
        exact ⟨place, cleaner, h.put hphase hcleans rfl rfl⟩
  | retaining =>
      cases hs
      obtain ⟨place, h⟩ := h.retain true hphase hcleans
      exact ⟨place, cleaner, h⟩
  | constructing t dlpack =>
      cases hs
      obtain ⟨place, h⟩ := h.construct (if dlpack then .exporting t else .idle (.token t)) hphase hcleans
        (by split <;> rfl) (by split <;> rfl)
      exact ⟨place, cleaner, h⟩
  | exporting t =>
      cases hs
      refine ⟨place, cleaner, h.put hphase hcleans ?_ ?_⟩ <;> split <;> rfl
  | unwinding t =>
      cases hs
      obtain ⟨place, h⟩ := h.readShared .providerFailed hphase hcleans
        (hc t (by simp only [reads, hi]))
      exact ⟨place, cleaner, h⟩
  | clearing t after =>
      cases hs
      obtain ⟨place, h⟩ := h.clear after hphase hcleans
      exact ⟨place, cleaner, h⟩
  | dropping t after =>
      cases hs
      exact h.releaseReference hphase hcleans
  | cleaning wired c failure after =>
      cases hs
      obtain ⟨cleaner, h⟩ := h.clean hi
      exact ⟨place, cleaner, h⟩

theorem step (h : s.Sound place cleaner) {l : LeaseStep ι} {s' : OutputLease ι} (hst : s.Step l s')
    (hc : s.Careful l) : ∃ place cleaner, s'.Sound place cleaner := by
  cases l with
  | call i c =>
      simp only [Step, OutputLease.step] at hst
      split at hst
      · rename_i last hi
        cases hst
        exact h.start (congrArg LeasePc.phase hi) (congrArg LeasePc.cleans hi) hc
      · cases hst
  | next i raises => exact h.advance rfl hst hc

omit [DecidableEq ι] in
theorem new : (new ι).Sound (fun _ => .unissued) .nobody where
  placed := ⟨by simp [OutputLease.new, LeasePc.phase], by simp [OutputLease.new], by simp [OutputLease.new],
    by simp [OutputLease.new]⟩
  cleaned := ⟨by simp [OutputLease.new, LeasePc.cleans], by simp [OutputLease.new], rfl⟩
  nodup := List.nodup_nil
  count := rfl
  released := by simp [OutputLease.new]
  wired := rfl

end Sound

/-- No `retain` and no `close` of a thread is on its way. -/
def Resting (s : OutputLease ι) (i : ι) : Prop := (s.threads i).phase = none ∧ (s.threads i).cleans = none

/-- What is expected of a lease in every state. The cleanup calls its callbacks in turn, none of them twice and none while a
token is left; behind one that raises the next one follows, and all have been called when every token is closed. A closed
token has taken one reference away and a live one has not. Behind the cleanup there is no `retain`. -/
structure CleansUpOnce (s : OutputLease ι) : Prop where
  once : s.cleanup <+: allCallbacks
  last : s.cleanup ≠ [] → ∀ t < s.issued, s.shared t = false ∧ t ∈ s.taken
  follows : ∀ i wired c failure after, s.threads i = .cleaning wired c failure after → ∀ raises, ∃ s',
    s.Step (.next i raises) s' ∧ s'.cleanup = s.cleanup ++ [c] ∧
      (s'.threads i).cleans = c.next.map fun c' => (wired, c')
  done : 0 < s.issued → (∀ t < s.issued, s.shared t = false) → (∀ i, s.Resting i) → s.cleanup = allCallbacks
  count : s.references + s.taken.length = s.issued
  reference : s.taken.Nodup ∧ (∀ t ∈ s.taken, t < s.issued ∧ s.shared t = false) ∧
    ∀ t < s.issued, s.shared t = false → (∀ i phase, (s.threads i).phase ≠ some (t, phase)) → t ∈ s.taken
  refused : s.cleanup ≠ [] → (∀ i dlpack, s.retain i dlpack = s.put i (.idle leaseReleased)) ∧
    ∀ i t dlpack, s.threads i ≠ .constructing t dlpack

namespace Sound

omit [DecidableEq ι] in
theorem released_of_cleanup (h : s.Sound place cleaner) (hcleanup : s.cleanup ≠ []) : s.released = true := by
  rw [← Bool.not_eq_false]
  intro hreleased
  rw [h.cleaned.cleanup, h.cleaned.nobody.mp hreleased] at hcleanup
  exact hcleanup rfl

omit [DecidableEq ι] in
/-- A token that no thread is busy with is live, or has lost its reference. -/
theorem live_or_taken (h : s.Sound place cleaner) (ht : t < s.issued)
    (hbusy : ∀ i phase, (s.threads i).phase ≠ some (t, phase)) : s.shared t = true ∨ t ∈ s.taken := by
  cases hplace : place t with
  | unissued =>
      have := (h.placed.unissued t).mpr hplace
      omega
  | thread i phase => exact absurd ((h.placed.thread i t phase).mpr hplace) (hbusy i phase)
  | live => exact .inl ((h.placed.shared t).mpr (.inl hplace))
  | gone => exact .inr ((h.placed.taken t).mpr hplace)

omit [DecidableEq ι] in
theorem shared_of_taken (h : s.Sound place cleaner) (ht : t ∈ s.taken) : t < s.issued ∧ s.shared t = false := by
  have hplace := (h.placed.taken t).mp ht
  constructor
  · by_contra hle
    have hunissued := (h.placed.unissued t).mp (by omega)
    rw [hplace] at hunissued
    cases hunissued
  · rw [Bool.eq_false_iff, ne_eq, h.placed.shared, hplace]
    simp

theorem cleansUpOnce (h : s.Sound place cleaner) : s.CleansUpOnce where
  once := by
    rw [h.cleaned.cleanup]
    cases cleaner with
    | nobody => exact List.nil_prefix
    | thread i c => cases c <;> exact ⟨_, rfl⟩
    | finished => exact List.prefix_refl _
  last hcleanup t ht := by
    have htaken := h.all_taken (h.released.mp (h.released_of_cleanup hcleanup)).2 ht
    exact ⟨(h.shared_of_taken htaken).2, htaken⟩
  done hissued hclosed hresting := by
    have htaken : List.range s.issued ⊆ s.taken := by
      intro t ht
      rw [List.mem_range] at ht
      refine (h.live_or_taken ht ?_).resolve_left (by simp [hclosed t ht])
      intro i phase
      rw [(hresting i).1]
      nofun
    have hlength := (List.subperm_of_subset List.nodup_range htaken).length_le
    rw [List.length_range] at hlength
    have hzero : s.references = 0 := by
      have := h.count
      omega
    have hreleased := h.released.mpr ⟨hissued, hzero⟩
    rw [h.cleaned.cleanup]
    cases cleaner with
    | nobody =>
        rw [h.cleaned.nobody.mpr rfl] at hreleased
        cases hreleased
    | thread i c =>
        have hcleans := (h.cleaned.thread i true c).mpr ⟨rfl, rfl⟩
        rw [(hresting i).2] at hcleans
        cases hcleans
    | finished => rfl
  follows i wired c failure after hi raises := by
    obtain ⟨rfl, rfl⟩ := (h.cleaned.thread i wired c).mp (congrArg LeasePc.cleans hi)
    refine ⟨s.clean i true c failure after raises, ?_, rfl, ?_⟩
    · simp only [Step, OutputLease.step, hi]
      rfl
    · rw [OutputLease.clean]
      dsimp only
      rw [Function.update_self]
      cases c <;> rfl
  count := h.count
  reference := by
    refine ⟨h.nodup, fun t ht => h.shared_of_taken ht, fun t ht hclosed hbusy => ?_⟩
    exact (h.live_or_taken ht hbusy).resolve_left (by simp [hclosed])
  refused hcleanup := by
    have hreleased := h.released_of_cleanup hcleanup
    refine ⟨fun i dlpack => by rw [OutputLease.retain, if_pos hreleased], fun i t dlpack hi => ?_⟩
    have hplace := (h.placed.thread i t .constructing).mp (congrArg LeasePc.phase hi)
    have hlt : t < s.issued := by
      by_contra hle
      rw [(h.placed.unissued t).mp (by omega)] at hplace
      cases hplace
    rw [(h.placed.taken t).mp (h.all_taken (h.released.mp hreleased).2 hlt)] at hplace
    cases hplace

end Sound

/-- In every run of any threads, with callbacks and providers that raise at will, a lease cleans up once, as long as no two
calls of `close` are between the read of one `_shared` and its clearing. -/
theorem cleans_up_once {ls : List (LeaseStep ι)} {s : OutputLease ι}
    (h : Run (Restrict Step Careful) (OutputLease.new ι) ls s) : s.CleansUpOnce := by
  have hsound : ∃ place cleaner, s.Sound place cleaner := by
    refine Run.invariant (I := fun s => ∃ place cleaner, s.Sound place cleaner) h ⟨_, _, Sound.new⟩ ?_
    rintro s l s' ⟨place, cleaner, hs⟩ hst
    exact hs.step hst.1 hst.2
  obtain ⟨place, cleaner, hsound⟩ := hsound
  exact hsound.cleansUpOnce

/-- A token, a provider that raises in the middle of an export, and a cleanup whose `wait` raises. -/
def exportRaises : List (LeaseStep Bool) :=
  [.call false .retain, .next false false, .call true .dlpack, .next true false, .next true false, .next true false,
    .next true true, .next true false, .next true false, .next true false,
    .call false (.close 0), .next false false, .next false false, .next false true, .next false false, .next false false]

theorem cleans_up_once_raising : ∃ s, exec step (new Bool) exportRaises = some s ∧ s.CleansUpOnce ∧
    s.cleanup = allCallbacks ∧ s.threads false = .idle (.callbackFailed .wait) := by
  have hrun : exec (fun s l => if Careful s l then step s l else none) (new Bool) exportRaises = some _ := rfl
  exact ⟨_, rfl, cleans_up_once (Run.restrict_of_exec hrun), rfl, rfl⟩

/-- Two tokens, of which the first is closed by two threads at once. Both have read its `_shared` before one of them clears
it. -/
def closedTwice : List (LeaseStep Bool) :=
  [.call false .retain, .next false false, .call false .retain, .next false false,
    .call false (.close 0), .call true (.close 0), .next false false, .next true false, .next false false,
    .next true false, .next true false, .next true false, .next true false]

/-- The slot is released while the second token is live. -/
theorem closed_twice_releases : ∃ s, Run Step (OutputLease.new Bool) closedTwice s ∧
    s.cleanup = allCallbacks ∧ s.shared 1 = true ∧ ¬ s.CleansUpOnce := by
  have hrun : exec OutputLease.step (OutputLease.new Bool) closedTwice = some _ := rfl
  refine ⟨_, Run.of_exec hrun, rfl, rfl, ?_⟩
  intro h
  exact absurd (h.last nofun 1 (by decide)).1 (by decide)

end OutputLease

end MkvCodec.Python
