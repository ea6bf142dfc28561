import Mathlib.Data.List.InsertIdx
import Mathlib.Data.List.Perm.Basic
import MkvCodec.Gpu.ImportedSurfaces

/-!
# Release of imported surfaces

A wrapper goes before the frame that it protects. While the encoder is open it goes only when the runtime has no use for it, as long
as the runtime does not come back to a surface while its counters are read: there are two of them, and they are read one after the
other. A close releases the wrappers, then the runtime, and then the frames.
-/

namespace MkvCodec.Gpu

open Concurrency Resources

/-- A wrapper stands on its frame and on the runtime. -/
def ImportResource.On : ImportResource → ImportResource → Prop
  | .wrapper n, .owner m => n = m
  | .wrapper _, .runtime => True
  | _, _ => False

namespace ImportResource

theorem On.irrefl (r : ImportResource) : ¬ On r r := by
  cases r <;> exact id

theorem not_on_wrapper (r : ImportResource) (n : Nat) : ¬ On r (.wrapper n) := by
  cases r <;> exact id

theorem not_owner_on (r : ImportResource) (n : Nat) : ¬ On (.owner n) r := by
  cases r <;> exact id

end ImportResource

/-- How far a close has come. -/
def TrackerPc.phase : TrackerPc → Nat
  | .wrappersReleased => 1
  | .runtimeClosed => 2
  | .closed => 3
  | _ => 0

namespace TrackerState

variable {s t : TrackerState} {l : TrackerLabel}

/-- The input of import `n`, before or after the wrappers are gone. -/
def input (phase n : Nat) : ImportedInput := ⟨if phase = 0 then some n else none, some n⟩

structure Sound (s : TrackerState) : Prop where
  holds : Holds ImportResource.On s.events s.owned
  fresh : ∀ n, s.next ≤ n → .create (.wrapper n) ∉ s.events ∧ .create (.owner n) ∉ s.events
  inputs : ∃ numbers : List Nat, s.inputs = numbers.map (input s.pc.phase)
  limit : s.inputs.length ≤ kMaxImportedInputs
  runtime : s.runtime = decide (s.pc.phase < 2)
  gone : 2 ≤ s.pc.phase → .destroy .runtime ∈ s.events
  counters : ∀ n, s.next ≤ n → s.counters n = ⟨1, 0⟩
  empty : s.pc = .closed → s.inputs = []

theorem sound_init : init.Sound where
  holds := Holds.nil.create List.not_mem_nil
  fresh n _ := by simp [init]
  inputs := ⟨[], rfl⟩
  limit := Nat.zero_le _
  runtime := rfl
  gone := nofun
  counters _ _ := rfl
  empty _ := rfl

/-- A step that only goes on. -/
theorem Sound.move (h : s.Sound) {pc : TrackerPc} (hphase : pc.phase = s.pc.phase) : Sound { s with pc := pc } where
  holds := h.holds
  fresh := h.fresh
  inputs := by simpa only [hphase] using h.inputs
  limit := h.limit
  runtime := by simpa only [hphase] using h.runtime
  gone := by simpa only [hphase] using h.gone
  counters := h.counters
  empty hpc := by
    obtain rfl : pc = .closed := hpc
    refine h.empty ?_
    cases hs : s.pc <;> simp [hs, TrackerPc.phase] at hphase ⊢

/-! ## The counters -/

theorem Sound.evolve (h : s.Sound) {n : Nat} {c : SurfaceCounters} (hn : n < s.next) :
    Sound { s with counters := Function.update s.counters n c } where
  holds := h.holds
  fresh := h.fresh
  inputs := h.inputs
  limit := h.limit
  runtime := h.runtime
  gone := h.gone
  counters m hm := by
    have hne : m ≠ n := Nat.ne_of_gt (Nat.lt_of_lt_of_le hn hm)
    simpa [Function.update_of_ne hne] using h.counters m hm
  empty := h.empty

theorem Sound.count (h : s.Sound) {i : Nat} {acquiring counts : Bool} (hpc : s.pc = .retiring i acquiring) :
    (s.count i acquiring counts).Sound := by
  have hphase : s.pc.phase = 0 := by rw [hpc]; rfl
  rw [TrackerState.count]
  split
  · cases acquiring <;> exact h.move hphase.symm
  · split
    · exact h.move hphase.symm
    · split <;> exact h.move hphase.symm

theorem Sound.readLocked (h : s.Sound) {i : Nat} {acquiring : Bool} (hpc : s.pc = .counted i acquiring) :
    (s.readLocked i acquiring).Sound := by
  have hphase : s.pc.phase = 0 := by rw [hpc]; rfl
  rw [TrackerState.readLocked]
  split
  · split <;> exact h.move hphase.symm
  · exact h.move hphase.symm

/-! ## Imports -/

theorem owned_append (s : TrackerState) (n : Nat) :
    (ImportResource.owner n :: .wrapper n :: s.owned).Perm
      { s with inputs := s.inputs ++ [ImportedInput.mk (some n) (some n)] }.owned := by
  have happend : { s with inputs := s.inputs ++ [ImportedInput.mk (some n) (some n)] }.owned =
      s.inputs.flatMap ImportedInput.resources ++ ([.wrapper n, .owner n] ++ if s.runtime then [.runtime] else []) := by
    simp [owned, ImportedInput.resources, ImportedInput.wrappers, ImportedInput.owners]
  rw [happend, owned]
  refine .trans (.swap ..) (.trans ?_ (List.perm_append_comm_assoc ..))
  simp

/-- Both resources of an import are destroyed. -/
theorem destroyInput {events : List (Event ImportResource)} {owned : List ImportResource} {n : Nat}
    (h : Holds ImportResource.On events ([.wrapper n, .owner n] ++ owned)) :
    Holds ImportResource.On (.destroy (.owner n) :: .destroy (.wrapper n) :: events) owned := by
  have hnodup : .wrapper n ∉ owned := by
    have := h.nodup
    simp only [List.cons_append, List.nil_append, List.nodup_cons, List.mem_cons, not_or] at this
    exact this.1.2
  refine h.destroyAll (by simp [ImportResource.not_owner_on]) (fun r hr r' hr' hon => ?_) ImportResource.On.irrefl
  rcases List.mem_pair.mp hr with rfl | rfl
  · exact r'.not_on_wrapper n hon
  · cases r' with
    | wrapper m =>
        obtain rfl : m = n := hon
        exact hnodup hr'
    | owner m => exact hon
    | runtime => exact hon

/-- Both resources of an import are created. -/
theorem Sound.create (h : s.Sound) :
    Holds ImportResource.On (.create (.owner s.next) :: .create (.wrapper s.next) :: s.events)
      (.owner s.next :: .wrapper s.next :: s.owned) := by
  obtain ⟨hwrapper, howner⟩ := h.fresh s.next le_rfl
  exact (h.holds.create hwrapper).create (by simpa using howner)

/-- An import that fails has destroyed what it has created. -/
theorem Sound.undo (h : s.Sound) (hphase : s.pc.phase = 0) {events : List (Event ImportResource)}
    (hholds : Holds ImportResource.On events s.owned)
    (hfresh : ∀ n, s.next < n → .create (.wrapper n) ∉ events ∧ .create (.owner n) ∉ events) :
    Sound { s with events := events, next := s.next + 1, pc := .idle } := by
  have hinputs := h.inputs
  have hruntime := h.runtime
  rw [hphase] at hinputs hruntime
  exact {
    holds := hholds
    fresh := hfresh
    inputs := hinputs
    limit := h.limit
    runtime := hruntime
    gone := nofun
    counters n hn := h.counters n (Nat.le_of_succ_le hn)
    empty := nofun }

theorem Sound.importSurface (h : s.Sound) (hpc : s.pc = .acquiring) (hlimit : s.inputs.length < kMaxImportedInputs)
    (answer : ImportAnswer) : Sound { (s.importSurface answer).1 with pc := .idle } := by
  have hphase : s.pc.phase = 0 := by rw [hpc]; rfl
  have hinputs := h.inputs
  have hruntime := h.runtime
  rw [hphase] at hinputs hruntime
  cases answer with
  | refused status => exact h.move hphase.symm
  | handleThrown =>
      have hholds := h.holds.create (h.fresh s.next le_rfl).1
      refine h.undo hphase (hholds.destroy (fun r _ => r.not_on_wrapper s.next) (ImportResource.On.irrefl _)) fun n hn => ?_
      have hne : n ≠ s.next := Nat.ne_of_gt hn
      simpa [TrackerState.importSurface, logAll, hne] using h.fresh n (Nat.le_of_succ_le hn)
  | listThrown =>
      have hholds : Holds ImportResource.On (.create (.owner s.next) :: .create (.wrapper s.next) :: s.events)
          ([.wrapper s.next, .owner s.next] ++ s.owned) := h.create.perm (.swap ..)
      refine h.undo hphase (destroyInput hholds) fun n hn => ?_
      have hne : n ≠ s.next := Nat.ne_of_gt hn
      simpa [TrackerState.importSurface, logAll, hne] using h.fresh n (Nat.le_of_succ_le hn)
  | imported =>
      obtain ⟨numbers, heq⟩ := hinputs
      exact {
        holds := h.create.perm (s.owned_append s.next)
        fresh n hn := by
          have hne : n ≠ s.next := Nat.ne_of_gt hn
          simpa [TrackerState.importSurface, hne] using h.fresh n (Nat.le_of_succ_le hn)
        inputs := ⟨numbers ++ [s.next], by simp [TrackerState.importSurface, heq, TrackerPc.phase, input]⟩
        limit := by
          rw [TrackerState.importSurface, List.length_append]
          exact hlimit
        runtime := hruntime
        gone := nofun
        counters n hn := h.counters n (Nat.le_of_succ_le hn)
        empty := nofun }

/-! ## Releases -/

theorem wrappers_open (numbers : List Nat) :
    (numbers.map (input 0)).flatMap ImportedInput.wrappers = numbers.map .wrapper := by
  rw [List.flatMap_map, List.map_eq_flatMap]
  rfl

theorem resources_open (numbers : List Nat) :
    ((numbers.map (input 0)).flatMap ImportedInput.resources).Perm (numbers.map .wrapper ++ numbers.map .owner) := by
  rw [List.flatMap_map, List.map_eq_flatMap, List.map_eq_flatMap]
  exact (List.flatMap_append_perm numbers _ _).symm

theorem resources_closing (numbers : List Nat) {phase : Nat} (hphase : phase ≠ 0) :
    (numbers.map (input phase)).flatMap ImportedInput.resources = numbers.map .owner := by
  rw [List.flatMap_map, List.map_eq_flatMap]
  simp [input, hphase, ImportedInput.resources, ImportedInput.wrappers, ImportedInput.owners]

theorem owned_closing {numbers : List Nat} {phase : Nat} (hinputs : s.inputs = numbers.map (input phase))
    (hphase : phase ≠ 0) : s.owned = numbers.map .owner ++ if s.runtime then [.runtime] else [] := by
  rw [owned, hinputs, resources_closing numbers hphase]

theorem Sound.inputAt (h : s.Sound) (hphase : s.pc.phase = 0) {i : Nat} (hi : i < s.inputs.length) :
    ∃ n, s.inputs[i] = ⟨some n, some n⟩ := by
  obtain ⟨numbers, heq⟩ := h.inputs
  simp [heq, hphase, input]

theorem Sound.erase (h : s.Sound) {i : Nat} {acquiring : Bool} (hpc : s.pc = .releasable i acquiring) :
    (s.erase i acquiring).Sound := by
  have hphase : s.pc.phase = 0 := by rw [hpc]; rfl
  by_cases hi : i < s.inputs.length
  case neg =>
    have hnone : s.inputs[i]? = none := List.getElem?_eq_none (Nat.le_of_not_lt hi)
    rw [TrackerState.erase, hnone, List.eraseIdx_of_length_le (Nat.le_of_not_lt hi)]
    exact h.move hphase.symm
  obtain ⟨n, hn⟩ := h.inputAt hphase hi
  have hsome : s.inputs[i]? = some ⟨some n, some n⟩ := by rw [List.getElem?_eq_getElem hi, hn]
  have hperm : s.owned.Perm ([.wrapper n, .owner n] ++ { s with inputs := s.inputs.eraseIdx i }.owned) := by
    have := (List.getElem_cons_eraseIdx_perm hi).symm.flatMap_right ImportedInput.resources
    rw [hn] at this
    exact this.append_right _
  have hinputs := h.inputs
  have hruntime := h.runtime
  rw [hphase] at hinputs hruntime
  obtain ⟨numbers, heq⟩ := hinputs
  have herase : s.erase i acquiring =
      { s with
        events := .destroy (.owner n) :: .destroy (.wrapper n) :: s.events
        inputs := s.inputs.eraseIdx i
        pc := .retiring i acquiring } := by
    rw [TrackerState.erase, hsome]
    rfl
  rw [herase]
  exact {
    holds := destroyInput (h.holds.perm hperm)
    fresh m hm := by simpa using h.fresh m hm
    inputs := ⟨numbers.eraseIdx i, by rw [heq, List.eraseIdx_map]; rfl⟩
    limit := Nat.le_trans (List.length_eraseIdx_le _ _) h.limit
    runtime := hruntime
    gone := nofun
    counters := h.counters
    empty := nofun }

/-- Destructions concern no import that is still to come. -/
theorem Sound.fresh_logAll (h : s.Sound) (resources : List ImportResource) (n : Nat) (hn : s.next ≤ n) :
    .create (.wrapper n) ∉ (s.logAll resources).events ∧ .create (.owner n) ∉ (s.logAll resources).events := by
  simpa [logAll] using h.fresh n hn

theorem Sound.releaseWrappers (h : s.Sound) (hpc : s.pc = .idle) : s.releaseWrappersBeforeRuntimeClose.Sound := by
  have hinputs := h.inputs
  have hruntime := h.runtime
  rw [hpc] at hinputs hruntime
  obtain ⟨numbers, heq⟩ := hinputs
  have hnext : (s.inputs.map fun input => { input with surface := none }) = numbers.map (input 1) := by
    rw [heq, List.map_map]
    rfl
  have hperm : s.owned.Perm (numbers.map .wrapper ++ s.releaseWrappersBeforeRuntimeClose.owned) := by
    rw [owned_closing (s := s.releaseWrappersBeforeRuntimeClose) hnext Nat.one_ne_zero, owned, heq, ← List.append_assoc]
    exact (resources_open numbers).append_right _
  have hholds : Holds ImportResource.On s.releaseWrappersBeforeRuntimeClose.events
      s.releaseWrappersBeforeRuntimeClose.owned := by
    have hall : ∀ r ∈ numbers.map ImportResource.wrapper, ∀ r', ¬ ImportResource.On r' r := by
      intro r hr r'
      obtain ⟨n, -, rfl⟩ := List.mem_map.mp hr
      exact r'.not_on_wrapper n
    have hpairwise : (numbers.map ImportResource.wrapper).Pairwise fun r r' => ¬ ImportResource.On r' r :=
      List.pairwise_of_forall_mem_list fun r hr r' _ => hall r hr r'
    have hdestroy := (h.holds.perm hperm).destroyAll hpairwise (fun r hr r' _ => hall r hr r') ImportResource.On.irrefl
    rw [← wrappers_open, ← show s.inputs = numbers.map (input 0) from heq] at hdestroy
    exact hdestroy
  exact {
    holds := hholds
    fresh := h.fresh_logAll _
    inputs := ⟨numbers, hnext⟩
    limit := by
      rw [releaseWrappersBeforeRuntimeClose, List.length_map]
      exact h.limit
    runtime := hruntime
    gone := nofun
    counters := h.counters
    empty := nofun }

theorem Sound.closeRuntime (h : s.Sound) (hpc : s.pc = .wrappersReleased) : s.closeRuntime.Sound := by
  have hinputs := h.inputs
  have hruntime : s.runtime = true := by rw [h.runtime, hpc]; rfl
  rw [hpc] at hinputs
  obtain ⟨numbers, heq⟩ := hinputs
  have howned : s.owned = numbers.map .owner ++ [.runtime] := by
    rw [owned_closing heq Nat.one_ne_zero, hruntime]
    rfl
  have howned' : s.closeRuntime.owned = numbers.map .owner :=
    (owned_closing (s := s.closeRuntime) heq Nat.one_ne_zero).trans (List.append_nil _)
  have hholds : Holds ImportResource.On s.closeRuntime.events s.closeRuntime.owned := by
    have hbefore : Holds ImportResource.On s.events (.runtime :: s.closeRuntime.owned) := by
      refine h.holds.perm ?_
      rw [howned, howned']
      exact List.perm_append_singleton ..
    have hdestroy := hbefore.destroy (fun r hr => ?_) (ImportResource.On.irrefl _)
    · rw [TrackerState.closeRuntime, hruntime]
      exact hdestroy
    · rw [howned'] at hr
      obtain ⟨n, -, rfl⟩ := List.mem_map.mp hr
      exact ImportResource.not_owner_on _ n
  exact {
    holds := hholds
    fresh := h.fresh_logAll _
    inputs := ⟨numbers, heq⟩
    limit := h.limit
    runtime := rfl
    gone _ := by simp [TrackerState.closeRuntime, logAll, hruntime]
    counters := h.counters
    empty := nofun }

theorem Sound.releaseOwners (h : s.Sound) (hpc : s.pc = .runtimeClosed) : s.releaseOwnersAfterRuntimeClose.Sound := by
  have hinputs := h.inputs
  have hruntime : s.runtime = false := by rw [h.runtime, hpc]; rfl
  rw [hpc] at hinputs
  obtain ⟨numbers, heq⟩ := hinputs
  have hresources : s.inputs.flatMap ImportedInput.resources = numbers.map .owner := by
    rw [heq]
    exact resources_closing numbers (Nat.succ_ne_zero 1)
  have howned' : s.releaseOwnersAfterRuntimeClose.owned = [] := if_neg (Bool.eq_false_iff.mp hruntime)
  have hholds : Holds ImportResource.On s.releaseOwnersAfterRuntimeClose.events
      s.releaseOwnersAfterRuntimeClose.owned := by
    have hbefore : Holds ImportResource.On s.events
        (s.inputs.flatMap ImportedInput.resources ++ s.releaseOwnersAfterRuntimeClose.owned) := by
      have hholds := h.holds
      rw [owned, hruntime] at hholds
      rw [howned']
      exact hholds
    have hpairwise : (s.inputs.flatMap ImportedInput.resources).Pairwise fun r r' => ¬ ImportResource.On r' r := by
      rw [hresources]
      refine List.pairwise_of_forall_mem_list fun r _ r' hr' => ?_
      obtain ⟨n, -, rfl⟩ := List.mem_map.mp hr'
      exact r.not_owner_on n
    refine hbefore.destroyAll hpairwise (fun r _ r' hr' => ?_) ImportResource.On.irrefl
    rw [howned'] at hr'
    cases hr'
  exact {
    holds := hholds
    fresh := h.fresh_logAll _
    inputs := ⟨[], rfl⟩
    limit := Nat.zero_le _
    runtime := hruntime
    gone _ := List.mem_append_right _ (h.gone (by rw [hpc]; rfl))
    counters := h.counters
    empty _ := rfl }

/-! ## Runs -/

theorem Sound.acquire (h : s.Sound) (hpc : s.pc = .acquiring) (answer : SurfaceAnswer) :
    Sound { (s.acquire answer).1 with pc := .idle } := by
  have hsame : Sound { s with pc := .idle } := h.move (by rw [hpc]; rfl)
  cases answer with
  | external answer =>
      rw [TrackerState.acquire]
      split
      · exact hsame
      · rename_i hlimit
        exact h.importSurface hpc (Nat.lt_of_not_le hlimit) answer
  | _ => exact hsame

theorem Sound.step (h : s.Sound) (hst : s.Step l t) : t.Sound := by
  cases l with
  | retire =>
      obtain ⟨hpc, ⟨⟩⟩ := Option.ite_none_right_eq_some.mp hst
      exact h.move (by rw [hpc]; rfl)
  | beginAcquire =>
      obtain ⟨hpc, ⟨⟩⟩ := Option.ite_none_right_eq_some.mp hst
      exact h.move (by rw [hpc]; rfl)
  | count counts =>
      simp only [Step, TrackerState.step] at hst
      split at hst <;> cases hst
      exact h.count (by assumption)
  | readLocked =>
      simp only [Step, TrackerState.step] at hst
      split at hst <;> cases hst
      exact h.readLocked (by assumption)
  | erase =>
      simp only [Step, TrackerState.step] at hst
      split at hst <;> cases hst
      exact h.erase (by assumption)
  | acquire answer =>
      obtain ⟨hpc, ⟨⟩⟩ := Option.ite_none_right_eq_some.mp hst
      exact h.acquire hpc answer
  | releaseWrappers =>
      obtain ⟨hpc, ⟨⟩⟩ := Option.ite_none_right_eq_some.mp hst
      exact h.releaseWrappers hpc
  | closeRuntime =>
      obtain ⟨hpc, ⟨⟩⟩ := Option.ite_none_right_eq_some.mp hst
      exact h.closeRuntime hpc
  | releaseOwners =>
      obtain ⟨hpc, ⟨⟩⟩ := Option.ite_none_right_eq_some.mp hst
      exact h.releaseOwners hpc
  | evolve n c =>
      obtain ⟨hn, ⟨⟩⟩ := Option.ite_none_right_eq_some.mp hst
      exact h.evolve hn

/-! ## Surfaces without use -/

/-- What the reads of the counters have shown is still true. -/
def Unused (s : TrackerState) : Prop :=
  match s.pc with
  | .counted i _ => ∀ n ∈ s.surfaceAt i, (s.counters n).references ≤ 1
  | .releasable i _ => ∀ n ∈ s.surfaceAt i, (s.counters n).references ≤ 1 ∧ (s.counters n).locked = 0
  | _ => True

/-- The runtime does not come back to a surface that is being checked: behind the read of the references it takes none, and
behind that of the locks it takes no lock either. -/
def Calm (s : TrackerState) : TrackerLabel → Prop
  | .evolve n c => s.checked = some n → c.references ≤ 1 ∧ ∀ i acquiring, s.pc = .releasable i acquiring → c.locked = 0
  | _ => True

theorem Unused.evolve (h : s.Unused) {n : Nat} {c : SurfaceCounters} (hcalm : s.Calm (.evolve n c)) :
    Unused { s with counters := Function.update s.counters n c } := by
  have hcalm : s.checked = some n → _ := hcalm
  rw [Unused] at h ⊢
  rw [checked] at hcalm
  cases hpc : s.pc with
  | counted i acquiring =>
      simp only [hpc] at h hcalm ⊢
      intro m hm
      by_cases hmn : m = n
      · subst hmn
        simpa using (hcalm hm).1
      · simpa [Function.update_of_ne hmn] using h m hm
  | releasable i acquiring =>
      simp only [hpc] at h hcalm ⊢
      intro m hm
      by_cases hmn : m = n
      · subst hmn
        obtain ⟨hreferences, hlocked⟩ := hcalm hm
        simpa using ⟨hreferences, hlocked i acquiring rfl⟩
      · simpa [Function.update_of_ne hmn] using h m hm
  | _ => trivial

theorem count_unused (s : TrackerState) (i : Nat) (acquiring counts : Bool) : (s.count i acquiring counts).Unused := by
  rw [TrackerState.count]
  split
  · cases acquiring <;> trivial
  · rename_i input hinput
    split
    · trivial
    · rename_i n hn
      split
      · rename_i hcount
        intro m hm
        have hm : s.surfaceAt i = some m := hm
        rw [surfaceAt, hinput, Option.bind_some, hn] at hm
        cases hm
        simp only [Bool.and_eq_true, decide_eq_true_eq] at hcount
        exact Nat.le_of_eq hcount.2
      · trivial

theorem Unused.readLocked (h : s.Unused) {i : Nat} {acquiring : Bool} (hpc : s.pc = .counted i acquiring) :
    (s.readLocked i acquiring).Unused := by
  simp only [Unused, hpc] at h
  rw [TrackerState.readLocked]
  split
  · rename_i n hn
    split
    · rename_i hlocked
      intro m hm
      have hm : s.surfaceAt i = some m := hm
      rw [hn] at hm
      cases hm
      exact ⟨h n hn, hlocked⟩
    · trivial
  · trivial

/-- A check begins with no counter read, and a step outside of it reads none. -/
theorem Unused.step (h : s.Unused) (hst : s.Step l t) (hcalm : s.Calm l) : t.Unused := by
  cases l with
  | retire | beginAcquire | acquire | releaseWrappers | closeRuntime | releaseOwners =>
      obtain ⟨-, ⟨⟩⟩ := Option.ite_none_right_eq_some.mp hst
      trivial
  | count counts =>
      simp only [Step, TrackerState.step] at hst
      split at hst <;> cases hst
      exact count_unused s _ _ counts
  | readLocked =>
      simp only [Step, TrackerState.step] at hst
      split at hst <;> cases hst
      exact h.readLocked (by assumption)
  | erase =>
      simp only [Step, TrackerState.step] at hst
      split at hst <;> cases hst
      trivial
  | evolve n c =>
      obtain ⟨-, ⟨⟩⟩ := Option.ite_none_right_eq_some.mp hst
      exact h.evolve hcalm

/-! ## What a step releases -/

theorem count_events (s : TrackerState) (i : Nat) (acquiring counts : Bool) :
    (s.count i acquiring counts).events = s.events := by
  rw [count]
  split
  · rfl
  · split
    · rfl
    · split <;> rfl

theorem readLocked_events (s : TrackerState) (i : Nat) (acquiring : Bool) :
    (s.readLocked i acquiring).events = s.events := by
  rw [readLocked]
  split
  · split <;> rfl
  · rfl

theorem mem_logAll {r : ImportResource} {resources : List ImportResource} (hmem : .destroy r ∈ (s.logAll resources).events)
    (hnew : .destroy r ∉ s.events) : r ∈ resources := by
  simpa [logAll, hnew] using hmem

/-- What a failed import destroys is what it has created. -/
theorem importSurface_new {answer : ImportAnswer} {r : ImportResource}
    (hmem : .destroy r ∈ (s.importSurface answer).1.events) (hnew : .destroy r ∉ s.events) :
    r = .wrapper s.next ∨ r = .owner s.next := by
  cases answer with
  | refused status => exact absurd hmem hnew
  | handleThrown => exact .inl (List.mem_singleton.mp (mem_logAll hmem (by simpa using hnew)))
  | listThrown => exact List.mem_pair.mp (mem_logAll hmem (by simpa using hnew))
  | imported => simp [TrackerState.importSurface, hnew] at hmem

/-- What a step may release: an input whose check has ended, an import that fails, or what a close is about to. -/
inductive Releases (s t : TrackerState) : ImportResource → Prop
  | erased {i : Nat} {acquiring : Bool} {r : ImportResource} : s.pc = .releasable i acquiring → t.pc.phase = 0 →
      r ∈ s.inputs[i]?.toList.flatMap ImportedInput.resources → Releases s t r
  | failed {r : ImportResource} : t.pc.phase = 0 → r = .wrapper s.next ∨ r = .owner s.next → Releases s t r
  | wrapper {n : Nat} : t.pc.phase ≠ 0 → Releases s t (.wrapper n)
  | runtime : t.pc.phase ≠ 0 → Releases s t .runtime
  | closed {r : ImportResource} : t.pc.phase ≠ 0 → s.pc = .runtimeClosed → Releases s t r

theorem Step.releases (hst : s.Step l t) {r : ImportResource} (hmem : .destroy r ∈ t.events) (hnew : .destroy r ∉ s.events) :
    s.Releases t r := by
  cases l with
  | retire | beginAcquire | evolve =>
      obtain ⟨-, ⟨⟩⟩ := Option.ite_none_right_eq_some.mp hst
      exact absurd hmem hnew
  | count counts =>
      simp only [Step, TrackerState.step] at hst
      split at hst <;> cases hst
      rw [count_events] at hmem
      exact absurd hmem hnew
  | readLocked =>
      simp only [Step, TrackerState.step] at hst
      split at hst <;> cases hst
      rw [readLocked_events] at hmem
      exact absurd hmem hnew
  | erase =>
      simp only [Step, TrackerState.step] at hst
      split at hst <;> cases hst
      rename_i i acquiring hpc
      exact .erased hpc rfl (mem_logAll hmem hnew)
  | acquire answer =>
      obtain ⟨-, ⟨⟩⟩ := Option.ite_none_right_eq_some.mp hst
      cases answer with
      | external answer =>
          rw [TrackerState.acquire] at hmem
          split at hmem
          · exact absurd hmem hnew
          · exact .failed rfl (importSurface_new hmem hnew)
      | _ => exact absurd hmem hnew
  | releaseWrappers =>
      obtain ⟨-, ⟨⟩⟩ := Option.ite_none_right_eq_some.mp hst
      obtain ⟨input, -, hr⟩ := List.mem_flatMap.mp (mem_logAll hmem hnew)
      obtain ⟨n, -, rfl⟩ := Option.map_eq_some_iff.mp (Option.mem_toList.mp hr)
      exact .wrapper nofun
  | closeRuntime =>
      obtain ⟨-, ⟨⟩⟩ := Option.ite_none_right_eq_some.mp hst
      obtain ⟨-, rfl⟩ : s.runtime = true ∧ r = .runtime := by simpa using mem_logAll hmem hnew
      exact .runtime nofun
  | releaseOwners =>
      obtain ⟨hpc, ⟨⟩⟩ := Option.ite_none_right_eq_some.mp hst
      exact .closed nofun hpc

/-- What a step releases while the encoder stays open. -/
theorem Sound.released_open (h : s.Sound) (hunused : s.Unused) (hopen : t.pc.phase = 0) {r : ImportResource}
    (hreleases : s.Releases t r) :
    ∃ n, (r = .wrapper n ∨ r = .owner n) ∧ (s.counters n).references ≤ 1 ∧ (s.counters n).locked = 0 := by
  cases hreleases with
  | @erased i acquiring r hpc _ hr =>
      simp only [Unused, hpc, surfaceAt] at hunused
      cases hinput : s.inputs[i]? with
      | none =>
          rw [hinput] at hr
          cases hr
      | some input =>
          obtain ⟨hi, heq⟩ := List.getElem?_eq_some_iff.mp hinput
          obtain ⟨n, hn⟩ := h.inputAt (by rw [hpc]; rfl) hi
          obtain rfl := heq.symm.trans hn
          rw [hinput] at hr hunused
          exact ⟨n, List.mem_pair.mp hr, hunused n rfl⟩
  | failed _ hr =>
      refine ⟨s.next, hr, ?_⟩
      rw [h.counters s.next le_rfl]
      exact ⟨le_rfl, rfl⟩
  | wrapper hclosing | runtime hclosing | closed hclosing => exact absurd hopen hclosing

/-- The frames go at the end of a close. -/
theorem owner_released_closing (hclosing : t.pc.phase ≠ 0) {n : Nat} (hreleases : s.Releases t (.owner n)) :
    s.pc = .runtimeClosed := by
  cases hreleases with
  | erased _ hopen | failed hopen => exact absurd hopen hclosing
  | closed _ hpc => exact hpc

end TrackerState

/-- In every run of the tracker, whatever the runtime does with its counters: at most 64 imports are held, and everything that was created
is owned, or was destroyed exactly once, a wrapper before its frame and before the runtime; and a close releases the frames behind the
runtime. When the runtime does not come back to a surface under check, a wrapper that goes before a close has no other reference and no
lock. -/
theorem imported_surfaces_released {ls : List TrackerLabel} {s : TrackerState} (h : Run TrackerState.Step .init ls s) :
    s.inputs.length ≤ kMaxImportedInputs ∧
    Legal (Allowed ImportResource.On) s.events ∧
    (∀ r, .create r ∈ s.events →
      r ∈ s.owned ∧ s.events.count (.destroy r) = 0 ∨ r ∉ s.owned ∧ s.events.count (.destroy r) = 1) ∧
    (∀ l t n, s.Step l t → .destroy (.owner n) ∈ t.events → .destroy (.owner n) ∉ s.events → t.pc.phase ≠ 0 →
      .destroy .runtime ∈ s.events) ∧
    (s.pc = .idle →
      ∃ t, Run TrackerState.Step s [.releaseWrappers, .closeRuntime, .releaseOwners] t ∧ t.pc = .closed) ∧
    (s.pc = .closed → ∀ r, .create r ∈ s.events → s.events.count (.destroy r) = 1) ∧
    (Run (Restrict TrackerState.Step TrackerState.Calm) .init ls s → ∀ l t n, s.Step l t → .destroy (.wrapper n) ∈ t.events →
      .destroy (.wrapper n) ∉ s.events → t.pc.phase = 0 → (s.counters n).references ≤ 1 ∧ (s.counters n).locked = 0) := by
  have hsound : s.Sound := h.invariant TrackerState.sound_init fun hs hst => hs.step hst
  refine ⟨hsound.limit, hsound.holds.legal, fun r => hsound.holds.owned_or_destroyed, ?_, fun hpc => ?_,
    fun hpc r hcreate => ?_, ?_⟩
  · intro l t n hst hmem hnew hclosing
    have hpc := TrackerState.owner_released_closing hclosing (TrackerState.Step.releases hst hmem hnew)
    exact hsound.gone (by rw [hpc]; rfl)
  · have hfirst : s.Step .releaseWrappers s.releaseWrappersBeforeRuntimeClose := if_pos hpc
    exact ⟨_, .cons hfirst (.cons rfl (.cons rfl .nil)), rfl⟩
  · have hempty : s.owned = [] := by
      have hruntime : s.runtime = false := by rw [hsound.runtime, hpc]; rfl
      rw [TrackerState.owned, hsound.empty hpc, hruntime]
      rfl
    rcases hsound.holds.owned_or_destroyed hcreate with ⟨hmem, -⟩ | ⟨-, honce⟩
    · rw [hempty] at hmem
      cases hmem
    · exact honce
  · intro hcalm l t n hst hmem hnew hopen
    have hunused : s.Unused := hcalm.invariant (I := TrackerState.Unused) trivial fun hs hst => hs.step hst.1 hst.2
    obtain ⟨m, hr, hm⟩ := hsound.released_open hunused hopen (TrackerState.Step.releases hst hmem hnew)
    obtain rfl : n = m := by simpa using hr
    exact hm

/-- Two imports, of which the runtime gives up the first, up to the release of that one. -/
def retireRun : List TrackerLabel :=
  [.beginAcquire, .count true, .acquire (.external .imported), .evolve 0 ⟨2, 1⟩,
    .beginAcquire, .count true, .count true, .acquire (.external .imported), .evolve 1 ⟨3, 0⟩, .evolve 0 ⟨1, 0⟩,
    .retire, .count true, .readLocked]

/-- The runtime changes counters only while none are read. -/
def betweenChecks (s : TrackerState) : TrackerLabel → Bool
  | .evolve _ _ => s.checked.isNone
  | _ => true

theorem calm_of_betweenChecks {s : TrackerState} {l : TrackerLabel} (h : betweenChecks s l = true) : s.Calm l := by
  cases l with
  | evolve n c =>
      intro hchecked
      simp [betweenChecks, hchecked] at h
  | _ => trivial

theorem imported_surfaces_released_small : ∃ s t : TrackerState,
    Run (Restrict TrackerState.Step TrackerState.Calm) .init retireRun s ∧ s.Step .erase t ∧
      t.inputs = [⟨some 1, some 1⟩] ∧
      t.events = [.destroy (.owner 0), .destroy (.wrapper 0), .create (.owner 1), .create (.wrapper 1),
        .create (.owner 0), .create (.wrapper 0), .create .runtime] ∧
      s.inputs.length ≤ kMaxImportedInputs ∧ (s.counters 0).references ≤ 1 ∧ (s.counters 0).locked = 0 := by
  have hrun : ∃ s t : TrackerState,
      exec (fun s l => if betweenChecks s l then s.step l else none) .init retireRun = some s ∧ s.Step .erase t ∧
      t.inputs = [⟨some 1, some 1⟩] ∧
      t.events = [.destroy (.owner 0), .destroy (.wrapper 0), .create (.owner 1), .create (.wrapper 1),
        .create (.owner 0), .create (.wrapper 0), .create .runtime] ∧
      .destroy (.wrapper 0) ∉ s.events ∧ t.pc.phase = 0 :=
    ⟨_, _, rfl, rfl, rfl, rfl, by decide, rfl⟩
  obtain ⟨s, t, hexec, hst, hinputs, hevents, hnew, hopen⟩ := hrun
  have hcalm : Run (Restrict TrackerState.Step TrackerState.Calm) .init retireRun s :=
    (Run.restrict_of_exec hexec).mono fun _ _ _ hst => ⟨hst.1, calm_of_betweenChecks hst.2⟩
  obtain ⟨hlimit, -, -, -, -, -, hreleased⟩ := imported_surfaces_released hcalm.of_restrict
  have hmem : .destroy (.wrapper 0) ∈ t.events := by
    rw [hevents]
    decide
  exact ⟨s, t, hcalm, hst, hinputs, hevents, hlimit, hreleased hcalm _ _ 0 hst hmem hnew hopen⟩

/-! ## A lock that becomes a reference -/

/-- The runtime has locked a surface, and takes a reference for the lock between the two reads. -/
def tradeRun : List TrackerLabel :=
  [.beginAcquire, .count true, .acquire (.external .imported), .evolve 0 ⟨1, 1⟩,
    .retire, .count true, .evolve 0 ⟨2, 0⟩, .readLocked]

/-- A wrapper that the runtime uses at every moment is released: either read misses the use that the other would see. -/
theorem used_surface_released :
    ¬ ∀ (ls : List TrackerLabel) (s t : TrackerState) (l : TrackerLabel) (n : Nat), Run TrackerState.Step .init ls s → s.Step l t →
      .destroy (.wrapper n) ∈ t.events → .destroy (.wrapper n) ∉ s.events → t.pc.phase = 0 →
      (s.counters n).references ≤ 1 ∧ (s.counters n).locked = 0 := by
  intro h
  have hrun : ∃ s t : TrackerState, exec TrackerState.step .init tradeRun = some s ∧ s.Step .erase t ∧
      .destroy (.wrapper 0) ∈ t.events ∧ .destroy (.wrapper 0) ∉ s.events ∧ t.pc.phase = 0 ∧ s.counters 0 = ⟨2, 0⟩ :=
    ⟨_, _, rfl, rfl, by decide, by decide, rfl, rfl⟩
  obtain ⟨s, t, hexec, hst, hmem, hnew, hopen, hcounters⟩ := hrun
  have hunused := (h tradeRun s t .erase 0 (.of_exec hexec) hst hmem hnew hopen).1
  rw [hcounters] at hunused
  exact absurd hunused (by decide)

end MkvCodec.Gpu
