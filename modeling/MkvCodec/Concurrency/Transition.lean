import Mathlib.Algebra.Ring.Int.Defs
import Mathlib.Algebra.Ring.Nat
import Mathlib.Data.List.Basic

/-!
# Runs of a labelled transition relation

A relation `R s l t` says that the system moves from `s` to `t` with label `l`. A run is a list of labels
together with the moves it names. Every result about whole runs of the models is obtained here from a fact
about one step: an invariant, a relation between the two ends of a run, and the step at which a property
first holds.
-/

namespace Concurrency

variable {S L : Type*}

/-- `Run R s₀ ls s`: starting at `s₀`, the labels `ls` in this order lead to `s`. -/
inductive Run (R : S → L → S → Prop) (s₀ : S) : List L → S → Prop
  | nil : Run R s₀ [] s₀
  | snoc {ls s l t} : Run R s₀ ls s → R s l t → Run R s₀ (ls ++ [l]) t

/-- The steps of `R` whose source state and label satisfy `C`. -/
def Restrict (R : S → L → S → Prop) (C : S → L → Prop) : S → L → S → Prop :=
  fun s l t => R s l t ∧ C s l

/-- The steps of `R` with a history, which `next` carries on. -/
def Watch {H : Type*} (R : S → L → S → Prop) (next : S → L → H → H) : S × H → L → S × H → Prop :=
  fun s l t => R s.1 l t.1 ∧ t.2 = next s.1 l s.2

/-- The state that labels lead to, when every step they name can be taken. -/
def exec (step : S → L → Option S) (s : S) : List L → Option S
  | [] => some s
  | l :: ls => (step s l).bind fun t => exec step t ls

theorem exec_append {step : S → L → Option S} (s : S) (ls ls' : List L) :
    exec step s (ls ++ ls') = (exec step s ls).bind fun t => exec step t ls' := by
  induction ls generalizing s with
  | nil => rfl
  | cons l ls ih =>
      rw [List.cons_append, exec, exec, Option.bind_assoc]
      simp only [ih]

namespace Run

variable {R R' : S → L → S → Prop} {s₀ s t : S} {ls ls' : List L} {l : L}

theorem single (h : R s l t) : Run R s [l] t := Run.snoc (.nil : Run R s [] s) h

theorem append (h : Run R s₀ ls s) (h' : Run R s ls' t) : Run R s₀ (ls ++ ls') t := by
  induction h' with
  | nil => simpa using h
  | snoc _ hst ih => rw [← List.append_assoc]; exact .snoc ih hst

theorem cons {u : S} (h : R s l t) (h' : Run R t ls u) : Run R s (l :: ls) u := (single h).append h'

theorem mono (hR : ∀ s l t, R s l t → R' s l t) (h : Run R s₀ ls s) : Run R' s₀ ls s := by
  induction h with
  | nil => exact .nil
  | snoc _ hst ih => exact .snoc ih (hR _ _ _ hst)

theorem of_restrict {C : S → L → Prop} (h : Run (Restrict R C) s₀ ls s) : Run R s₀ ls s :=
  h.mono fun _ _ _ hst => hst.1

theorem of_exec {step : S → L → Option S} (h : exec step s ls = some t) :
    Run (fun s l t => step s l = some t) s ls t := by
  induction ls generalizing s with
  | nil =>
      cases h
      exact .nil
  | cons l ls ih =>
      obtain ⟨u, hu, ht⟩ := Option.bind_eq_some_iff.mp h
      exact (single (R := fun s l t => step s l = some t) hu).append (ih ht)

/-- The same for a run whose steps meet a condition. -/
theorem restrict_of_exec {step : S → L → Option S} {C : S → L → Prop} [∀ s l, Decidable (C s l)]
    (h : exec (fun s l => if C s l then step s l else none) s ls = some t) :
    Run (Restrict (fun s l t => step s l = some t) C) s ls t := by
  refine (of_exec h).mono ?_
  intro s l t hst
  split at hst
  · exact ⟨hst, by assumption⟩
  · cases hst

/-- The same for a run with a history, whose steps pass a test that entails their condition. -/
theorem watch_of_exec {H : Type*} {step : S → L → Option S} {next : S → L → H → H} {C : S × H → L → Prop}
    (test : S × H → L → Bool) (htest : ∀ s l, test s l = true → C s l) {s t : S × H}
    (h : exec (fun s l => if test s l then (step s.1 l).map fun t => (t, next s.1 l s.2) else none) s ls = some t) :
    Run (Restrict (Watch (fun s l t => step s l = some t) next) C) s ls t := by
  refine (of_exec h).mono ?_
  intro s l t hst
  split at hst
  · obtain ⟨u, hu, rfl⟩ := Option.map_eq_some_iff.mp hst
    exact ⟨⟨hu, rfl⟩, htest s l (by assumption)⟩
  · cases hst

/-- The first step of a run with a history. -/
theorem watch_cons {H : Type*} {next : S → L → H → H} {C : S × H → L → Prop} {s t : S} {history : H} {u : S × H}
    (hst : R s l t) (hc : C (s, history) l) (h' : Run (Restrict (Watch R next) C) (t, next s l history) ls u) :
    Run (Restrict (Watch R next) C) (s, history) (l :: ls) u := .cons ⟨⟨hst, rfl⟩, hc⟩ h'

/-- A property of the first state that every step preserves holds in the last state. -/
theorem invariant {I : S → Prop} (h : Run R s₀ ls s) (h₀ : I s₀)
    (hstep : ∀ {s l t}, I s → R s l t → I t) : I s := by
  induction h with
  | nil => exact h₀
  | snoc _ hst ih => exact hstep ih hst

/-- A reflexive and transitive relation between the two ends of every step holds between the two ends of a
run. -/
theorem lift {Q : S → S → Prop} (h : Run R s₀ ls s) (hrefl : ∀ s, Q s s)
    (htrans : ∀ {a b c}, Q a b → Q b c → Q a c) (hstep : ∀ {s l t}, R s l t → Q s t) : Q s₀ s := by
  induction h with
  | nil => exact hrefl _
  | snoc _ hst ih => exact htrans ih (hstep hst)

/-- A property that fails at the start and holds at the end of a run is brought about by one of its steps. -/
theorem exists_flip {P : S → Prop} (h : Run R s₀ ls s) (h₀ : ¬ P s₀) (hs : P s) :
    ∃ ls₁ a l b ls₂, Run R s₀ ls₁ a ∧ R a l b ∧ Run R b ls₂ s ∧ ¬ P a ∧ P b ∧ ls = ls₁ ++ l :: ls₂ := by
  induction h with
  | nil => exact absurd hs h₀
  | @snoc ls a l b hrun hst ih =>
      by_cases ha : P a
      · obtain ⟨ls₁, a', l', b', ls₂, h₁, h₂, h₃, hna, hb, rfl⟩ := ih ha
        exact ⟨ls₁, a', l', b', ls₂ ++ [l], h₁, h₂, .snoc h₃ hst, hna, hb, by simp⟩
      · exact ⟨ls, a, l, b, [], hrun, hst, .nil, ha, hs, rfl⟩

end Run

end Concurrency
