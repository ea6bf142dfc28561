import Mathlib.Data.List.Nodup

/-!
# Histories

A history lists what has happened, the latest first. A protocol says which events a history allows next, and a legal
history is one whose events were all allowed when they happened.
-/

namespace Concurrency

variable {A : Type*} {allowed allowed' : List A → A → Prop} {event : A} {earlier later history : List A}

def Legal (allowed : List A → A → Prop) : List A → Prop
  | [] => True
  | event :: earlier => allowed earlier event ∧ Legal allowed earlier

namespace Legal

theorem nil : Legal allowed [] := trivial

theorem cons (h : Legal allowed earlier) (hevent : allowed earlier event) : Legal allowed (event :: earlier) :=
  ⟨hevent, h⟩

theorem mono (h : Legal allowed history) (hmono : ∀ earlier event, allowed earlier event → allowed' earlier event) :
    Legal allowed' history := by
  induction history with
  | nil => exact .nil
  | cons event earlier ih => exact (ih h.2).cons (hmono _ _ h.1)

/-- When no event is allowed twice, none happens twice. -/
theorem nodup (h : Legal allowed history) (hnew : ∀ earlier event, allowed earlier event → event ∉ earlier) :
    history.Nodup := by
  induction history with
  | nil => exact List.nodup_nil
  | cons event earlier ih => exact List.nodup_cons.mpr ⟨hnew _ _ h.1, ih h.2⟩

end Legal

end Concurrency
