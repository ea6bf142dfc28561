import Mathlib.Data.List.Basic
import MkvCodec.Concurrency.Transition

/-!
# Encoders that count

An encoder takes a time stamp with a frame, or counts on when it gets none. It submits the frame to a codec, and puts
what comes back into a container. Every backend is such a `Feed`, with a clock of its own.
-/

namespace MkvCodec.Backend

open Concurrency (Run)

/-! ## The counter -/

/-- The time of a frame that asks for `requested`, where `next` would be the next. -/
def selectPts (next : Nat) (requested : Int) : Nat := if 0 ≤ requested then requested.toNat else next

/-- The counter behind that frame; a frame lasts for `unit`. -/
def advance (unit next : Nat) (requested : Int) : Nat := max next (selectPts next requested + unit)

def counter (unit next : Nat) (requests : List Int) : Nat := requests.foldl (advance unit) next

/-- The times of the frames. -/
def usedPts (unit : Nat) : Nat → List Int → List Nat
  | _, [] => []
  | next, requested :: rest => selectPts next requested :: usedPts unit (advance unit next requested) rest

section

variable (unit next : Nat) (requests : List Int) (requested : Int)

@[simp] theorem counter_concat :
    counter unit next (requests ++ [requested]) = advance unit (counter unit next requests) requested := by
  simp [counter]

@[simp] theorem usedPts_concat :
    usedPts unit next (requests ++ [requested]) =
      usedPts unit next requests ++ [selectPts (counter unit next requests) requested] := by
  induction requests generalizing next with
  | nil => rfl
  | cons r rest ih => simp [usedPts, ih, counter]

end

theorem selectPts_next (n : Nat) : selectPts n (-1) = n := rfl

theorem advance_next (unit n : Nat) : advance unit n (-1) = n + unit := by
  rw [advance, selectPts_next]
  omega

/-! ## Feeds -/

/-- An encoder with states `S` that answers calls `O`. `accepts` are the calls that succeed; `encode` is what the codec
is given for a time, and `decode` what the container is given for it when it comes back. `step` is the law of one
call, as long as the counter does not overflow. -/
structure Feed (S O V : Type*) where
  accepts : S → O → S → Prop
  request : O → Option Int
  inv : S → Prop
  next : S → Int
  submitted : S → List V
  returned : S → List V
  timestamps : S → List Nat
  unit : Nat
  encode : Nat → V
  decode : V → Nat
  step : ∀ {s o s'} {n : Nat}, inv s → next s = n → (∀ r, request o = some r → selectPts n r + unit < 2 ^ 63) →
    accepts s o s' →
      inv s' ∧ next s' = ((request o).elim n (advance unit n) : Nat) ∧
        submitted s' = submitted s ++ (request o).elim [] (fun r => [encode (selectPts n r)]) ∧
        ∃ new, returned s' = returned s ++ new ∧ timestamps s' = timestamps s ++ new.map decode

namespace Feed

variable {S O V : Type*} (f : Feed S O V) {s s' : S} {ops : List O}

/-- What the calls of a run ask for. -/
def requests (ops : List O) : List Int := ops.filterMap f.request

theorem run (hrun : Run f.accepts s ops s') (hinv : f.inv s) {n : Nat} (hnext : f.next s = n)
    (hno : ∀ p ∈ usedPts f.unit n (f.requests ops), p + f.unit < 2 ^ 63) :
    f.inv s' ∧ f.next s' = counter f.unit n (f.requests ops) ∧
      f.submitted s' = f.submitted s ++ (usedPts f.unit n (f.requests ops)).map f.encode ∧
      ∃ new, f.returned s' = f.returned s ++ new ∧ f.timestamps s' = f.timestamps s ++ new.map f.decode := by
  induction hrun with
  | nil => exact ⟨hinv, hnext, by simp [requests, usedPts], [], by simp, by simp⟩
  | @snoc ops s₁ o s₂ _ hstep ih =>
      have hsplit : f.requests (ops ++ [o]) = f.requests ops ++ (f.request o).toList := by
        cases hr : f.request o <;> simp [requests, hr]
      rw [hsplit] at hno ⊢
      cases hr : f.request o with
      | none =>
          simp only [hr, Option.toList_none, List.append_nil] at hno ⊢
          obtain ⟨hinv₁, hnext₁, hsub₁, new₁, hret₁, hts₁⟩ := ih hno
          obtain ⟨hinv₂, hnext₂, hsub₂, new₂, hret₂, hts₂⟩ := f.step hinv₁ hnext₁ (by simp [hr]) hstep
          rw [hr] at hnext₂ hsub₂
          refine ⟨hinv₂, hnext₂, ?_, new₁ ++ new₂, ?_, ?_⟩
          · rw [hsub₂, hsub₁]
            simp
          · rw [hret₂, hret₁, List.append_assoc]
          · rw [hts₂, hts₁, List.map_append, List.append_assoc]
      | some r =>
          simp only [hr, Option.toList_some, usedPts_concat, counter_concat, List.mem_append, List.mem_singleton]
            at hno ⊢
          obtain ⟨hinv₁, hnext₁, hsub₁, new₁, hret₁, hts₁⟩ := ih fun p hp => hno p (.inl hp)
          have hlast := hno _ (.inr rfl)
          obtain ⟨hinv₂, hnext₂, hsub₂, new₂, hret₂, hts₂⟩ :=
            f.step hinv₁ hnext₁ (by rw [hr]; rintro _ ⟨⟩; exact hlast) hstep
          rw [hr] at hnext₂ hsub₂
          refine ⟨hinv₂, hnext₂, ?_, new₁ ++ new₂, ?_, ?_⟩
          · rw [hsub₂, hsub₁]
            simp
          · rw [hret₂, hret₁, List.append_assoc]
          · rw [hts₂, hts₁, List.map_append, List.append_assoc]

/-- When the codec has returned what it was given, behind values `late` that it still owed, the container has the times
of the frames behind those. -/
theorem timestamps_eq (hrun : Run f.accepts s ops s') (hinv : f.inv s) {n : Nat} (hnext : f.next s = n)
    (hno : ∀ p ∈ usedPts f.unit n (f.requests ops), p + f.unit < 2 ^ 63) {late taken : List V}
    (htaken : f.submitted s' = f.submitted s ++ taken) (hfifo : f.returned s' = f.returned s ++ (late ++ taken)) :
    f.timestamps s' =
      f.timestamps s ++ late.map f.decode ++
        (usedPts f.unit n (f.requests ops)).map fun p => f.decode (f.encode p) := by
  obtain ⟨-, -, hsub, new, hret, hts⟩ := f.run hrun hinv hnext hno
  rw [htaken] at hsub
  rw [hret] at hfifo
  rw [hts, List.append_cancel_left hfifo, List.append_cancel_left hsub]
  simp

end Feed

end MkvCodec.Backend
