import MkvCodec.Concurrency.History

/-!
# Resources that are created and destroyed

A history of creations and destructions, with the resources that their owner still holds. A resource may stand on others,
and is destroyed before those.
-/

namespace Resources

open Concurrency

inductive Event (R : Type*)
  | create (r : R)
  | destroy (r : R)
  deriving DecidableEq

variable {R : Type*} {on : R → R → Prop} {events earlier : List (Event R)} {owned owned' : List R} {r : R}

/-- A resource is created once, and destroyed once, when everything on it is gone. -/
def Allowed (on : R → R → Prop) (earlier : List (Event R)) : Event R → Prop
  | .create r => .create r ∉ earlier
  | .destroy r => .destroy r ∉ earlier ∧ .create r ∈ earlier ∧ ∀ r', on r' r → .create r' ∈ earlier → .destroy r' ∈ earlier

theorem Allowed.new {event : Event R} (h : Allowed on earlier event) : event ∉ earlier := by
  cases event with
  | create r => exact h
  | destroy r => exact h.1

/-- The resources that were created are those that are owned and those that are destroyed. -/
structure Holds (on : R → R → Prop) (events : List (Event R)) (owned : List R) : Prop where
  legal : Legal (Allowed on) events
  created_iff : ∀ r, .create r ∈ events ↔ r ∈ owned ∨ .destroy r ∈ events
  live : ∀ r ∈ owned, .destroy r ∉ events
  nodup : owned.Nodup

namespace Holds

theorem nil : Holds on [] [] := ⟨.nil, by simp, by simp, List.nodup_nil⟩

theorem perm (h : Holds on events owned) (hperm : owned.Perm owned') : Holds on events owned' :=
  ⟨h.legal, fun r => by rw [h.created_iff, hperm.mem_iff], fun r hr => h.live r (hperm.mem_iff.mpr hr),
    hperm.nodup_iff.mp h.nodup⟩

theorem create (h : Holds on events owned) (hnew : .create r ∉ events) : Holds on (.create r :: events) (r :: owned) := by
  have hout : r ∉ owned ∧ .destroy r ∉ events := not_or.mp (mt (h.created_iff r).mpr hnew)
  refine ⟨h.legal.cons hnew, fun r' => ?_, fun r' hr' => ?_, List.nodup_cons.mpr ⟨hout.1, h.nodup⟩⟩
  · simp only [List.mem_cons, Event.create.injEq, reduceCtorEq, false_or, h.created_iff, or_assoc]
  · simp only [List.mem_cons, reduceCtorEq, false_or]
    rcases List.mem_cons.mp hr' with rfl | hr'
    · exact hout.2
    · exact h.live r' hr'

theorem destroy (h : Holds on events (r :: owned)) (hon : ∀ r' ∈ owned, ¬ on r' r) (hirrefl : ¬ on r r) :
    Holds on (.destroy r :: events) owned := by
  have hnodup := List.nodup_cons.mp h.nodup
  have hallowed : Allowed on events (.destroy r) := by
    refine ⟨h.live r List.mem_cons_self, (h.created_iff r).mpr (.inl List.mem_cons_self), fun r' hr' hcreate => ?_⟩
    refine ((h.created_iff r').mp hcreate).resolve_left fun hmem => ?_
    rcases List.mem_cons.mp hmem with rfl | hmem
    · exact hirrefl hr'
    · exact hon r' hmem hr'
  refine ⟨h.legal.cons hallowed, fun r' => ?_, fun r' hr' => ?_, hnodup.2⟩
  · simp only [List.mem_cons, Event.destroy.injEq, reduceCtorEq, false_or, h.created_iff]
    exact or_right_comm.trans or_comm
  · simp only [List.mem_cons, Event.destroy.injEq, not_or]
    refine ⟨?_, h.live r' (List.mem_cons_of_mem _ hr')⟩
    rintro rfl
    exact hnodup.1 hr'

/-- The same for a resource that may be missing. -/
theorem destroyOption {o : Option R} (h : Holds on events (o.toList ++ owned)) (hon : ∀ r ∈ o, ∀ r' ∈ owned, ¬ on r' r)
    (hirrefl : ∀ r, ¬ on r r) : Holds on ((o.map .destroy).toList ++ events) owned := by
  cases o with
  | none => exact h
  | some r => exact h.destroy (hon r rfl) (hirrefl r)

/-- The same for a list of resources, in its order. -/
theorem destroyAll {rs : List R} (h : Holds on events (rs ++ owned)) (hlater : rs.Pairwise fun r r' => ¬ on r' r)
    (hon : ∀ r ∈ rs, ∀ r' ∈ owned, ¬ on r' r) (hirrefl : ∀ r, ¬ on r r) :
    Holds on ((rs.map .destroy).reverse ++ events) owned := by
  induction rs generalizing events with
  | nil => exact h
  | cons r rs ih =>
      obtain ⟨hr, hlater⟩ := List.pairwise_cons.mp hlater
      have hrest : ∀ r' ∈ rs ++ owned, ¬ on r' r := by
        intro r' hr'
        rcases List.mem_append.mp hr' with hr' | hr'
        · exact hr r' hr'
        · exact hon r List.mem_cons_self r' hr'
      have hone : Holds on (.destroy r :: events) (rs ++ owned) := h.destroy hrest (hirrefl r)
      simpa using ih hone hlater fun r' hr' => hon r' (List.mem_cons_of_mem r hr')

/-- What was created is owned, or was destroyed exactly once. -/
theorem owned_or_destroyed [DecidableEq R] (h : Holds on events owned) (hr : .create r ∈ events) :
    r ∈ owned ∧ events.count (.destroy r) = 0 ∨ r ∉ owned ∧ events.count (.destroy r) = 1 := by
  by_cases hmem : r ∈ owned
  · exact .inl ⟨hmem, List.count_eq_zero.mpr (h.live r hmem)⟩
  · have hdestroy := ((h.created_iff r).mp hr).resolve_left hmem
    exact .inr ⟨hmem, List.count_eq_one_of_mem (h.legal.nodup fun _ _ hallowed => hallowed.new) hdestroy⟩

end Holds

/-! ## Things made one after the other -/

section

variable {S ι α ε : Type*} {make : S → ι → S × α × Option ε} {s : S} {items : List ι}

/-- Each of `items` is made, up to the first that fails. What that one leaves is the last of the list. -/
def collect (make : S → ι → S × α × Option ε) (s : S) : List ι → S × List α × Option ε
  | [] => (s, [], none)
  | i :: items =>
      let first := make s i
      match first.2.2 with
      | some failure => (first.1, [first.2.1], some failure)
      | none =>
          let rest := collect make first.1 items
          (rest.1, first.2.1 :: rest.2.1, rest.2.2)

/-- What every step keeps of the things made so far holds of all that were made, whether or not the last one failed. -/
theorem collect_invariant (Inv : S → List α → Prop)
    (hstep : ∀ {s done} i, Inv s done → Inv (make s i).1 (done ++ [(make s i).2.1]))
    {done : List α} (h : Inv s done) : Inv (collect make s items).1 (done ++ (collect make s items).2.1) := by
  induction items generalizing s done with
  | nil => simpa [collect] using h
  | cons i items ih =>
      have hfirst := hstep i h
      simp only [collect]
      cases (make s i).2.2 with
      | some failure => exact hfirst
      | none =>
          have hrest := ih hfirst
          rwa [List.append_assoc] at hrest

theorem collect_done (h : (collect make s items).2.2 = none) :
    (collect make s items).2.1.length = items.length ∧
      ∀ {k : Nat} {i}, items[k]? = some i → ∃ t a, (collect make s items).2.1[k]? = some a ∧ (make t i).2 = (a, none) := by
  induction items generalizing s with
  | nil => simp [collect]
  | cons i items ih =>
      simp only [collect] at h ⊢
      cases hfailure : (make s i).2.2 with
      | some failure =>
          rw [hfailure] at h
          cases h
      | none =>
          rw [hfailure] at h
          obtain ⟨hlength, hmade⟩ := ih h
          refine ⟨congrArg (· + 1) hlength, fun {k j} hj => ?_⟩
          cases k with
          | zero =>
              obtain rfl : i = j := Option.some.inj hj
              exact ⟨s, _, rfl, Prod.ext rfl hfailure⟩
          | succ k => exact hmade hj

end

/-! ## Resources that lie apart -/

/-- A new resource lies apart from every one that is there. -/
def Fresh (apart : R → R → Prop) (earlier : List (Event R)) : Event R → Prop
  | .create r => ∀ r', .create r' ∈ earlier → .destroy r' ∉ earlier → apart r r'
  | .destroy _ => True

/-- Two resources that are there lie apart. -/
theorem live_apart {apart : R → R → Prop} (hsymm : ∀ r r', apart r r' → apart r' r) (h : Legal (Fresh apart) events) {r r' : R}
    (hr : .create r ∈ events) (hr' : .create r' ∈ events) (hlive : .destroy r ∉ events) (hlive' : .destroy r' ∉ events)
    (hne : r ≠ r') : apart r r' := by
  induction events with
  | nil => cases hr
  | cons event earlier ih =>
      obtain ⟨hevent, hearlier⟩ := h
      have hold := List.not_mem_of_not_mem_cons hlive
      have hold' := List.not_mem_of_not_mem_cons hlive'
      rcases List.mem_cons.mp hr with rfl | hin
      · rcases List.mem_cons.mp hr' with hsame | hin'
        · exact absurd (Event.create.inj hsame).symm hne
        · exact hevent r' hin' hold'
      · rcases List.mem_cons.mp hr' with rfl | hin'
        · exact hsymm r' r (hevent r hin hold)
        · exact ih hearlier hin hin' hold hold'

end Resources
