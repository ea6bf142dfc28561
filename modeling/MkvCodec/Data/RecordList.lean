import Mathlib.Data.List.Perm.Basic
import Mathlib.Data.List.Nodup

/-!
# Lists of records

What the first record with a property leaves behind when it is taken out of a list, and what a list is like in which
one element has been replaced.
-/

namespace RecordList

variable {α β : Type*} {p q : α → Bool} {a b : α} {l : List α} {i j : Nat}

/-! ## Taking a record out -/

/-- The record that is found stands behind others without the property, and is the one that is taken out. -/
theorem parts_of_find? (h : l.find? p = some a) :
    ∃ before after, l = before ++ a :: after ∧ l.eraseP p = before ++ after ∧ p a = true ∧ ∀ b ∈ before, p b = false := by
  obtain ⟨ha, before, after, rfl, hbefore⟩ := List.find?_eq_some_iff_append.mp h
  have hneg : ∀ b ∈ before, p b = false := fun b hb => by simpa using hbefore b hb
  refine ⟨before, after, rfl, ?_, ha, hneg⟩
  rw [List.eraseP_append_right _ fun b hb => by simp [hneg b hb], List.eraseP_cons_of_pos ha]

theorem perm_eraseP (h : l.find? p = some a) : l.Perm (a :: l.eraseP p) := by
  obtain ⟨before, after, hl, herase, -⟩ := parts_of_find? h
  rw [herase, hl]
  exact List.perm_middle

/-- It is the first of all records with the property. -/
theorem filter_eraseP (h : l.find? p = some a) : l.filter p = a :: (l.eraseP p).filter p := by
  obtain ⟨before, after, hl, herase, ha, hneg⟩ := parts_of_find? h
  have hnone : before.filter p = [] := List.filter_eq_nil_iff.mpr fun b hb => by simp [hneg b hb]
  rw [herase, hl, List.filter_append, List.filter_append, hnone, List.filter_cons_of_pos ha]
  rfl

/-- Records with another property stay. -/
theorem filter_eraseP_of_disjoint (h : l.find? p = some a) (ha : q a = false) :
    (l.eraseP p).filter q = l.filter q := by
  obtain ⟨before, after, hl, herase, -⟩ := parts_of_find? h
  rw [herase, hl, List.filter_append, List.filter_append, List.filter_cons_of_neg (by simp [ha])]

/-- Where a key tells the records apart, all but those with its key stay. -/
theorem eraseP_eq_filter [DecidableEq β] {f : α → β} (hnodup : (l.map f).Nodup) (h : l.find? p = some a) :
    l.eraseP p = l.filter fun b => decide (f b ≠ f a) := by
  obtain ⟨before, after, hl, herase, -⟩ := parts_of_find? h
  rw [hl, List.map_append, List.map_cons, List.nodup_middle, List.nodup_cons] at hnodup
  have hother : ∀ b ∈ before ++ after, decide (f b ≠ f a) = true := by
    intro b hb
    refine decide_eq_true fun heq => hnodup.1 ?_
    rw [← List.map_append, ← heq]
    exact List.mem_map_of_mem hb
  rw [herase, hl, List.filter_append, List.filter_cons_of_neg (by simp), ← List.filter_append,
    List.filter_eq_self.mpr hother]

/-! ## Replacing an element -/

/-- A look into the list. -/
theorem set_cases (h : (l.set i a)[j]? = some b) : i = j ∧ a = b ∨ i ≠ j ∧ l[j]? = some b := by
  rw [List.getElem?_set] at h
  split at h
  case isTrue heq =>
    split at h
    · exact .inl ⟨heq, Option.some.inj h⟩
    · cases h
  case isFalse hne => exact .inr ⟨hne, h⟩

theorem countP_set_add (p : α → Bool) (b : α) (h : l[i]? = some a) :
    (l.set i b).countP p + (if p a then 1 else 0) = l.countP p + (if p b then 1 else 0) := by
  obtain ⟨hi, rfl⟩ := List.getElem?_eq_some_iff.mp h
  have hle : (if p l[i] then 1 else 0) ≤ l.countP p := by
    split
    · exact List.countP_pos_iff.mpr ⟨_, List.getElem_mem hi, by assumption⟩
    · exact Nat.zero_le _
  rw [List.countP_set hi]
  omega

/-! ## Parts of the records -/

/-- When nothing occurs twice among the parts of all records, two records have none in common. -/
theorem disjoint_of_nodup_flatMap {f : α → List β} (h : (l.flatMap f).Nodup) (hi : l[i]? = some a) (hj : l[j]? = some b)
    (hne : i ≠ j) : (f a).Disjoint (f b) := by
  have hpairs := List.pairwise_iff_getElem.mp (List.nodup_flatMap.mp h).2
  obtain ⟨hilt, rfl⟩ := List.getElem?_eq_some_iff.mp hi
  obtain ⟨hjlt, rfl⟩ := List.getElem?_eq_some_iff.mp hj
  rcases Nat.lt_or_gt_of_ne hne with hlt | hlt
  · exact hpairs i j hilt hjlt hlt
  · exact fun x hx hx' => hpairs j i hjlt hilt hlt hx' hx

end RecordList
