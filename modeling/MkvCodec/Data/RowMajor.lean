import Mathlib.Data.List.GetD

/-!
# Row-major storage

A table of `rows` rows with `cols` entries each, laid out in one list without gaps.
-/

namespace RowMajor

variable {α : Type*}

def store (rows cols : Nat) (entry : Nat → Nat → α) : List α :=
  (List.range rows).flatMap fun row => (List.range cols).map (entry row)

theorem store_succ (rows cols : Nat) (entry : Nat → Nat → α) :
    store (rows + 1) cols entry = store rows cols entry ++ (List.range cols).map (entry rows) := by
  simp [store, List.range_succ, List.flatMap_append]

@[simp] theorem length_store (rows cols : Nat) (entry : Nat → Nat → α) :
    (store rows cols entry).length = rows * cols := by
  induction rows with
  | zero => simp [store]
  | succ rows ih => simp [store_succ, ih, Nat.add_mul]

theorem store_getD {rows cols row col : Nat} (entry : Nat → Nat → α) (d : α) (hr : row < rows)
    (hc : col < cols) : (store rows cols entry).getD (row * cols + col) d = entry row col := by
  induction rows with
  | zero => omega
  | succ rows ih =>
      rw [store_succ]
      by_cases hlt : row < rows
      · have hpos : row * cols + col < (store rows cols entry).length := by
          have : (row + 1) * cols ≤ rows * cols := Nat.mul_le_mul_right _ hlt
          rw [length_store]; rw [Nat.add_mul] at this; omega
        rw [List.getD_append _ _ _ _ hpos]
        exact ih hlt
      · obtain rfl : row = rows := by omega
        rw [List.getD_append_right _ _ _ _ (by simp)]
        simp [hc]

theorem store_congr {rows cols : Nat} {f g : Nat → Nat → α}
    (h : ∀ row < rows, ∀ col < cols, f row col = g row col) : store rows cols f = store rows cols g := by
  induction rows with
  | zero => rfl
  | succ rows ih =>
      rw [store_succ, store_succ, ih fun row hr => h row (by omega)]
      congr 1
      exact List.map_congr_left fun col hc => h rows (by omega) col (List.mem_range.mp hc)

/-- The entries in one row after the other are those in the order of their positions. -/
theorem store_linear (rows cols : Nat) (entry : Nat → α) :
    store rows cols (fun row col => entry (row * cols + col)) = (List.range (rows * cols)).map entry := by
  induction rows with
  | zero => simp [store]
  | succ rows ih => simp [store_succ, ih, Nat.succ_mul, List.range_add, Function.comp_def]

theorem store_map {β : Type*} (f : α → β) (rows cols : Nat) (entry : Nat → Nat → α) :
    (store rows cols entry).map f = store rows cols fun row col => f (entry row col) := by
  simp [store, List.map_flatMap, Function.comp_def]

theorem store_eq_nil {rows cols : Nat} (entry : Nat → Nat → α) :
    store rows cols entry = [] ↔ rows * cols = 0 := by
  rw [← List.length_eq_zero_iff, length_store]

end RowMajor
