import Mathlib.Data.List.GetD

/-!
# Rasters

Rectangles of pixels, with the operations that permute them: cropping, turning and mirroring. Two rasters agree when they have
the same pixels; what is outside does not count.
-/

/-- `height` rows of `width` pixels, each given by its row and its column. -/
structure Raster (α : Type*) where
  width : Nat
  height : Nat
  pixel : Nat → Nat → α

namespace Raster

variable {α : Type*} {a b c : Raster α}

structure Agree (a b : Raster α) : Prop where
  width : a.width = b.width
  height : a.height = b.height
  pixel : ∀ row < a.height, ∀ column < a.width, a.pixel row column = b.pixel row column

theorem Agree.symm (h : Agree a b) : Agree b a where
  width := h.width.symm
  height := h.height.symm
  pixel row hr column hc := (h.pixel row (h.height ▸ hr) column (h.width ▸ hc)).symm

theorem Agree.trans (h : Agree a b) (h' : Agree b c) : Agree a c where
  width := h.width.trans h'.width
  height := h.height.trans h'.height
  pixel row hr column hc :=
    (h.pixel row hr column hc).trans (h'.pixel row (h.height ▸ hr) column (h.width ▸ hc))

/-! ## Operations -/

/-- The rectangle of `width` and `height` whose first pixel is in column `x` and row `y`. -/
def crop (x y width height : Nat) (a : Raster α) : Raster α := ⟨width, height, fun row column => a.pixel (y + row) (x + column)⟩

/-- A clockwise quarter turn. -/
def quarter (a : Raster α) : Raster α := ⟨a.height, a.width, fun row column => a.pixel (a.height - 1 - column) row⟩

/-- `n` clockwise quarter turns. -/
def turn : Nat → Raster α → Raster α
  | 0, a => a
  | n + 1, a => (turn n a).quarter

/-- Left and right exchanged. -/
def mirror (a : Raster α) : Raster α := ⟨a.width, a.height, fun row column => a.pixel row (a.width - 1 - column)⟩

/-- Top and bottom exchanged. -/
def flip (a : Raster α) : Raster α := ⟨a.width, a.height, fun row column => a.pixel (a.height - 1 - row) column⟩

theorem Agree.quarter (h : Agree a b) : Agree a.quarter b.quarter where
  width := h.height
  height := h.width
  pixel row hr column hc := by
    simp only [Raster.quarter] at hr hc ⊢
    rw [← h.height]
    exact h.pixel _ (by omega) _ hr

theorem Agree.turn (h : Agree a b) (n : Nat) : Agree (turn n a) (turn n b) := by
  induction n with
  | zero => exact h
  | succ n ih => exact ih.quarter

theorem Agree.mirror (h : Agree a b) : Agree a.mirror b.mirror where
  width := h.width
  height := h.height
  pixel row hr column hc := by
    simp only [Raster.mirror] at hr hc ⊢
    rw [← h.width]
    exact h.pixel _ hr _ (by omega)

theorem Agree.flip (h : Agree a b) : Agree a.flip b.flip where
  width := h.width
  height := h.height
  pixel row hr column hc := by
    simp only [Raster.flip] at hr hc ⊢
    rw [← h.height]
    exact h.pixel _ (by omega) _ hc

/-! ## Each of them can be undone -/

theorem mirror_mirror (a : Raster α) : Agree a.mirror.mirror a where
  width := rfl
  height := rfl
  pixel row hr column hc := by
    simp only [mirror] at hc ⊢
    congr 1
    omega

theorem flip_flip (a : Raster α) : Agree a.flip.flip a where
  width := rfl
  height := rfl
  pixel row hr column hc := by
    simp only [flip] at hr ⊢
    congr 1
    omega

/-- Four quarter turns go once around. -/
theorem turn_four (a : Raster α) : Agree (turn 4 a) a where
  width := rfl
  height := rfl
  pixel row hr column hc := by
    simp only [turn, quarter] at hr hc ⊢
    congr 1 <;> omega

theorem agree_of_mirror (h : Agree a.mirror b.mirror) : Agree a b :=
  (mirror_mirror a).symm.trans (h.mirror.trans (mirror_mirror b))

theorem agree_of_flip (h : Agree a.flip b.flip) : Agree a b :=
  (flip_flip a).symm.trans (h.flip.trans (flip_flip b))

theorem agree_of_quarter (h : Agree a.quarter b.quarter) : Agree a b :=
  (turn_four a).symm.trans (h.quarter.quarter.quarter.trans (turn_four b))

theorem agree_of_turn {n : Nat} (h : Agree (turn n a) (turn n b)) : Agree a b := by
  induction n with
  | zero => exact h
  | succ n ih => exact ih (agree_of_quarter h)

/-- A half turn and a mirror image make the picture upside down. -/
theorem mirror_half_turn (a : Raster α) : Agree (turn 2 a).mirror a.flip where
  width := rfl
  height := rfl
  pixel row hr column hc := by
    simp only [mirror, turn, quarter, flip] at hr hc ⊢
    congr 1
    omega

/-! ## Rasters in a buffer -/

/-- The buffer with a raster in the rows of `stride` entries from `base` on. -/
def writeTo (buffer : List α) (base stride : Nat) (image : Raster α) : List α :=
  buffer.mapIdx fun n old =>
    if base ≤ n ∧ (n - base) / stride < image.height ∧ (n - base) % stride < image.width then
      image.pixel ((n - base) / stride) ((n - base) % stride)
    else old

@[simp] theorem length_writeTo (buffer : List α) (base stride : Nat) (image : Raster α) :
    (writeTo buffer base stride image).length = buffer.length := by
  rw [writeTo, List.length_mapIdx]

/-- A pixel of the raster is where it was written. -/
theorem writeTo_inside {buffer : List α} {base stride row column : Nat} {image : Raster α} (d : α) (hr : row < image.height)
    (hc : column < image.width) (hstride : image.width ≤ stride) (hlength : base + row * stride + column < buffer.length) :
    (writeTo buffer base stride image).getD (base + row * stride + column) d = image.pixel row column := by
  have hpos : 0 < stride := by omega
  have hdiff : base + row * stride + column - base = stride * row + column := by rw [Nat.mul_comm]; omega
  have hdiv : (stride * row + column) / stride = row := by
    rw [Nat.mul_add_div hpos, Nat.div_eq_of_lt (by omega), Nat.add_zero]
  have hmod : (stride * row + column) % stride = column := by rw [Nat.mul_add_mod, Nat.mod_eq_of_lt (by omega)]
  rw [List.getD_eq_getElem _ _ (by simpa using hlength)]
  simp only [writeTo, List.getElem_mapIdx, hdiff, hdiv, hmod]
  rw [if_pos ⟨by omega, hr, hc⟩]

/-- What lies before or behind the rows of the raster is as it was. -/
theorem writeTo_outside {buffer : List α} {base stride n : Nat} {image : Raster α} (d : α)
    (hstride : image.width ≤ stride) (h : n < base ∨ base + image.height * stride ≤ n) :
    (writeTo buffer base stride image).getD n d = buffer.getD n d := by
  by_cases hlength : n < buffer.length
  · rw [List.getD_eq_getElem _ _ (by simpa using hlength), List.getD_eq_getElem _ _ hlength]
    simp only [writeTo, List.getElem_mapIdx]
    rw [if_neg]
    rintro ⟨hbase, hrow, hcolumn⟩
    rcases h with h | h
    · omega
    · rw [Nat.div_lt_iff_lt_mul (by omega)] at hrow
      omega
  · rw [List.getD_eq_default _ _ (by simpa using hlength), List.getD_eq_default _ _ (by omega)]

/-! ## One raster over another -/

/-- `top` over `a`, its first pixel in column `x` and row `y`. -/
def overlay (a : Raster α) (x y : Nat) (top : Raster α) : Raster α where
  width := a.width
  height := a.height
  pixel row column :=
    if y ≤ row ∧ row < y + top.height ∧ x ≤ column ∧ column < x + top.width then top.pixel (row - y) (column - x)
    else a.pixel row column

theorem Agree.overlay {top top' : Raster α} (h : Agree a b) (htop : Agree top top') (x y : Nat) :
    Agree (a.overlay x y top) (b.overlay x y top') where
  width := h.width
  height := h.height
  pixel row hr column hc := by
    simp only [Raster.overlay, ← htop.height, ← htop.width]
    split
    · exact htop.pixel _ (by omega) _ (by omega)
    · exact h.pixel row hr column hc

/-- What a raster does not reach is as it was. -/
theorem writeTo_other {buffer : List α} {base stride n : Nat} {image : Raster α} (d : α)
    (h : ∀ row < image.height, ∀ column < image.width, n ≠ base + row * stride + column) :
    (writeTo buffer base stride image).getD n d = buffer.getD n d := by
  by_cases hlength : n < buffer.length
  · rw [List.getD_eq_getElem _ _ (by simpa using hlength), List.getD_eq_getElem _ _ hlength]
    simp only [writeTo, List.getElem_mapIdx]
    rw [if_neg]
    rintro ⟨hbase, hrow, hcolumn⟩
    apply h _ hrow _ hcolumn
    have hdiv := Nat.div_add_mod (n - base) stride
    rw [Nat.mul_comm] at hdiv
    omega
  · rw [List.getD_eq_default _ _ (by simpa using hlength), List.getD_eq_default _ _ (by omega)]

/-- A raster written behind the first pixel of another one lies over it. -/
theorem writeTo_overlay {buffer : List α} {base stride x y row column : Nat} {image : Raster α} (d : α)
    (hright : x + image.width ≤ stride) (hc : column < stride) (hlength : base + row * stride + column < buffer.length) :
    (writeTo buffer (base + (y * stride + x)) stride image).getD (base + row * stride + column) d =
      (overlay ⟨stride, row + 1, fun row column => buffer.getD (base + row * stride + column) d⟩ x y image).pixel row column := by
  simp only [overlay]
  split
  case isTrue h =>
    obtain ⟨hy, hbottom, hx, hright'⟩ := h
    have hrow : row * stride = y * stride + (row - y) * stride := by rw [← Nat.add_mul, Nat.add_sub_cancel' hy]
    have hindex : base + row * stride + column = base + (y * stride + x) + (row - y) * stride + (column - x) := by omega
    rw [hindex] at hlength ⊢
    exact writeTo_inside d (by omega) (by omega) (by omega) hlength
  case isFalse h =>
    apply writeTo_other
    intro r hr c hcolumn heq
    -- both sides are the one row and column of that index
    have hsum : row * stride + column = (y + r) * stride + (x + c) := by
      rw [Nat.add_mul]
      omega
    have hpos : 0 < stride := by omega
    have hrow : row = y + r := by
      have hdiv := congrArg (· / stride) hsum
      simpa only [Nat.mul_comm _ stride, Nat.mul_add_div hpos, Nat.div_eq_of_lt hc,
        Nat.div_eq_of_lt (show x + c < stride by omega), Nat.add_zero] using hdiv
    subst hrow
    exact h ⟨by omega, by omega, by omega, by omega⟩

end Raster
