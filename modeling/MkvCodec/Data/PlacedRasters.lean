import MkvCodec.Data.Block
import MkvCodec.Data.Raster
import MkvCodec.Data.RowMajor

/-!
# Rasters placed in a memory

A raster that is written to a memory has one block for each row, a stride apart. Rasters whose rows lie apart are all there
after they have been written, and nothing else has changed.
-/

namespace Block

variable {α ι : Type*} {address : ι → Int} {values : ι → List α} {items : List ι} {memory : Int → α} {a : Int}

theorem write_at {address : Int} {values : List α} {k : Nat} (d : α) (hk : k < values.length) :
    write memory address values (address + k) = values.getD k d := by
  have hdiff : (address + k - address).toNat = k := by omega
  rw [write, dif_pos ⟨by omega, by omega⟩, List.getD_eq_getElem _ _ hk]
  simp only [hdiff, List.get_eq_getElem]

theorem writeAll_outside (h : ∀ i ∈ items, ¬ (address i ≤ a ∧ a < address i + (values i).length)) :
    writeAll address values items memory a = memory a := by
  induction items generalizing memory with
  | nil => rfl
  | cons i items ih =>
      rw [writeAll, List.foldl_cons]
      refine (ih fun j hj => h j (List.mem_cons_of_mem _ hj)).trans ?_
      exact write_outside (h i List.mem_cons_self)

/-- Of blocks that lie apart each one is there in the end. -/
theorem writeAll_at {i : ι} {k : Nat} (d : α) (hi : i ∈ items) (hk : k < (values i).length)
    (hapart : ∀ j ∈ items, j ≠ i → Apart (address j) (values j).length (address i) (values i).length) :
    writeAll address values items memory (address i + k) = (values i).getD k d := by
  classical
  induction items generalizing memory with
  | nil => cases hi
  | cons j items ih =>
      rw [writeAll, List.foldl_cons]
      by_cases hmem : i ∈ items
      · exact ih hmem fun l hl => hapart l (List.mem_cons_of_mem _ hl)
      · obtain rfl : i = j := (List.mem_cons.mp hi).resolve_right hmem
        refine (writeAll_outside fun l hl => ?_).trans (write_at d hk)
        have hne : l ≠ i := by
          rintro rfl
          exact hmem hl
        have := hapart l (List.mem_cons_of_mem _ hl) hne
        unfold Apart at this
        omega

end Block

namespace Raster

variable {α : Type*}

/-- A raster with the address of its first pixel and the distance of its rows. -/
structure Placed (α : Type*) where
  address : Int
  stride : Int
  image : Raster α

namespace Placed

variable {images : List (Placed α)} {p q : Placed α} {memory : Int → α}

/-- The row that begins at an address. -/
def rowAddress (p : Placed α) (row : Nat) : Int := p.address + row * p.stride

def rowValues (p : Placed α) (row : Nat) : List α := (List.range p.image.width).map (p.image.pixel row)

@[simp] theorem length_rowValues (p : Placed α) (row : Nat) : (p.rowValues row).length = p.image.width := by
  rw [rowValues, List.length_map, List.length_range]

/-- The rasters written one after the other, row by row. -/
def writeAll (images : List (Placed α)) (memory : Int → α) : Int → α :=
  images.foldl (fun memory p => Block.writeAll p.rowAddress p.rowValues (List.range p.image.height) memory) memory

/-- No row of `p` reaches into a row of `q`. -/
def Apart (p q : Placed α) : Prop := ∀ i < p.image.height, ∀ j < q.image.height,
  Block.Apart (p.rowAddress i) p.image.width (q.rowAddress j) q.image.width

/-- `a` is the address of a pixel. -/
def Covers (p : Placed α) (a : Int) : Prop := ∃ row < p.image.height, p.rowAddress row ≤ a ∧ a < p.rowAddress row + p.image.width

/-- The rows of one raster lie apart when a row fits into the stride. -/
theorem rows_apart (h : (p.image.width : Int) ≤ p.stride) {i j : Nat} (hij : i ≠ j) :
    Block.Apart (p.rowAddress i) p.image.width (p.rowAddress j) p.image.width := by
  unfold Block.Apart rowAddress
  rcases Nat.lt_or_gt_of_ne hij with hlt | hlt
  · have hle : ((i : Int) + 1) * p.stride ≤ j * p.stride := Int.mul_le_mul_of_nonneg_right (by omega) (by omega)
    rw [Int.add_mul, Int.one_mul] at hle
    omega
  · have hle : ((j : Int) + 1) * p.stride ≤ i * p.stride := Int.mul_le_mul_of_nonneg_right (by omega) (by omega)
    rw [Int.add_mul, Int.one_mul] at hle
    omega

/-- All rows of all rasters, in the order in which they are written. -/
def rows (images : List (Placed α)) : List (Placed α × Nat) :=
  images.flatMap fun p => (List.range p.image.height).map fun row => (p, row)

theorem mem_rows {item : Placed α × Nat} : item ∈ rows images ↔ item.1 ∈ images ∧ item.2 < item.1.image.height := by
  obtain ⟨p, row⟩ := item
  simp only [rows, List.mem_flatMap, List.mem_map, List.mem_range, Prod.mk.injEq]
  constructor
  · rintro ⟨q, hq, r, hr, rfl, rfl⟩
    exact ⟨hq, hr⟩
  · rintro ⟨hp, hrow⟩
    exact ⟨p, hp, row, hrow, rfl, rfl⟩

theorem writeAll_eq (images : List (Placed α)) (memory : Int → α) : writeAll images memory =
    Block.writeAll (fun item : Placed α × Nat => item.1.rowAddress item.2) (fun item => item.1.rowValues item.2)
      (rows images) memory := by
  rw [rows, Block.writeAll_flatMap, writeAll]
  congr 1
  funext memory p
  rw [Block.writeAll, Block.writeAll, List.foldl_map]

theorem writeAll_outside {a : Int} (h : ∀ p ∈ images, ¬ p.Covers a) : writeAll images memory a = memory a := by
  rw [writeAll_eq]
  apply Block.writeAll_outside
  rintro ⟨p, row⟩ hitem ⟨hle, hlt⟩
  obtain ⟨hp, hrow⟩ := mem_rows.mp hitem
  rw [length_rowValues] at hlt
  exact h p hp ⟨row, hrow, hle, hlt⟩

/-- Every pixel is there in the end. -/
theorem writeAll_at {row column : Nat} (hp : p ∈ images) (hstride : ∀ q ∈ images, (q.image.width : Int) ≤ q.stride)
    (hapart : ∀ q ∈ images, ∀ r ∈ images, q ≠ r → q.Apart r) (hr : row < p.image.height) (hc : column < p.image.width) :
    writeAll images memory (p.rowAddress row + column) = p.image.pixel row column := by
  have hlength : column < (p.rowValues row).length := by rwa [length_rowValues]
  rw [writeAll_eq]
  refine (Block.writeAll_at (i := (p, row)) (p.image.pixel row column) (mem_rows.mpr ⟨hp, hr⟩) hlength ?_).trans ?_
  · rintro ⟨q, row'⟩ hitem hne
    obtain ⟨hq, hr'⟩ := mem_rows.mp hitem
    simp only [length_rowValues]
    by_cases hqp : q = p
    · subst hqp
      apply rows_apart (hstride q hq)
      rintro rfl
      exact hne rfl
    · exact hapart q hq p hp hqp row' hr' row hr
  · rw [List.getD_eq_getElem _ _ hlength]
    simp [rowValues]

end Placed

/-! ## Rasters with alternating columns -/

/-- The columns of `a` and `b` in turn. -/
def weave (a b : Raster α) : Raster α where
  width := 2 * a.width
  height := a.height
  pixel row column := if column % 2 = 0 then a.pixel row (column / 2) else b.pixel row (column / 2)

/-- Every other column, from column `first` on. -/
def everyOther (first : Nat) (a : Raster α) : Raster α where
  width := a.width / 2
  height := a.height
  pixel row column := a.pixel row (2 * column + first)

theorem everyOther_zero_weave (a b : Raster α) : everyOther 0 (weave a b) = a := by
  simp only [everyOther, weave, Nat.add_zero, Nat.mul_mod_right, if_true, Nat.mul_div_cancel_left _ Nat.two_pos]

theorem everyOther_one_weave (a b : Raster α) : everyOther 1 (weave a b) = ⟨a.width, a.height, b.pixel⟩ := by
  have hodd (column : Nat) : (2 * column + 1) % 2 = 1 ∧ (2 * column + 1) / 2 = column := by omega
  simp [everyOther, weave, hodd]

/-- The even and the odd columns of a raster make it up again. -/
theorem weave_everyOther (a : Raster α) : Agree (weave (everyOther 0 a) (everyOther 1 a)) ⟨2 * (a.width / 2), a.height, a.pixel⟩ where
  width := rfl
  height := rfl
  pixel row _ column _ := by
    simp only [weave, everyOther]
    split <;> congr 1 <;> omega

/-! ## Rasters as lists -/

/-- The pixels row by row. -/
def bytes (a : Raster α) : List α := RowMajor.store a.height a.width a.pixel

@[simp] theorem length_bytes (a : Raster α) : a.bytes.length = a.height * a.width := RowMajor.length_store _ _ _

theorem Agree.bytes {a b : Raster α} (h : Agree a b) : a.bytes = b.bytes := by
  rw [Raster.bytes, Raster.bytes, ← h.width, ← h.height]
  exact RowMajor.store_congr fun row hr column hc => h.pixel row hr column hc

theorem Agree.weave {a b a' b' : Raster α} (ha : Agree a a') (hb : Agree b b') (hwidth : b.width = a.width)
    (hheight : b.height = a.height) : Agree (weave a b) (weave a' b') where
  width := congrArg (2 * ·) ha.width
  height := ha.height
  pixel row hr column hc := by
    change column < 2 * a.width at hc
    change row < a.height at hr
    simp only [Raster.weave, ha.pixel row hr (column / 2) (by omega), hb.pixel row (by omega) (column / 2) (by omega)]

theorem Agree.everyOther {a a' : Raster α} (ha : Agree a a') {first : Nat} (hfirst : first < 2) :
    Agree (everyOther first a) (everyOther first a') where
  width := congrArg (· / 2) ha.width
  height := ha.height
  pixel row hr column hc := by
    change column < a.width / 2 at hc
    exact ha.pixel row hr (2 * column + first) (by omega)

/-- The raster of pixels that lie row by row in a list. -/
def ofList (width height : Nat) (pixels : List α) (d : α) : Raster α :=
  ⟨width, height, fun row column => pixels.getD (row * width + column) d⟩

theorem ofList_bytes (a : Raster α) (d : α) : Agree (ofList a.width a.height a.bytes d) a where
  width := rfl
  height := rfl
  pixel _ hr _ hc := RowMajor.store_getD a.pixel d hr hc

end Raster
