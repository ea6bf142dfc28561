import MkvCodec.Frame.Conversion

/-!
# Converting a frame in stripes

Where no offset overflows, the stripes of a packed conversion cut the rows of the frame into pieces, and converting them in any
order writes what one conversion of the whole frame writes.
-/

namespace MkvCodec

variable {layout : PackedLayout} {rows height width bytesPerPixel : Nat} {kernel : RowKernel bytesPerPixel}

/-! ## Offsets -/

theorem int_of_fits {x : Int} (h : FitsInt x) : int x = some x := if_pos h

theorem fits_of_int {x y : Int} (h : int x = some y) : FitsInt x ∧ x = y := by
  unfold int at h
  split at h
  case isTrue hfits => exact ⟨hfits, Option.some.inj h⟩
  case isFalse => cases h

theorem FitsInt.mul_le {a b : Nat} {stride : Int} (hle : a ≤ b) (h : FitsInt (b * stride)) : FitsInt (a * stride) := by
  unfold FitsInt at h ⊢
  rcases Int.le_total 0 stride with hs | hs
  · have hmul : (a : Int) * stride ≤ b * stride := Int.mul_le_mul_of_nonneg_right (by omega) hs
    have hpos : 0 ≤ (a : Int) * stride := Int.mul_nonneg (by omega) hs
    omega
  · have hmul : (b : Int) * stride ≤ a * stride := Int.mul_le_mul_of_nonpos_right (by omega) hs
    have hneg : (a : Int) * stride ≤ 0 := Int.mul_nonpos_of_nonneg_of_nonpos (by omega) hs
    omega

/-- What is computed for the stripe at `row`, and for the row behind it, fits an `int`. -/
structure PackedLayout.Room (layout : PackedLayout) (rows row : Nat) : Prop where
  y : FitsInt (row * layout.yStride)
  u : FitsInt ((row / 2 : Nat) * layout.uStride)
  v : FitsInt ((row / 2 : Nat) * layout.vStride)
  destination : FitsInt (row * layout.destinationStride)
  next : FitsInt (row + rows)

theorem PackedLayout.Room.of_le {row row' : Nat} (h : layout.Room rows row') (hle : row ≤ row') : layout.Room rows row where
  y := h.y.mul_le hle
  u := h.u.mul_le (Nat.div_le_div_right hle)
  v := h.v.mul_le (Nat.div_le_div_right hle)
  destination := h.destination.mul_le hle
  next := by
    have := h.next
    unfold FitsInt at this ⊢
    omega

/-- The stripe of `height` rows from `row` on, by its addresses. -/
def PackedLayout.placed (layout : PackedLayout) (row height : Nat) : Stripe where
  row := row
  height := height
  y := layout.y + row * layout.yStride
  u := layout.u + (row / 2 : Nat) * layout.uStride
  v := layout.v + (row / 2 : Nat) * layout.vStride
  destination := layout.destination + row * layout.destinationStride

theorem PackedLayout.whole_eq_placed (layout : PackedLayout) (height : Nat) : layout.whole height = layout.placed 0 height := by
  simp [whole, placed]

theorem PackedLayout.Room.stripe {row : Nat} (h : layout.Room rows row) (n : Nat) :
    layout.stripe row n = some (layout.placed row n) := by
  rw [PackedLayout.stripe, int_of_fits h.y, int_of_fits h.u, int_of_fits h.v, int_of_fits h.destination]
  rfl

theorem room_of_stripe {row n : Nat} {s : Stripe} {next : Int} (h : layout.stripe row n = some s)
    (hnext : int (row + rows) = some next) : layout.Room rows row := by
  simp only [PackedLayout.stripe, Option.bind_eq_bind, Option.bind_eq_some_iff] at h
  obtain ⟨y, hy, u, hu, v, hv, d, hd, -⟩ := h
  exact ⟨(fits_of_int hy).1, (fits_of_int hu).1, (fits_of_int hv).1, (fits_of_int hd).1, (fits_of_int hnext).1⟩

/-! ## The loop -/

/-- The rows of a stripe. -/
def Stripe.span (s : Stripe) : List Nat := List.range' s.row s.height

/-- The stripes from `row` on are those that the loop should submit. -/
structure Cut (layout : PackedLayout) (height row : Nat) (stripes : List Stripe) : Prop where
  partition : stripes.flatMap Stripe.span = List.range' row (height - row)
  aligned : ∀ s ∈ stripes, s.row % 2 = 0
  placed : ∀ s ∈ stripes, s = layout.placed s.row s.height

theorem Cut.nil (layout : PackedLayout) {row : Nat} (h : height ≤ row) : Cut layout height row [] where
  partition := by rw [Nat.sub_eq_zero_of_le h, List.range'_zero, List.flatMap_nil]
  aligned := by simp
  placed := by simp

theorem Cut.cons {row : Nat} {stripes : List Stripe} (hrow : row % 2 = 0) (h : Cut layout height (row + rows) stripes) :
    Cut layout height row (layout.placed row (min rows (height - row)) :: stripes) where
  partition := by
    rw [List.flatMap_cons, h.partition]
    show List.range' row (min rows (height - row)) ++ _ = _
    rcases Nat.le_total rows (height - row) with hle | hle
    · rw [Nat.min_eq_left hle, List.range'_append_1]
      congr 1
      omega
    · rw [Nat.min_eq_right hle, Nat.sub_eq_zero_of_le (show height ≤ row + rows by omega), List.range'_zero, List.append_nil]
  aligned := by
    intro s hs
    rcases List.mem_cons.mp hs with rfl | hs
    · exact hrow
    · exact h.aligned s hs
  placed := by
    intro s hs
    rcases List.mem_cons.mp hs with rfl | hs
    · rfl
    · exact h.placed s hs

/-- The loop gets to its end when there is room for each stripe, and its stripes cut the rows. -/
theorem submitted_of_room {fuel row : Nat} (hrows : 0 < rows) (heven : rows % 2 = 0) (hrow : row % 2 = 0)
    (hfuel : height - row ≤ fuel) (hroom : ∀ k, row + k * rows < height → layout.Room rows (row + k * rows)) :
    ∃ stripes, submitted layout rows height fuel row = some stripes ∧ Cut layout height row stripes := by
  induction fuel generalizing row with
  | zero =>
      have hend : ¬ row < height := by omega
      exact ⟨[], by rw [submitted, if_neg hend], .nil layout (by omega)⟩
  | succ fuel ih =>
      rw [submitted]
      by_cases hlt : row < height
      · have hhere : layout.Room rows row := by simpa using hroom 0 (by omega)
        have hrest : ∀ k, row + rows + k * rows < height → layout.Room rows (row + rows + k * rows) := by
          intro k hk
          have hnext : row + (k + 1) * rows = row + rows + k * rows := by rw [Nat.succ_mul]; omega
          rw [← hnext] at hk ⊢
          exact hroom (k + 1) hk
        obtain ⟨stripes, hs, hcut⟩ := ih (by omega) (by omega) hrest
        refine ⟨_, ?_, hcut.cons hrow⟩
        rw [if_pos hlt, hhere.stripe, int_of_fits hhere.next, hs]
        rfl
      · exact ⟨[], by rw [if_neg hlt], .nil layout (by omega)⟩

theorem room_of_submitted {fuel row : Nat} {stripes : List Stripe} (h : submitted layout rows height fuel row = some stripes) :
    ∀ k, row + k * rows < height → layout.Room rows (row + k * rows) := by
  induction fuel generalizing row stripes with
  | zero =>
      intro k hk
      rw [submitted, if_pos (show row < height by omega)] at h
      cases h
  | succ fuel ih =>
      intro k hk
      rw [submitted, if_pos (show row < height by omega)] at h
      simp only [Option.bind_eq_bind, Option.bind_eq_some_iff] at h
      obtain ⟨s, hs, next, hnext, rest, hrest, -⟩ := h
      cases k with
      | zero => simpa using room_of_stripe hs hnext
      | succ k =>
          have hnext : row + (k + 1) * rows = row + rows + k * rows := by rw [Nat.succ_mul]; omega
          rw [hnext] at hk ⊢
          exact ih hrest k hk

/-- There is room for all submitted stripes when there is for the last. -/
theorem room_iff_last (hrows : 0 < rows) : (∀ k, rows + k * rows < height → layout.Room rows (rows + k * rows)) ↔
    (rows < height → layout.Room rows ((height - 1) / rows * rows)) := by
  have hle : (height - 1) / rows * rows ≤ height - 1 := Nat.div_mul_le_self _ _
  constructor
  · intro h hlt
    have hone : 0 < (height - 1) / rows := Nat.div_pos (by omega) hrows
    have hlast : rows + ((height - 1) / rows - 1) * rows = (height - 1) / rows * rows := by
      rw [Nat.add_comm, ← Nat.succ_mul, Nat.succ_eq_add_one, Nat.sub_add_cancel hone]
    rw [← hlast]
    exact h _ (by omega)
  · intro h k hk
    refine (h (by omega)).of_le ?_
    have hmul : rows + k * rows = (k + 1) * rows := by rw [Nat.succ_mul]; omega
    rw [hmul] at hk ⊢
    exact Nat.mul_le_mul_right _ ((Nat.le_div_iff_mul_le hrows).mpr (by omega))

/-! ## What the stripes write -/

/-- The stripes of `order`, converted one after the other. -/
def convertAll {bytesPerPixel : Nat} (kernel : RowKernel bytesPerPixel) (layout : PackedLayout) (width : Nat)
    (source : Int → UInt8) (order : List Stripe) (memory : Int → UInt8) : Int → UInt8 :=
  order.foldl (fun memory s => s.convert kernel layout width source memory) memory

/-- Row `r` of the frame, where the destination has it. -/
def PackedLayout.rowAddress (layout : PackedLayout) (r : Nat) : Int := layout.destination + r * layout.destinationStride

theorem row_offset (a b : Nat) (stride : Int) : ((a + b : Nat) : Int) * stride = a * stride + b * stride := by
  rw [Int.natCast_add, Int.add_mul]

/-- A stripe that begins on a chroma row reads and writes the rows of the frame that it spans. -/
theorem placed_row (kernel : RowKernel bytesPerPixel) (layout : PackedLayout) (width height n : Nat) {row : Nat}
    (heven : row % 2 = 0) (source : Int → UInt8) (r : Nat) :
    (layout.placed row n).destination + r * layout.destinationStride = layout.rowAddress (row + r) ∧
      (layout.placed row n).rowBytes kernel layout width source r =
        (layout.whole height).rowBytes kernel layout width source (row + r) := by
  have hchroma : (row + r) / 2 = row / 2 + r / 2 := by omega
  constructor
  · simp only [PackedLayout.placed, PackedLayout.rowAddress, row_offset, Int.add_assoc]
  · simp only [Stripe.rowBytes, PackedLayout.placed, PackedLayout.whole, hchroma, row_offset, Int.add_assoc]

theorem convert_placed (kernel : RowKernel bytesPerPixel) (layout : PackedLayout) (width height n : Nat) {row : Nat}
    (heven : row % 2 = 0) (source memory : Int → UInt8) :
    (layout.placed row n).convert kernel layout width source memory =
      Block.writeAll layout.rowAddress ((layout.whole height).rowBytes kernel layout width source)
        (layout.placed row n).span memory := by
  unfold Stripe.convert Stripe.span Block.writeAll
  rw [List.range'_eq_map_range, List.foldl_map]
  refine List.foldl_ext _ _ _ fun memory r _ => ?_
  have hrow := placed_row kernel layout width height n heven source r
  show Block.write memory ((layout.placed row n).destination + r * layout.destinationStride) _ = Block.write memory (layout.rowAddress (row + r)) _
  rw [hrow.1, hrow.2]
  rfl

theorem rows_apart (hstride : (width * bytesPerPixel : Nat) ≤ layout.destinationStride) {i j : Nat} (hij : i ≠ j)
    (source : Int → UInt8) (s : Stripe) :
    Block.Apart (layout.rowAddress i) (s.rowBytes kernel layout width source i).length (layout.rowAddress j)
      (s.rowBytes kernel layout width source j).length := by
  unfold Block.Apart PackedLayout.rowAddress Stripe.rowBytes
  rw [kernel.length_row, kernel.length_row]
  have hlt : ∀ a b : Nat, a < b → a * layout.destinationStride + layout.destinationStride ≤ b * layout.destinationStride := by
    intro a b hab
    have hmul : ((a + 1 : Nat) : Int) * layout.destinationStride ≤ b * layout.destinationStride :=
      Int.mul_le_mul_of_nonneg_right (by omega) (by omega)
    rw [row_offset, Int.natCast_one, Int.one_mul] at hmul
    exact hmul
  rcases Nat.lt_or_gt_of_ne hij with h | h
  · have := hlt i j h
    omega
  · have := hlt j i h
    omega

/-- Stripes that cut the frame write it in whatever order they are converted. -/
theorem Cut.same {stripes order : List Stripe} (h : Cut layout height 0 stripes)
    (hstride : (width * bytesPerPixel : Nat) ≤ layout.destinationStride) (hperm : order.Perm stripes)
    (source memory : Int → UInt8) : convertAll kernel layout width source order memory =
      (layout.whole height).convert kernel layout width source memory := by
  have hwhole := convert_placed kernel layout width height height (show 0 % 2 = 0 from rfl) source memory
  have hstripes : ∀ s ∈ order, ∀ memory, s.convert kernel layout width source memory =
      Block.writeAll layout.rowAddress ((layout.whole height).rowBytes kernel layout width source) s.span memory := by
    intro s hs memory
    have hmem := hperm.mem_iff.mp hs
    rw [h.placed s hmem]
    exact convert_placed kernel layout width height s.height (h.aligned s hmem) source memory
  have hspan : (order.flatMap Stripe.span).Perm (List.range' 0 height) := by
    have hpartition := h.partition
    rw [Nat.sub_zero] at hpartition
    rw [← hpartition]
    exact hperm.flatMap_right _
  calc convertAll kernel layout width source order memory
      = order.foldl (fun memory s => Block.writeAll layout.rowAddress ((layout.whole height).rowBytes kernel layout width source)
          s.span memory) memory := List.foldl_ext _ _ _ fun memory s hs => hstripes s hs memory
    _ = Block.writeAll layout.rowAddress ((layout.whole height).rowBytes kernel layout width source) (order.flatMap Stripe.span) memory :=
        (Block.writeAll_flatMap _ _ _ _ _).symm
    _ = Block.writeAll layout.rowAddress ((layout.whole height).rowBytes kernel layout width source) (List.range' 0 height) memory :=
        Block.writeAll_perm hspan (fun i _ j _ hij => rows_apart hstride hij source _) memory
    _ = (layout.whole height).convert kernel layout width source memory := by
        rw [layout.whole_eq_placed, hwhole, ← layout.whole_eq_placed]
        rfl

/-! ## The conversion -/

/-- The stripes of a conversion are right: they cut the rows of the frame, each begins on a chroma row, and converted in whatever
order they write what one conversion of the whole frame writes. -/
structure Faithful {bytesPerPixel : Nat} (kernel : RowKernel bytesPerPixel) (layout : PackedLayout) (width height : Nat)
    (stripes : List Stripe) : Prop where
  partition : stripes.flatMap Stripe.span = List.range height
  aligned : ∀ s ∈ stripes, s.row % 2 = 0
  same : ∀ order, order.Perm stripes → ∀ source memory, convertAll kernel layout width source order memory =
    (layout.whole height).convert kernel layout width source memory

theorem Cut.faithful {stripes : List Stripe} (h : Cut layout height 0 stripes)
    (hstride : (width * bytesPerPixel : Nat) ≤ layout.destinationStride) : Faithful kernel layout width height stripes where
  partition := by rw [h.partition, Nat.sub_zero, List.range_eq_range']
  aligned := h.aligned
  same _ hperm := h.same hstride hperm

/-- No `int` of the conversion overflows: neither the stride of the scratch rows, nor the row count of a worker, nor an offset of
the last stripe. -/
structure NoOverflow (highway : Bool) (format : PackedFormat) (layout : PackedLayout) (width height workers : Nat) : Prop where
  scratch : highway = true ∧ format ≠ .bgra32 → FitsInt (width * 4)
  count : workers ≠ 1 → FitsInt (height + workers)
  last : workers ≠ 1 → rowsPerWorker height workers < height →
    layout.Room (rowsPerWorker height workers) ((height - 1) / rowsPerWorker height workers * rowsPerWorker height workers)

theorem rowsPerWorker_even (height workers : Nat) : rowsPerWorker height workers % 2 = 0 := Nat.mul_mod_left _ _

theorem rowsPerWorker_pos {height workers : Nat} (hworkers : 1 ≤ workers) (hheight : 0 < height) :
    0 < rowsPerWorker height workers := by
  have hone : 1 ≤ (height + workers - 1) / workers := (Nat.le_div_iff_mul_le hworkers).mpr (by omega)
  unfold rowsPerWorker
  omega

theorem scratchStride_isSome {highway : Bool} {format : PackedFormat} (h : highway = true ∧ format ≠ .bgra32 → FitsInt (width * 4)) :
    ∃ stride, scratchStride highway format width = some stride := by
  unfold scratchStride
  by_cases hscratch : highway = true ∧ format ≠ .bgra32
  · exact ⟨_, by rw [if_pos hscratch, int_of_fits (h hscratch)]⟩
  · exact ⟨_, if_neg hscratch⟩

theorem fits_of_scratchStride {highway : Bool} {format : PackedFormat} {stride : Int}
    (h : scratchStride highway format width = some stride) (hscratch : highway = true ∧ format ≠ .bgra32) : FitsInt (width * 4) := by
  rw [scratchStride, if_pos hscratch] at h
  exact (fits_of_int h).1

/-- Without an overflow the conversion cuts the frame. -/
theorem convertI420Packed_cut {highway : Bool} {format : PackedFormat} {workers : Nat} (hworkers : 1 ≤ workers)
    (h : NoOverflow highway format layout width height workers) :
    ∃ stripes, convertI420Packed highway format layout width height workers = some stripes ∧ Cut layout height 0 stripes := by
  obtain ⟨stride, hscratch⟩ := scratchStride_isSome h.scratch
  rw [convertI420Packed, hscratch]
  have hcut : ∀ n rest, Cut layout height (0 + n) rest → Cut layout height 0 (layout.whole (min n height) :: rest) := by
    intro n rest hrest
    rw [layout.whole_eq_placed]
    exact hrest.cons rfl
  by_cases hone : workers = 1
  · refine ⟨[layout.whole height], by simp [hone], ?_⟩
    have := hcut height [] (.nil layout (by omega))
    rwa [Nat.min_self] at this
  · generalize hn : rowsPerWorker height workers = n
    have hroom : ∃ stripes, submitted layout n height height n = some stripes ∧ Cut layout height n stripes := by
      have heven : n % 2 = 0 := hn ▸ rowsPerWorker_even height workers
      rcases Nat.eq_zero_or_pos height with rfl | hheight
      · exact ⟨[], rfl, .nil layout (by omega)⟩
      · have hpos : 0 < n := hn ▸ rowsPerWorker_pos hworkers hheight
        have hlast := h.last hone
        rw [hn] at hlast
        exact submitted_of_room hpos heven heven (by omega) ((room_iff_last hpos).mpr hlast)
    obtain ⟨stripes, hs, hrest⟩ := hroom
    refine ⟨layout.whole (min n height) :: stripes, ?_, hcut n stripes (by rwa [Nat.zero_add])⟩
    simp [hone, int_of_fits (h.count hone), hs]

theorem noOverflow_of_some {highway : Bool} {format : PackedFormat} {workers : Nat} {stripes : List Stripe} (hworkers : 1 ≤ workers)
    (h : convertI420Packed highway format layout width height workers = some stripes) :
    NoOverflow highway format layout width height workers := by
  simp only [convertI420Packed, Option.bind_eq_bind, Option.bind_eq_some_iff] at h
  obtain ⟨stride, hscratch, h⟩ := h
  refine ⟨fits_of_scratchStride hscratch, fun hone => ?_, fun hone hlt => ?_⟩
  all_goals
    rw [if_neg hone] at h
    simp only [Option.bind_eq_some_iff] at h
    obtain ⟨sum, hsum, rest, hrest, -⟩ := h
  · exact (fits_of_int hsum).1
  · have hpos : 0 < rowsPerWorker height workers := rowsPerWorker_pos hworkers (by omega)
    exact (room_iff_last hpos).mp (room_of_submitted hrest) hlt

/-- The stripes of a conversion are right if and only if no `int` overflows. -/
theorem convertI420Packed_iff (libyuv : PackedConverters) (highway : Bool) (format : PackedFormat) (layout : PackedLayout)
    (width height workers : Nat) (hworkers : 1 ≤ workers)
    (hstride : (width * format.bytesPerPixel : Nat) ≤ layout.destinationStride) :
    (∃ stripes, convertI420Packed highway format layout width height workers = some stripes ∧
      Faithful (libyuv.kernel highway format) layout width height stripes) ↔
      NoOverflow highway format layout width height workers := by
  constructor
  · rintro ⟨stripes, hs, -⟩
    exact noOverflow_of_some hworkers hs
  · intro h
    obtain ⟨stripes, hs, hcut⟩ := convertI420Packed_cut hworkers h
    exact ⟨stripes, hs, hcut.faithful hstride⟩

/-- A tightly packed frame. -/
def tightLayout (width height bytesPerPixel : Nat) : PackedLayout where
  y := 0
  yStride := width
  u := width * height
  uStride := (width / 2 : Nat)
  v := width * height + (width / 2 * (height / 2) : Nat)
  vStride := (width / 2 : Nat)
  destination := 0
  destinationStride := width * bytesPerPixel

/-- Converters that repeat the Y byte in each channel. -/
def grayConverters : PackedConverters where
  i420ToRgb24 := ⟨fun width y _ _ => (List.range (width * 3)).map fun i => y (i / 3), by simp⟩
  i420ToRaw := ⟨fun width y _ _ => (List.range (width * 3)).map fun i => y (i / 3), by simp⟩
  i420ToArgb := ⟨fun width y _ _ => (List.range (width * 4)).map fun i => y (i / 4), by simp⟩
  i420ToAbgr := ⟨fun width y _ _ => (List.range (width * 4)).map fun i => y (i / 4), by simp⟩

/-- A frame of 722 rows in four stripes, the last of which is shorter than the others. -/
theorem convertI420Packed_small : rowsPerWorker 722 4 = 182 ∧
    ∃ stripes, convertI420Packed true .bgr24 (tightLayout 1280 722 3) 1280 722 4 = some stripes ∧
      Faithful (grayConverters.kernel true .bgr24) (tightLayout 1280 722 3) 1280 722 stripes := by
  refine ⟨by decide, (convertI420Packed_iff grayConverters true .bgr24 (tightLayout 1280 722 3) 1280 722 4 (by decide)
    (by decide)).mpr ⟨by decide, by decide, fun _ _ => ⟨?_, ?_, ?_, ?_, ?_⟩⟩⟩ <;> decide

/-- The last of four stripes of a frame of 32768 rows with 98304 bytes begins 2415919104 bytes behind the first. -/
theorem offset_overflows : workerCount 32768 32768 0 4 = 4 ∧
    convertI420Packed false .bgr24 (tightLayout 32768 32768 3) 32768 32768 4 = none ∧
    ¬ ∃ stripes, convertI420Packed false .bgr24 (tightLayout 32768 32768 3) 32768 32768 4 = some stripes ∧
      Faithful (grayConverters.kernel false .bgr24) (tightLayout 32768 32768 3) 32768 32768 stripes := by
  have hnone : convertI420Packed false .bgr24 (tightLayout 32768 32768 3) 32768 32768 4 = none := by decide
  refine ⟨by decide, hnone, ?_⟩
  rintro ⟨stripes, hs, -⟩
  rw [hnone] at hs
  cases hs

/-- A copy that reports success has converted the frame, whatever number of threads it was asked to use. -/
theorem copyPackedFrame_faithful (libyuv : PackedConverters) {highway : Bool} {source : Decoder.DecodedFrame} {pixels : Int}
    {destination after : PackedView} {threads hardwareThreads : Nat} {result : Int} {status : Status} {stripes : List Stripe}
    (h : copyPackedFrame highway source pixels destination threads hardwareThreads result = some (status, after, stripes))
    (hok : status.result = .ok) : after = { destination with pts := source.ptsNs } ∧
      ∃ plane, destination.plane = some plane ∧
        Faithful (libyuv.kernel highway destination.format) (DecodedFrame.packedLayout source pixels plane destination.stride)
          source.width source.height stripes := by
  unfold copyPackedFrame at h
  split at h
  · cases h
    cases hok
  cases hplane : destination.plane with
  | none =>
      rw [hplane] at h
      cases h
      cases hok
  | some plane =>
      rw [hplane] at h
      simp only [Option.bind_eq_bind, Option.bind_eq_some_iff] at h
      obtain ⟨rowBytes, hrow, h⟩ := h
      split at h
      · cases h
        cases hok
      rename_i hstride
      simp only [Option.bind_eq_some_iff] at h
      obtain ⟨cut, hcut, h⟩ := h
      split at h
      · cases h
        cases hok
      cases h
      refine ⟨rfl, plane, rfl, ?_⟩
      have hworkers := (workerCount_bounds source.width source.height threads hardwareThreads).1
      obtain ⟨stripes', hs', hcut'⟩ := convertI420Packed_cut hworkers (noOverflow_of_some hworkers hcut)
      obtain rfl : stripes' = stripes := Option.some.inj (hs'.symm.trans hcut)
      refine hcut'.faithful ?_
      have hle : rowBytes ≤ destination.stride := by omega
      rw [← (fits_of_int hrow).2] at hle
      simpa only [DecodedFrame.packedLayout, Int.natCast_mul] using hle

end MkvCodec
