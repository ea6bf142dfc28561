import MkvCodec.Data.Stores
import MkvCodec.Frame.Conversion

/-!
# Packing four bytes into three

`PackFourToThree` of `packed_pixel_conversion.cpp`, with the vector operations of Highway for any number of lanes. A pointer
is a `UInt64`, and the two buffers are separate memories. A width is a count of pixels that fits an `int`, and sums of a
column and a number of lanes do not leave `size_t`.
-/

namespace MkvCodec

/-! ## Model -/

abbrev Memory := UInt64 → UInt8

/-- The address of a byte behind a pointer. -/
def byteAddress (pointer : UInt64) (offset : Nat) : UInt64 := pointer + UInt64.ofNat offset

/-- The addresses that are read, and the bytes that are written. -/
structure Accesses where
  reads : List UInt64
  writes : List (UInt64 × UInt8)

namespace Accesses

def none : Accesses := ⟨[], []⟩

def append (a b : Accesses) : Accesses := ⟨a.reads ++ b.reads, a.writes ++ b.writes⟩

end Accesses

/-- The vector operations: the loads give vectors and the addresses that they read, the stores the bytes that they write. -/
structure Highway where
  lanes : Nat
  lanes_pos : 0 < lanes
  Vec : Type
  lane : Vec → Nat → UInt8
  loadInterleaved4 : Memory → UInt64 → (Vec × Vec × Vec × Vec) × List UInt64
  storeInterleaved3 : Vec → Vec → Vec → UInt64 → List (UInt64 × UInt8)

/-- The documented behaviour: a load takes four bytes for each lane apart, and a store puts three together. -/
structure Highway.Documented (hw : Highway) : Prop where
  load : ∀ (source : Memory) (pointer : UInt64) (i : Nat), i < hw.lanes →
    hw.lane (hw.loadInterleaved4 source pointer).1.1 i = source (byteAddress pointer (4 * i)) ∧
      hw.lane (hw.loadInterleaved4 source pointer).1.2.1 i = source (byteAddress pointer (4 * i + 1)) ∧
      hw.lane (hw.loadInterleaved4 source pointer).1.2.2.1 i = source (byteAddress pointer (4 * i + 2))
  reads : ∀ (source : Memory) (pointer address : UInt64), address ∈ (hw.loadInterleaved4 source pointer).2 →
    ∃ offset < 4 * hw.lanes, address = byteAddress pointer offset
  store : ∀ (byte0 byte1 byte2 : hw.Vec) (pointer : UInt64) (memory : Memory) (i : Nat), i < hw.lanes →
    Stores.after memory (hw.storeInterleaved3 byte0 byte1 byte2 pointer) (byteAddress pointer (3 * i)) = hw.lane byte0 i ∧
      Stores.after memory (hw.storeInterleaved3 byte0 byte1 byte2 pointer) (byteAddress pointer (3 * i + 1)) =
        hw.lane byte1 i ∧
      Stores.after memory (hw.storeInterleaved3 byte0 byte1 byte2 pointer) (byteAddress pointer (3 * i + 2)) =
        hw.lane byte2 i
  writes : ∀ (byte0 byte1 byte2 : hw.Vec) (pointer address : UInt64),
    (∃ byte, (address, byte) ∈ hw.storeInterleaved3 byte0 byte1 byte2 pointer) ↔
      ∃ offset < 3 * hw.lanes, address = byteAddress pointer offset

/-- The body of the scalar loop. -/
def packPixel (source : Memory) (input output : UInt64) (column : Nat) : Accesses :=
  ⟨[byteAddress input (column * 4), byteAddress input (column * 4 + 1), byteAddress input (column * 4 + 2)],
    [(byteAddress output (column * 3), source (byteAddress input (column * 4))),
      (byteAddress output (column * 3 + 1), source (byteAddress input (column * 4 + 1))),
      (byteAddress output (column * 3 + 2), source (byteAddress input (column * 4 + 2)))]⟩

/-- The scalar loop, with the number of pixels that it has left. -/
def packPixels (source : Memory) (input output : UInt64) : Nat → Nat → Accesses
  | 0, _ => .none
  | left + 1, column => (packPixel source input output column).append (packPixels source input output left (column + 1))

namespace Highway

/-- The body of the vector loop. -/
def packBlock (hw : Highway) (source : Memory) (input output : UInt64) (column : Nat) : Accesses :=
  let ((byte0, byte1, byte2, _), reads) := hw.loadInterleaved4 source (byteAddress input (column * 4))
  ⟨reads, hw.storeInterleaved3 byte0 byte1 byte2 (byteAddress output (column * 3))⟩

/-- The vector loop, with the column that it ends at. -/
def packBlocks (hw : Highway) (source : Memory) (input output : UInt64) (width column : Nat) : Accesses × Nat :=
  if column + hw.lanes ≤ width then
    let rest := packBlocks hw source input output width (column + hw.lanes)
    ((hw.packBlock source input output column).append rest.1, rest.2)
  else (.none, column)
termination_by width - column
decreasing_by
  have := hw.lanes_pos
  omega

/-- One row of `PackFourToThree`. -/
def packRow (hw : Highway) (source : Memory) (input output : UInt64) (width : Nat) : Accesses :=
  let blocks := hw.packBlocks source input output width 0
  blocks.1.append (packPixels source input output (width - blocks.2) blocks.2)

end Highway

/-- The pointer to a row: the stride is converted to `size_t`. -/
def rowPointer (base : UInt64) (stride : Int) (row : Nat) : UInt64 := base + UInt64.ofNat row * UInt64.ofInt stride

/-- The loop over the rows, with what is done in each. -/
def packRows (packRow : UInt64 → UInt64 → Accesses) (source destination : UInt64) (sourceStride destinationStride : Int)
    (height : Int) : Accesses :=
  ((List.range height.toNat).map fun row =>
    packRow (rowPointer source sourceStride row) (rowPointer destination destinationStride row)).foldr Accesses.append .none

/-- `PackFourToThree`. -/
def Highway.packFourToThree (hw : Highway) (memory : Memory) (source : UInt64) (sourceStride : Int) (destination : UInt64)
    (destinationStride : Int) (width : Nat) (height : Int) : Accesses :=
  packRows (fun input output => hw.packRow memory input output width) source destination sourceStride destinationStride height

/-! ## Ranges of bytes -/

/-- The addresses from one offset behind a pointer up to another one. -/
def Behind (pointer : UInt64) (first last : Nat) (address : UInt64) : Prop :=
  first ≤ (address - pointer).toNat ∧ (address - pointer).toNat < last

variable {pointer address input output : UInt64} {source : Memory} {offset first last width column left : Nat}

theorem sub_byteAddress (h : offset < 2 ^ 64) : (byteAddress pointer offset - pointer).toNat = offset := by
  rw [byteAddress, UInt64.add_comm, UInt64.add_sub_cancel]
  exact UInt64.toNat_ofNat_of_lt' h

theorem byteAddress_sub : byteAddress pointer (address - pointer).toNat = address := by
  rw [byteAddress, UInt64.ofNat_toNat, UInt64.add_comm, UInt64.sub_add_cancel]

theorem byteAddress_byteAddress (a b : Nat) : byteAddress (byteAddress pointer a) b = byteAddress pointer (a + b) := by
  rw [byteAddress, byteAddress, byteAddress, UInt64.ofNat_add, UInt64.add_assoc]

theorem behind_iff (h : last ≤ 2 ^ 64) :
    Behind pointer first last address ↔
      ∃ offset, first ≤ offset ∧ offset < last ∧ address = byteAddress pointer offset := by
  constructor
  · rintro ⟨hfirst, hlast⟩
    exact ⟨_, hfirst, hlast, byteAddress_sub.symm⟩
  · rintro ⟨offset, hfirst, hlast, rfl⟩
    rw [Behind, sub_byteAddress (hlast.trans_le h)]
    exact ⟨hfirst, hlast⟩

/-- What the packed row has at an address. -/
def packedByte (source : Memory) (input output address : UInt64) : UInt8 :=
  let offset := (address - output).toNat
  source (byteAddress input (offset / 3 * 4 + offset % 3))

theorem packedByte_eq {k : Nat} (hk : k < 3) (h : column * 3 + k < 2 ^ 64) :
    packedByte source input output (byteAddress output (column * 3 + k)) = source (byteAddress input (column * 4 + k)) := by
  rw [packedByte, sub_byteAddress h]
  congr 2
  omega

/-- Bytes that are written one behind the other. -/
theorem fills_range (pointer : UInt64) (byte : Nat → UInt8) {n : Nat} (h : n ≤ 2 ^ 64) :
    Stores.Fills ((List.range n).map fun offset => (byteAddress pointer offset, byte offset)) (Behind pointer 0 n)
      fun address => byte (address - pointer).toNat := by
  induction n with
  | zero => exact .nil fun _ h => Nat.not_lt_zero _ h.2
  | succ n ih =>
      have hlast : Stores.Fills [(byteAddress pointer n, byte n)] (· = byteAddress pointer n)
          fun address => byte (address - pointer).toNat := by
        have heq : byte (byteAddress pointer n - pointer).toNat = byte n := by rw [sub_byteAddress (by omega)]
        rw [← heq]
        exact .singleton _ fun address => byte (address - pointer).toNat
      rw [List.range_succ, List.map_append]
      refine ((ih (by omega)).append hlast).congr_region fun address => ?_
      rw [behind_iff h, behind_iff (by omega)]
      constructor
      · rintro (⟨offset, hfirst, hoffset, rfl⟩ | rfl)
        · exact ⟨offset, hfirst, by omega, rfl⟩
        · exact ⟨n, Nat.zero_le n, Nat.lt_succ_self n, rfl⟩
      · rintro ⟨offset, hfirst, hoffset, rfl⟩
        rcases Nat.lt_succ_iff_lt_or_eq.mp hoffset with hlt | rfl
        · exact .inl ⟨offset, hfirst, hlt, rfl⟩
        · exact .inr rfl

/-! ## What the loops pack -/

/-- The pixels from one column up to another one are packed, and nothing else is read or written. -/
structure Packs (source : Memory) (input output : UInt64) (first last : Nat) (a : Accesses) : Prop where
  fills : Stores.Fills a.writes (Behind output (first * 3) (last * 3)) (packedByte source input output)
  reads : ∀ address ∈ a.reads, Behind input (first * 4) (last * 4) address

namespace Packs

theorem none (n : Nat) : Packs source input output n n .none where
  fills := .nil fun _ h => Nat.not_lt.mpr h.1 h.2
  reads := nofun

theorem append {middle : Nat} {a b : Accesses} (h : Packs source input output first middle a)
    (h' : Packs source input output middle last b) (hfirst : first ≤ middle) (hlast : middle ≤ last) :
    Packs source input output first last (a.append b) where
  fills := by
    refine (h.fills.append h'.fills).congr_region fun address => ?_
    simp only [Behind]
    omega
  reads address haddress := by
    rcases List.mem_append.mp haddress with haddress | haddress
    · have := h.reads address haddress
      exact ⟨this.1, by have := this.2; omega⟩
    · have := h'.reads address haddress
      exact ⟨by have := this.1; omega, this.2⟩

end Packs

theorem packPixel_packs (hcolumn : column < 2 ^ 31) :
    Packs source input output column (column + 1) (packPixel source input output column) where
  fills := by
    have hbyte (k : Nat) (hk : k < 3) : Stores.Fills
        [(byteAddress output (column * 3 + k), source (byteAddress input (column * 4 + k)))]
        (· = byteAddress output (column * 3 + k)) (packedByte source input output) := by
      have heq : packedByte source input output (byteAddress output (column * 3 + k)) =
          source (byteAddress input (column * 4 + k)) := packedByte_eq hk (by omega)
      rw [← heq]
      exact .singleton _ _
    refine ((hbyte 0 (by decide)).append ((hbyte 1 (by decide)).append (hbyte 2 (by decide)))).congr_region fun address => ?_
    rw [behind_iff (by omega)]
    constructor
    · rintro (rfl | rfl | rfl)
      · exact ⟨_, by omega, by omega, rfl⟩
      · exact ⟨_, by omega, by omega, rfl⟩
      · exact ⟨_, by omega, by omega, rfl⟩
    · rintro ⟨offset, hfirst, hlast, rfl⟩
      obtain rfl | rfl | rfl : offset = column * 3 ∨ offset = column * 3 + 1 ∨ offset = column * 3 + 2 := by omega
      · exact .inl rfl
      · exact .inr (.inl rfl)
      · exact .inr (.inr rfl)
  reads address h := by
    rw [behind_iff (by omega)]
    simp only [packPixel, List.mem_cons, List.not_mem_nil, or_false] at h
    rcases h with rfl | rfl | rfl
    · exact ⟨_, by omega, by omega, rfl⟩
    · exact ⟨_, by omega, by omega, rfl⟩
    · exact ⟨_, by omega, by omega, rfl⟩

theorem packPixels_packs (h : column + left ≤ 2 ^ 31) :
    Packs source input output column (column + left) (packPixels source input output left column) := by
  induction left generalizing column with
  | zero => exact .none column
  | succ left ih =>
      have hrest := ih (show column + 1 + left ≤ 2 ^ 31 by omega)
      rw [show column + 1 + left = column + (left + 1) by omega] at hrest
      exact (packPixel_packs (by omega)).append hrest (by omega) (by omega)

namespace Highway

variable {hw : Highway}

theorem packBlock_packs (hdoc : hw.Documented) (h : column + hw.lanes ≤ 2 ^ 31) :
    Packs source input output column (column + hw.lanes) (hw.packBlock source input output column) where
  fills := by
    constructor
    · intro address
      rw [behind_iff (by omega)]
      refine (hdoc.writes _ _ _ _ address).trans ?_
      simp only [byteAddress_byteAddress]
      constructor
      · rintro ⟨offset, hoffset, rfl⟩
        exact ⟨_, by omega, by omega, rfl⟩
      · rintro ⟨offset, hfirst, hlast, rfl⟩
        exact ⟨offset - column * 3, by omega, by rw [Nat.add_sub_cancel' hfirst]⟩
    · intro memory address haddress
      rw [behind_iff (by omega)] at haddress
      obtain ⟨offset, hfirst, hlast, rfl⟩ := haddress
      -- the lane, and the byte in it
      obtain ⟨i, k, hi, hk, rfl⟩ : ∃ i k, i < hw.lanes ∧ k < 3 ∧ offset = (column + i) * 3 + k :=
        ⟨offset / 3 - column, offset % 3, by omega, by omega, by omega⟩
      have hload := hdoc.load source (byteAddress input (column * 4)) i hi
      have hstore := hdoc.store (hw.loadInterleaved4 source (byteAddress input (column * 4))).1.1
        (hw.loadInterleaved4 source (byteAddress input (column * 4))).1.2.1
        (hw.loadInterleaved4 source (byteAddress input (column * 4))).1.2.2.1 (byteAddress output (column * 3)) memory i hi
      rw [hload.1, hload.2.1, hload.2.2] at hstore
      simp only [byteAddress_byteAddress] at hstore
      rw [packedByte_eq hk (by omega), packBlock]
      rw [show (column + i) * 3 + k = column * 3 + (3 * i + k) by omega,
        show (column + i) * 4 + k = column * 4 + (4 * i + k) by omega]
      obtain rfl | rfl | rfl : k = 0 ∨ k = 1 ∨ k = 2 := by omega
      · exact hstore.1
      · exact hstore.2.1
      · exact hstore.2.2
  reads address haddress := by
    rw [behind_iff (by omega)]
    obtain ⟨offset, hoffset, rfl⟩ := hdoc.reads _ _ address haddress
    exact ⟨_, by omega, by omega, byteAddress_byteAddress _ _⟩

/-- The vector loop packs the pixels up to the column that it ends at. -/
theorem packBlocks_packs (hdoc : hw.Documented) (source : Memory) (input output : UInt64) (hwidth : width ≤ 2 ^ 31)
    (hcolumn : column ≤ width) :
    column ≤ (hw.packBlocks source input output width column).2 ∧
      (hw.packBlocks source input output width column).2 ≤ width ∧
      Packs source input output column (hw.packBlocks source input output width column).2
        (hw.packBlocks source input output width column).1 := by
  induction column using packBlocks.induct hw source input output width with
  | case1 column hblock ih =>
      obtain ⟨hfirst, hlast, hpacks⟩ := ih hblock
      rw [packBlocks, if_pos hblock]
      refine ⟨(Nat.le_add_right _ _).trans hfirst, hlast, ?_⟩
      exact (packBlock_packs hdoc (hblock.trans hwidth)).append hpacks (Nat.le_add_right _ _) hfirst
  | case2 column hblock =>
      rw [packBlocks, if_neg hblock]
      exact ⟨Nat.le_refl _, hcolumn, .none column⟩

/-- The scalar loop goes on where the vector loop has ended. -/
theorem packRow_packs (hdoc : hw.Documented) (source : Memory) (input output : UInt64) (hwidth : width ≤ 2 ^ 31) :
    Packs source input output 0 width (hw.packRow source input output width) := by
  obtain ⟨hfirst, hlast, hblocks⟩ := packBlocks_packs hdoc source input output hwidth (Nat.zero_le width)
  have htail : Packs source input output (hw.packBlocks source input output width 0).2
      ((hw.packBlocks source input output width 0).2 + (width - (hw.packBlocks source input output width 0).2)) _ :=
    packPixels_packs (by omega)
  rw [Nat.add_sub_cancel' hlast] at htail
  exact hblocks.append htail hfirst hlast

end Highway

/-! ## Rows -/

/-- What the loop over the pixels of a row writes, in its order: the first three of the four bytes of each pixel. -/
def rowStores (source : Memory) (input output : UInt64) (width : Nat) : List (UInt64 × UInt8) :=
  (List.range width).flatMap fun column => (List.range 3).map fun k =>
    (byteAddress output (3 * column + k), source (byteAddress input (4 * column + k)))

theorem packPixels_writes (source : Memory) (input output : UInt64) (left column : Nat) :
    (packPixels source input output left column).writes = (List.range' column left).flatMap fun column =>
      (List.range 3).map fun k => (byteAddress output (3 * column + k), source (byteAddress input (4 * column + k))) := by
  induction left generalizing column with
  | zero => rfl
  | succ left ih =>
      rw [packPixels, Accesses.append, ih, List.range'_succ, List.flatMap_cons, Nat.mul_comm 3, Nat.mul_comm 4]
      rfl

theorem packPixels_rowStores (source : Memory) (input output : UInt64) (width : Nat) :
    (packPixels source input output width 0).writes = rowStores source input output width := by
  have hrange : List.range' 0 width = List.range width := List.range_eq_range'.symm
  rw [packPixels_writes, hrange, rowStores]

/-- The accesses to a row: as far as a memory can tell it is written like one pixel after the other, which gives it the packed bytes
of its pixels. No other byte is written, and none is read but the four bytes of each pixel. -/
structure RowExact (source : Memory) (input output : UInt64) (width : Nat) (a : Accesses) : Prop where
  same : ∀ memory, Stores.after memory a.writes = Stores.after memory (rowStores source input output width)
  bytes : ∀ memory, (List.range (width * 3)).map (fun offset => Stores.after memory a.writes (byteAddress output offset)) =
    packFourToThree ((List.range (width * 4)).map fun offset => source (byteAddress input offset))
  written : ∀ address, (∃ byte, (address, byte) ∈ a.writes) ↔ ∃ offset < 3 * width, address = byteAddress output offset
  reads : ∀ address ∈ a.reads, ∃ offset < 4 * width, address = byteAddress input offset

theorem packPixels_row (source : Memory) (input output : UInt64) (hwidth : width ≤ 2 ^ 31) :
    Packs source input output 0 width (packPixels source input output width 0) := by
  have h : Packs source input output 0 (0 + width) (packPixels source input output width 0) := packPixels_packs (by omega)
  rwa [Nat.zero_add] at h

theorem packFourToThree_map (byte : Nat → UInt8) (width : Nat) : packFourToThree ((List.range (width * 4)).map byte) =
    (List.range (width * 3)).map fun offset => byte (offset / 3 * 4 + offset % 3) := by
  induction width generalizing byte with
  | zero => rfl
  | succ width ih =>
      have hfour : (List.range ((width + 1) * 4)).map byte =
          byte 0 :: byte 1 :: byte 2 :: byte 3 :: (List.range (width * 4)).map fun offset => byte (4 + offset) := by
        rw [show (width + 1) * 4 = 4 + width * 4 by omega, List.range_add, List.map_append, List.map_map]
        rfl
      have hthree : (List.range ((width + 1) * 3)).map (fun offset => byte (offset / 3 * 4 + offset % 3)) =
          byte 0 :: byte 1 :: byte 2 ::
            (List.range (width * 3)).map fun offset => byte (4 + (offset / 3 * 4 + offset % 3)) := by
        rw [show (width + 1) * 3 = 3 + width * 3 by omega, List.range_add, List.map_append, List.map_map]
        have hnext (offset : Nat) : (3 + offset) / 3 * 4 + (3 + offset) % 3 = 4 + (offset / 3 * 4 + offset % 3) := by omega
        simp only [Function.comp_def, hnext]
        rfl
      rw [hfour, hthree, packFourToThree, ih]

/-- The bytes of a packed row. -/
theorem Packs.bytes {a : Accesses} (hwidth : width ≤ 2 ^ 31) (h : Packs source input output 0 width a) (memory : Memory) :
    (List.range (width * 3)).map (fun offset => Stores.after memory a.writes (byteAddress output offset)) =
      packFourToThree ((List.range (width * 4)).map fun offset => source (byteAddress input offset)) := by
  have hpacked : (List.range (width * 3)).map (fun offset => Stores.after memory a.writes (byteAddress output offset)) =
      (List.range (width * 3)).map fun offset => source (byteAddress input (offset / 3 * 4 + offset % 3)) := by
    refine List.map_congr_left fun offset hoffset => ?_
    have hlt := List.mem_range.mp hoffset
    rw [h.fills.after_eq memory _ ((behind_iff (by omega)).mpr ⟨offset, by omega, hlt, rfl⟩), packedByte,
      sub_byteAddress (by omega)]
  rw [hpacked, packFourToThree_map]

theorem Packs.rowExact {a : Accesses} (hwidth : width ≤ 2 ^ 31) (h : Packs source input output 0 width a) :
    RowExact source input output width a where
  same memory := by
    rw [← packPixels_rowStores]
    exact h.fills.after_unique (packPixels_row source input output hwidth).fills memory
  bytes := h.bytes hwidth
  written address := by
    rw [h.fills.mem_iff, behind_iff (by omega)]
    simp only [Nat.zero_mul, Nat.zero_le, true_and, Nat.mul_comm]
  reads address haddress := by
    obtain ⟨offset, -, hlast, heq⟩ := (behind_iff (by omega)).mp (h.reads address haddress)
    exact ⟨offset, by omega, heq⟩

/-! ## Pictures -/

/-- The byte at an offset in a row of a picture. -/
def rowByte (base : UInt64) (stride : Int) (row offset : Nat) : UInt64 := base + UInt64.ofInt (row * stride + offset)

theorem ofInt_natCast (n : Nat) : UInt64.ofInt n = UInt64.ofNat n := by
  have hmod : ((n : Int) % 2 ^ 64).toNat = n % 2 ^ 64 := by omega
  rw [UInt64.ofInt, hmod]
  exact UInt64.ofNat_mod_size

theorem byteAddress_rowPointer (base : UInt64) (stride : Int) (row offset : Nat) :
    byteAddress (rowPointer base stride row) offset = rowByte base stride row offset := by
  rw [byteAddress, rowPointer, rowByte, UInt64.ofInt_add, UInt64.ofInt_mul, ofInt_natCast, ofInt_natCast, UInt64.add_assoc]

/-- What the loops over the rows and their pixels write, in their order. -/
def pixelStores (memory : Memory) (source : UInt64) (sourceStride : Int) (destination : UInt64) (destinationStride : Int)
    (width : Nat) (height : Int) : List (UInt64 × UInt8) :=
  (List.range height.toNat).flatMap fun row => (List.range width).flatMap fun column => (List.range 3).map fun k =>
    (rowByte destination destinationStride row (3 * column + k), memory (rowByte source sourceStride row (4 * column + k)))

/-- The accesses to a picture: as far as a memory can tell it is written like one pixel after the other. Outside of the visible rows
nothing is read or written, and a row that no later one overlaps has the packed bytes of its pixels. -/
structure PictureExact (memory : Memory) (source : UInt64) (sourceStride : Int) (destination : UInt64)
    (destinationStride : Int) (width : Nat) (height : Int) (a : Accesses) : Prop where
  same : ∀ before, Stores.after before a.writes =
    Stores.after before (pixelStores memory source sourceStride destination destinationStride width height)
  written : ∀ address, (∃ byte, (address, byte) ∈ a.writes) ↔ ∃ row : Nat, row < height ∧
    ∃ offset < 3 * width, address = rowByte destination destinationStride row offset
  reads : ∀ address ∈ a.reads, ∃ row : Nat, row < height ∧
    ∃ offset < 4 * width, address = rowByte source sourceStride row offset
  bytes : ∀ row : Nat, row < height →
    (∀ later : Nat, row < later → later < height → ∀ offset < 3 * width, ∀ offset' < 3 * width,
      rowByte destination destinationStride row offset ≠ rowByte destination destinationStride later offset') →
    ∀ before, (List.range (width * 3)).map (fun offset =>
        Stores.after before a.writes (rowByte destination destinationStride row offset)) =
      packFourToThree ((List.range (width * 4)).map fun offset => memory (rowByte source sourceStride row offset))

theorem packRows_reads {packRow : UInt64 → UInt64 → Accesses} {source destination : UInt64}
    {sourceStride destinationStride height : Int} :
    (packRows packRow source destination sourceStride destinationStride height).reads =
      (List.range height.toNat).flatMap fun row =>
        (packRow (rowPointer source sourceStride row) (rowPointer destination destinationStride row)).reads := by
  rw [packRows]
  induction List.range height.toNat with
  | nil => rfl
  | cons row rows ih => rw [List.map_cons, List.foldr_cons, List.flatMap_cons, ← ih]; rfl

theorem packRows_writes {packRow : UInt64 → UInt64 → Accesses} {source destination : UInt64}
    {sourceStride destinationStride height : Int} :
    (packRows packRow source destination sourceStride destinationStride height).writes =
      (List.range height.toNat).flatMap fun row =>
        (packRow (rowPointer source sourceStride row) (rowPointer destination destinationStride row)).writes := by
  rw [packRows]
  induction List.range height.toNat with
  | nil => rfl
  | cons row rows ih => rw [List.map_cons, List.foldr_cons, List.flatMap_cons, ← ih]; rfl

section

variable {memory : Memory} {packRow : UInt64 → UInt64 → Accesses} {sourceStride destinationStride height : Int}

theorem rowStores_rowPointer (memory : Memory) (source : UInt64) (sourceStride : Int) (destination : UInt64)
    (destinationStride : Int) (width row : Nat) :
    rowStores memory (rowPointer source sourceStride row) (rowPointer destination destinationStride row) width =
      (List.range width).flatMap fun column => (List.range 3).map fun k =>
        (rowByte destination destinationStride row (3 * column + k),
          memory (rowByte source sourceStride row (4 * column + k))) := by
  simp only [rowStores, byteAddress_rowPointer]

/-- One row after the other is written as it is with one pixel after the other. -/
theorem after_rows (h : ∀ input output, RowExact memory input output width (packRow input output)) (source destination : UInt64)
    (rows : List Nat) (before : Memory) :
    Stores.after before (rows.flatMap fun row =>
        (packRow (rowPointer source sourceStride row) (rowPointer destination destinationStride row)).writes) =
      Stores.after before (rows.flatMap fun row => (List.range width).flatMap fun column => (List.range 3).map fun k =>
        (rowByte destination destinationStride row (3 * column + k),
          memory (rowByte source sourceStride row (4 * column + k)))) := by
  induction rows generalizing before with
  | nil => rfl
  | cons row rows ih =>
      simp only [List.flatMap_cons, Stores.after_append]
      rw [(h _ _).same, rowStores_rowPointer, ih]

/-- The rows behind the last one that writes to an address leave it alone. -/
theorem after_row (h : ∀ input output, RowExact memory input output width (packRow input output)) (source : UInt64)
    (sourceStride : Int) {destination : UInt64} {row : Nat} (hrow : row < height)
    (hlater : ∀ later : Nat, row < later → later < height → ∀ offset < 3 * width, ∀ offset' < 3 * width,
      rowByte destination destinationStride row offset ≠ rowByte destination destinationStride later offset')
    (before : Memory) :
    ∃ between, ∀ offset < 3 * width,
      Stores.after before (packRows packRow source destination sourceStride destinationStride height).writes
          (rowByte destination destinationStride row offset) =
        Stores.after between (packRow (rowPointer source sourceStride row) (rowPointer destination destinationStride row)).writes
          (rowByte destination destinationStride row offset) := by
  obtain ⟨earlier, rest, hrange⟩ := List.append_of_mem (List.mem_range.mpr (Int.lt_toNat.mpr hrow))
  have hsorted : (List.range height.toNat).Pairwise (· < ·) := List.pairwise_lt_range
  rw [hrange, List.pairwise_append, List.pairwise_cons] at hsorted
  have hmem : ∀ later ∈ rest, row < later ∧ later < height := by
    intro later hmem
    have hin : later ∈ List.range height.toNat := by
      rw [hrange]
      exact List.mem_append_right _ (List.mem_cons_of_mem _ hmem)
    exact ⟨hsorted.2.1.1 later hmem, Int.lt_toNat.mp (List.mem_range.mp hin)⟩
  rw [packRows_writes, hrange, List.flatMap_append, List.flatMap_cons]
  refine ⟨Stores.after before (earlier.flatMap fun row =>
    (packRow (rowPointer source sourceStride row) (rowPointer destination destinationStride row)).writes),
    fun offset hoffset => ?_⟩
  rw [Stores.after_append, Stores.after_append, Stores.after_of_not_mem fun byte hbyte => ?_]
  obtain ⟨later, hin, hbyte⟩ := List.mem_flatMap.mp hbyte
  obtain ⟨offset', hoffset', heq⟩ := ((h _ _).written _).mp ⟨byte, hbyte⟩
  rw [byteAddress_rowPointer] at heq
  obtain ⟨hbehind, hinside⟩ := hmem later hin
  exact hlater later hbehind hinside offset hoffset offset' hoffset' heq

theorem picture_of_rows (h : ∀ input output, RowExact memory input output width (packRow input output))
    (source destination : UInt64) (sourceStride destinationStride height : Int) :
    PictureExact memory source sourceStride destination destinationStride width height
      (packRows packRow source destination sourceStride destinationStride height) where
  same before := by
    rw [packRows_writes]
    exact after_rows h source destination _ before
  written address := by
    simp only [packRows_writes, List.mem_flatMap, List.mem_range, Int.lt_toNat]
    constructor
    · rintro ⟨byte, row, hrow, hbyte⟩
      obtain ⟨offset, hoffset, heq⟩ := ((h _ _).written address).mp ⟨byte, hbyte⟩
      exact ⟨row, hrow, offset, hoffset, by rw [heq, byteAddress_rowPointer]⟩
    · rintro ⟨row, hrow, offset, hoffset, rfl⟩
      obtain ⟨byte, hbyte⟩ := ((h (rowPointer source sourceStride row) (rowPointer destination destinationStride row)).written
        (rowByte destination destinationStride row offset)).mpr ⟨offset, hoffset, (byteAddress_rowPointer ..).symm⟩
      exact ⟨byte, row, hrow, hbyte⟩
  reads address haddress := by
    rw [packRows_reads] at haddress
    obtain ⟨row, hrow, haddress⟩ := List.mem_flatMap.mp haddress
    obtain ⟨offset, hoffset, heq⟩ := (h _ _).reads address haddress
    exact ⟨row, Int.lt_toNat.mp (List.mem_range.mp hrow), offset, hoffset, by rw [heq, byteAddress_rowPointer]⟩
  bytes row hrow hlater before := by
    obtain ⟨between, hrow⟩ := after_row h source sourceStride hrow hlater before
    have hbytes := (h (rowPointer source sourceStride row) (rowPointer destination destinationStride row)).bytes between
    simp only [byteAddress_rowPointer] at hbytes
    rw [← hbytes]
    exact List.map_congr_left fun offset hoffset => hrow offset (by have := List.mem_range.mp hoffset; omega)

end

/-- With vectors of any size, each row is packed as it is with one pixel after the other, and so is the whole picture, for
any strides: rows may overlap in the destination. -/
theorem packFourToThree_exact (hw : Highway) (hdoc : hw.Documented) (memory : Memory) (source destination : UInt64)
    (sourceStride destinationStride : Int) (width : Nat) (hwidth : width < 2 ^ 31) (height : Int) :
    (∀ row : Nat, row < height → RowExact memory (rowPointer source sourceStride row)
      (rowPointer destination destinationStride row) width
      (hw.packRow memory (rowPointer source sourceStride row) (rowPointer destination destinationStride row) width)) ∧
    PictureExact memory source sourceStride destination destinationStride width height
      (hw.packFourToThree memory source sourceStride destination destinationStride width height) := by
  have hrow (input output : UInt64) : RowExact memory input output width (hw.packRow memory input output width) :=
    (Highway.packRow_packs hdoc memory input output hwidth.le).rowExact hwidth.le
  exact ⟨fun row _ => hrow _ _, picture_of_rows hrow source destination sourceStride destinationStride height⟩

/-- Vectors of `n` lanes, with the bytes of a store one behind the other. -/
def interleaved (n : Nat) (h : 0 < n) : Highway where
  lanes := n
  lanes_pos := h
  Vec := Nat → UInt8
  lane v i := v i
  loadInterleaved4 source pointer :=
    ((fun i => source (byteAddress pointer (4 * i)), fun i => source (byteAddress pointer (4 * i + 1)),
        fun i => source (byteAddress pointer (4 * i + 2)), fun i => source (byteAddress pointer (4 * i + 3))),
      (List.range (4 * n)).map (byteAddress pointer))
  storeInterleaved3 byte0 byte1 byte2 pointer := (List.range (3 * n)).map fun offset =>
    (byteAddress pointer offset, (if offset % 3 = 0 then byte0 else if offset % 3 = 1 then byte1 else byte2) (offset / 3))

theorem interleaved_documented {n : Nat} (h : 0 < n) (hn : 3 * n ≤ 2 ^ 64) : (interleaved n h).Documented where
  load _ _ _ _ := ⟨rfl, rfl, rfl⟩
  reads source pointer address haddress := by
    obtain ⟨offset, hoffset, rfl⟩ := List.mem_map.mp haddress
    exact ⟨offset, List.mem_range.mp hoffset, rfl⟩
  store byte0 byte1 byte2 pointer memory i hi := by
    change i < n at hi
    have hafter (k : Nat) (hk : k < 3) : Stores.after memory ((interleaved n h).storeInterleaved3 byte0 byte1 byte2 pointer)
        (byteAddress pointer (3 * i + k)) = (if k = 0 then byte0 else if k = 1 then byte1 else byte2) i := by
      refine ((fills_range pointer _ hn).after_eq memory _
        ((behind_iff hn).mpr ⟨3 * i + k, Nat.zero_le _, by omega, rfl⟩)).trans ?_
      rw [sub_byteAddress (by omega), show (3 * i + k) % 3 = k by omega, show (3 * i + k) / 3 = i by omega]
      rfl
    exact ⟨hafter 0 (by decide), hafter 1 (by decide), hafter 2 (by decide)⟩
  writes byte0 byte1 byte2 pointer address := by
    refine ((fills_range pointer _ hn).mem_iff address).trans ?_
    rw [behind_iff hn]
    simp only [Nat.zero_le, true_and]
    rfl

/-- Five pixels in vectors of four, in two rows of which the second is stored in front of the first. -/
theorem packFourToThree_exact_small :
    (List.range 15).map (Stores.after (fun _ => 0) ((interleaved 4 (by decide)).packFourToThree (fun address => address.toUInt8)
        4096 20 65536 (-16) 5 2).writes ∘ byteAddress 65536) =
      [0, 1, 2, 4, 5, 6, 8, 9, 10, 12, 13, 14, 16, 17, 18] ∧
    (List.range 15).map (Stores.after (fun _ => 0) ((interleaved 4 (by decide)).packFourToThree (fun address => address.toUInt8)
        4096 20 65536 (-16) 5 2).writes ∘ byteAddress 65520) =
      [20, 21, 22, 24, 25, 26, 28, 29, 30, 32, 33, 34, 36, 37, 38] := by
  have h := (packFourToThree_exact (interleaved 4 (by decide)) (interleaved_documented (by decide) (by decide))
    (fun address => address.toUInt8) 4096 65536 20 (-16) 5 (by decide) 2).2.bytes
  refine ⟨h 0 (by decide) (fun later hbehind hinside => ?_) _, h 1 (by decide) (fun later hbehind hinside => ?_) _⟩
  · obtain rfl : later = 1 := by omega
    decide
  · omega

end MkvCodec
