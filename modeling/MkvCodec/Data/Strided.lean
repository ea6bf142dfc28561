import Mathlib.Algebra.Ring.Nat
import MkvCodec.Data.PlacedRasters

/-!
# Arrays with strides

Arrays of any number of axes over a memory. Neighbours along an axis are a stride apart, which may be negative. An array without
gaps has its elements one behind the other; of an axis with one element the stride does not count.
-/

namespace Strided

structure Axis where
  length : Nat
  stride : Int
  deriving DecidableEq

/-- The number of elements. -/
def size (axes : List Axis) : Nat := (axes.map Axis.length).prod

/-- The addresses of the elements in the order of their indices, the last one first to change. -/
def addresses (base : Int) : List Axis → List Int
  | [] => [base]
  | axis :: axes => (List.range axis.length).flatMap fun i : Nat => addresses (base + i * axis.stride) axes

/-- There are no gaps. -/
def packed : List Axis → Bool
  | [] => true
  | axis :: axes => packed axes && (axis.length = 1 || axis.stride = size axes)

/-- The axes of a new array. -/
def pack : List Nat → List Axis
  | [] => []
  | n :: shape => ⟨n, shape.prod⟩ :: pack shape

section

variable {axis : Axis} {axes : List Axis} {base : Int}

@[simp] theorem size_cons (axis : Axis) (axes : List Axis) : size (axis :: axes) = axis.length * size axes := by simp [size]

@[simp] theorem size_pack (shape : List Nat) : size (pack shape) = shape.prod := by
  induction shape with
  | nil => rfl
  | cons n shape ih => simp [pack, ih]

@[simp] theorem packed_pack (shape : List Nat) : packed (pack shape) = true := by
  induction shape with
  | nil => rfl
  | cons n shape ih => simp [pack, packed, ih]

theorem packed_cons : packed (axis :: axes) = true ↔ packed axes = true ∧ (axis.length = 1 ∨ axis.stride = size axes) := by
  simp [packed]

theorem addresses_packed (h : packed axes = true) : addresses base axes = (List.range (size axes)).map fun k : Nat => base + k := by
  induction axes generalizing base with
  | nil => simp [addresses, size]
  | cons axis axes ih =>
      obtain ⟨hpacked, hstride⟩ := packed_cons.mp h
      simp only [addresses, ih hpacked, size_cons]
      rw [← RowMajor.store_linear axis.length (size axes) fun k => base + (k : Int)]
      apply RowMajor.store_congr
      intro i hi k _
      rcases hstride with hone | hstride
      · obtain rfl : i = 0 := by omega
        simp
      · rw [hstride]
        push_cast
        omega

/-- The elements behind the first axis without gaps. -/
theorem addresses_rows (h : packed axes = true) : addresses base (axis :: axes) =
    RowMajor.store axis.length (size axes) fun row column => base + row * axis.stride + column := by
  simp only [addresses, addresses_packed h]
  rfl

end

/-- An array: the address of its first element, and its axes. -/
structure NdArray where
  address : Int
  axes : List Axis
  deriving DecidableEq

namespace NdArray

variable {α : Type*} {a : NdArray} {memory memory' : Int → α} {place : Int}

def shape (a : NdArray) : List Nat := a.axes.map Axis.length

def addresses (a : NdArray) : List Int := Strided.addresses a.address a.axes

/-- The elements in the order of their indices. -/
def values (a : NdArray) (memory : Int → α) : List α := a.addresses.map memory

/-- Arrays without elements count as arrays without gaps. -/
def contiguous (a : NdArray) : Bool := size a.axes = 0 || packed a.axes

/-- An array with one axis, without gaps. -/
def vector (address : Int) (n : Nat) : NdArray := ⟨address, [⟨n, 1⟩]⟩

/-- An array without gaps with other axes. -/
def reshape (shape : List Nat) (a : NdArray) : NdArray := ⟨a.address, pack shape⟩

/-- The first `n` elements along the last axis. -/
def columns (n : Nat) (a : NdArray) : NdArray :=
  ⟨a.address, a.axes.dropLast ++ (a.axes.getLast?.map fun axis => ⟨min n axis.length, axis.stride⟩).toList⟩

/-- The last axis split into groups of `n` elements. -/
def split (n : Nat) (a : NdArray) : NdArray :=
  ⟨a.address, a.axes.dropLast ++ ((a.axes.getLast?.map fun axis => [⟨axis.length / n, axis.stride * n⟩, ⟨n, axis.stride⟩]).getD [])⟩

/-- The array itself where it has no gaps, else a copy at `place`. -/
def ascontiguous (place : Int) (a : NdArray) (memory : Int → α) : NdArray × (Int → α) :=
  if a.contiguous then (a, memory) else (⟨place, pack a.shape⟩, Block.write memory place (a.values memory))

theorem length_flatMap_addresses (axes : List Axis) (base : Int) : (Strided.addresses base axes).length = size axes := by
  induction axes generalizing base with
  | nil => rfl
  | cons axis axes ih => simp [Strided.addresses, List.length_flatMap, ih]

@[simp] theorem length_values (a : NdArray) (memory : Int → α) : (a.values memory).length = size a.axes := by
  rw [values, List.length_map, addresses, length_flatMap_addresses]

theorem values_congr (h : ∀ x ∈ a.addresses, memory' x = memory x) : a.values memory' = a.values memory :=
  List.map_congr_left h

@[simp] theorem size_shape (a : NdArray) : a.shape.prod = size a.axes := rfl

/-- What is new lies in the copy. -/
theorem ascontiguous_outside {x : Int} (h : ¬ (place ≤ x ∧ x < place + size a.axes)) :
    (a.ascontiguous place memory).2 x = memory x := by
  unfold ascontiguous
  split
  · rfl
  · apply Block.write_outside
    rwa [length_values]

theorem ascontiguous_values (place : Int) (a : NdArray) (memory : Int → α) :
    (a.ascontiguous place memory).1.values (a.ascontiguous place memory).2 = a.values memory := by
  unfold ascontiguous
  split
  · rfl
  · rw [values, NdArray.addresses, addresses_packed (packed_pack a.shape), size_pack, size_shape, List.map_map]
    refine List.ext_getElem (by simp) fun k hk hk' => ?_
    have hlength : k < (a.values memory).length := hk'
    simp only [List.getElem_map, List.getElem_range, Function.comp_apply]
    rw [Block.write_at (a.values memory)[k] hlength, List.getD_eq_getElem _ _ hlength]

end NdArray

end Strided
