import MkvCodec.Backend.FrameLayout
import MkvCodec.Data.Strided

/-!
# NumPy arrays as frames

`frame_views.py`: the arrays of a caller are checked and described to the encoder by a pointer and a row stride for each plane. Where
copies are allowed, an array that cannot be described so is copied first.
-/

namespace MkvCodec.Python

open Strided

/-- An `ndarray`, with whether its elements are bytes. -/
structure Ndarray extends NdArray where
  uint8 : Bool

/-- The text of a tuple of two numbers or more. -/
def tupleText (shape : List Nat) : String := "(" ++ String.intercalate ", " (shape.map toString) ++ ")"

/-- The strides that the row stride of a plane can describe. -/
def validStrides (axes : List Axis) : Bool :=
  (axes.head?.any fun axis => decide (0 < axis.stride)) && (axes.getLast?.any fun axis => decide (axis.stride = 1)) &&
    (decide (axes.length ≠ 3) || decide ((axes.map Axis.stride)[1]? = (axes.map fun axis => (axis.length : Int))[2]?))

/-- A plane with the shape that is expected of it, and where NumPy puts a copy. -/
structure PlaneInput where
  plane : Ndarray
  shape : List Nat
  place : Int

namespace PlaneInput

def accepted (allowCopy : Bool) (input : PlaneInput) : Bool :=
  input.plane.uint8 && decide (input.plane.shape = input.shape) && (validStrides input.plane.axes || allowCopy)

/-- The array that stands for the plane in the end, and the memory with it. -/
def normalized (input : PlaneInput) (memory : Int → UInt8) : NdArray × (Int → UInt8) :=
  if validStrides input.plane.axes then (input.plane.toNdArray, memory)
  else input.plane.ascontiguous input.place memory

def refusal (label : String) (input : PlaneInput) : String :=
  if !input.plane.uint8 || decide (input.plane.shape ≠ input.shape) then
    label ++ " plane must be uint8 with shape " ++ tupleText input.shape
  else label ++ " planes require positive packed element stride"

end PlaneInput

def validatePlanes (label : String) (allowCopy : Bool) :
    List PlaneInput → (Int → UInt8) → Except String (List NdArray × (Int → UInt8))
  | [], memory => .ok ([], memory)
  | input :: inputs, memory =>
      if input.accepted allowCopy then
        (validatePlanes label allowCopy inputs (input.normalized memory).2).map fun rest => ((input.normalized memory).1 :: rest.1, rest.2)
      else .error (input.refusal label)

/-- A view of the planes. The fields are those of `ctypes`, which keep the low bits. -/
def buildView (planes : List NdArray) (pixelFormat : PixelFormat) (width height : Nat) (pts : Int) (memory : Int → UInt8) :
    FrameView where
  pixelFormat := pixelFormat
  width := u32 width
  height := u32 height
  pts := pts.bmod (2 ^ 64)
  planes i := planes[i.val]?.map fun plane => ⟨plane.address.toNat, fun offset => memory (plane.address + offset)⟩
  strides i := ((planes[i.val]?.bind fun plane => plane.axes.head?).map fun axis => axis.stride.bmod (2 ^ 32)).getD 0

/-- A view with the arrays that it keeps alive and the memory behind them. -/
structure MadeView where
  view : FrameView
  planes : List NdArray
  memory : Int → UInt8

def makeView (label : String) (allowCopy : Bool) (inputs : List PlaneInput) (pixelFormat : PixelFormat) (width height : Nat)
    (pts : Int) (memory : Int → UInt8) : Except String MadeView :=
  (validatePlanes label allowCopy inputs memory).map fun result =>
    ⟨buildView result.1 pixelFormat width height pts result.2, result.1, result.2⟩

/-- The planes of a tuple or an array with the shapes that are expected of them. -/
def i420Inputs (y u v : Ndarray × Int) (width height : Nat) : List PlaneInput :=
  [⟨y.1, [height, width], y.2⟩, ⟨u.1, [height / 2, width / 2], u.2⟩, ⟨v.1, [height / 2, width / 2], v.2⟩]

def nv12Inputs (y uv : Ndarray × Int) (width height : Nat) : List PlaneInput :=
  [⟨y.1, [height, width], y.2⟩, ⟨uv.1, [height / 2, width], uv.2⟩]

def packedInputs (array : Ndarray × Int) (width height channels : Nat) : List PlaneInput :=
  [⟨array.1, [height, width, channels], array.2⟩]

section

variable (width height : Nat) (pts : Int) (allowCopy : Bool) (memory : Int → UInt8)

def makeI420View (y u v : Ndarray × Int) : Except String MadeView :=
  makeView "I420" allowCopy (i420Inputs y u v width height) .i420 width height pts memory

def makeNv12View (y uv : Ndarray × Int) : Except String MadeView :=
  makeView "NV12" allowCopy (nv12Inputs y uv width height) .nv12 width height pts memory

def makePackedView (array : Ndarray × Int) (channels : Nat) (pixelFormat : PixelFormat) : Except String MadeView :=
  makeView "packed" allowCopy (packedInputs array width height channels) pixelFormat width height pts memory

end

/-- What a caller hands over as one frame; each array with the place of a copy of it. -/
inductive FrameInput
  | array (plane : Ndarray × Int)
  | tuple (planes : List (Ndarray × Int))

/-- The check of the format of a borrowed frame. -/
def borrowedInputs (frame : FrameInput) (format : String) (width height : Nat) : Except String (List PlaneInput × PixelFormat) :=
  if format = "i420" then
    match frame with
    | .tuple [y, u, v] => .ok (i420Inputs y u v width height, .i420)
    | _ => .error "I420 borrowed input must contain (Y, U, V)"
  else if format = "nv12" then
    match frame with
    | .tuple [y, uv] => .ok (nv12Inputs y uv width height, .nv12)
    | _ => .error "NV12 borrowed input must contain (Y, UV)"
  else if format = "bgr" ∨ format = "rgb" ∨ format = "bgra" then
    match frame with
    | .tuple _ => .error (format ++ " borrowed input must be one ndarray")
    | .array plane =>
        if format = "bgr" then .ok (packedInputs plane width height 3, .bgr24)
        else if format = "rgb" then .ok (packedInputs plane width height 3, .rgb24)
        else .ok (packedInputs plane width height 4, .bgra32)
  else .error "format must be i420, nv12, bgr, rgb, or bgra"

def makeBorrowedView (frame : FrameInput) (format : String) (width height : Nat) (pts : Int) (allowCopy : Bool)
    (memory : Int → UInt8) : Except String MadeView := do
  let inputs ← borrowedInputs frame format width height
  makeView "borrowed" allowCopy inputs.1 inputs.2 width height pts memory

/-! ## One plane -/

namespace PlaneInput

variable {input input' : PlaneInput} {memory : Int → UInt8} {x : Int}

def Copied (input : PlaneInput) : Prop := validStrides input.plane.axes = false ∧ input.plane.contiguous = false

/-- An address in the copy of a plane. -/
def region (input : PlaneInput) (x : Int) : Prop := input.Copied ∧ input.place ≤ x ∧ x < input.place + size input.plane.axes

/-- The array that stands for the plane, whatever is in the memory. -/
def result (input : PlaneInput) : NdArray := (input.normalized fun _ => 0).1

theorem normalized_fst (input : PlaneInput) (memory : Int → UInt8) : (input.normalized memory).1 = input.result := by
  simp only [result, normalized, NdArray.ascontiguous]
  split
  · rfl
  · split <;> rfl

theorem normalized_outside (h : ¬ input.region x) : (input.normalized memory).2 x = memory x := by
  unfold normalized
  split
  · rfl
  · rename_i hvalid
    by_cases hcontiguous : input.plane.contiguous = true
    · rw [NdArray.ascontiguous, if_pos hcontiguous]
    · apply NdArray.ascontiguous_outside
      intro hin
      exact h ⟨⟨by simpa using hvalid, by simpa using hcontiguous⟩, hin⟩

theorem normalized_values (input : PlaneInput) (memory : Int → UInt8) :
    input.result.values (input.normalized memory).2 = input.plane.values memory := by
  rw [← normalized_fst input memory]
  unfold normalized
  split
  · rfl
  · exact NdArray.ascontiguous_values _ _ _

theorem contiguous_of_not_copied (h : ¬ input.Copied) (hvalid : ¬ validStrides input.plane.axes = true) :
    input.plane.contiguous = true := by
  by_contra hnot
  exact h ⟨by simpa using hvalid, by simpa using hnot⟩

theorem result_of_not_copied (h : ¬ input.Copied) : input.result = input.plane.toNdArray := by
  unfold result normalized
  split
  · rfl
  · rename_i hvalid
    rw [NdArray.ascontiguous, if_pos (contiguous_of_not_copied h hvalid)]

theorem result_of_copied (h : input.Copied) : input.result = ⟨input.place, pack input.plane.shape⟩ := by
  simp [result, normalized, NdArray.ascontiguous, h.1, h.2]

theorem mem_result (h : x ∈ input.result.addresses) : x ∈ input.plane.addresses ∨ input.region x := by
  by_cases hcopied : input.Copied
  · right
    rw [result_of_copied hcopied, NdArray.addresses, addresses_packed (packed_pack _), size_pack, NdArray.size_shape] at h
    obtain ⟨k, hk, hx⟩ := List.mem_map.mp h
    have hlt := List.mem_range.mp hk
    change input.place + (k : Int) = x at hx
    exact ⟨hcopied, by omega, by omega⟩
  · rw [result_of_not_copied hcopied] at h
    exact .inl h

/-- A copy of the first plane touches neither the second one nor a copy of it. -/
def Separate (input input' : PlaneInput) : Prop := ∀ x, input.region x → x ∉ input'.plane.addresses ∧ ¬ input'.region x

end PlaneInput

/-! ## All planes -/

section

variable {label : String} {allowCopy : Bool} {inputs : List PlaneInput} {memory : Int → UInt8} {x : Int}

/-- The memory behind all copies. -/
def finalMemory (inputs : List PlaneInput) (memory : Int → UInt8) : Int → UInt8 :=
  inputs.foldl (fun memory input => (input.normalized memory).2) memory

theorem validatePlanes_ok (h : ∀ input ∈ inputs, input.accepted allowCopy = true) :
    validatePlanes label allowCopy inputs memory = .ok (inputs.map PlaneInput.result, finalMemory inputs memory) := by
  induction inputs generalizing memory with
  | nil => rfl
  | cons input inputs ih =>
      rw [validatePlanes, if_pos (h input List.mem_cons_self), ih fun input hinput => h input (List.mem_cons_of_mem _ hinput)]
      simp [Except.map, PlaneInput.normalized_fst, finalMemory]

variable (label memory) in
/-- The first plane that is refused gives the error. -/
theorem validatePlanes_error (h : ¬ ∀ input ∈ inputs, input.accepted allowCopy = true) :
    ∃ input, inputs.find? (fun input => !input.accepted allowCopy) = some input ∧
      validatePlanes label allowCopy inputs memory = .error (input.refusal label) := by
  induction inputs generalizing memory with
  | nil => simp at h
  | cons input inputs ih =>
      by_cases haccepted : input.accepted allowCopy = true
      · obtain ⟨bad, hbad, herror⟩ := ih (input.normalized memory).2 fun hall => h (by simpa [haccepted] using hall)
        refine ⟨bad, by simpa [haccepted] using hbad, ?_⟩
        rw [validatePlanes, if_pos haccepted, herror]
        rfl
      · refine ⟨input, by simp [haccepted], ?_⟩
        rw [validatePlanes, if_neg haccepted]

theorem finalMemory_outside (h : ∀ input ∈ inputs, ¬ input.region x) : finalMemory inputs memory x = memory x := by
  induction inputs generalizing memory with
  | nil => rfl
  | cons input inputs ih =>
      exact (ih fun input hinput => h input (List.mem_cons_of_mem _ hinput)).trans
        (PlaneInput.normalized_outside (h input List.mem_cons_self))

/-- Copies go where neither a plane nor another copy is. -/
def FreshPlaces (inputs : List PlaneInput) : Prop := inputs.Pairwise fun a b => a.Separate b ∧ b.Separate a

/-- Planes that are not copied are used in the memory as it is. -/
theorem uncopied (h : ∀ input ∈ inputs, ¬ input.Copied) (memory : Int → UInt8) :
    FreshPlaces inputs ∧ finalMemory inputs memory = memory ∧
      inputs.map PlaneInput.result = inputs.map fun input => input.plane.toNdArray := by
  have hregion (input : PlaneInput) (hinput : input ∈ inputs) (x : Int) : ¬ input.region x := fun hx => h input hinput hx.1
  refine ⟨?_, funext fun x => finalMemory_outside fun input hinput => hregion input hinput x, ?_⟩
  · exact List.pairwise_of_forall_mem_list fun a ha b hb =>
      ⟨fun x hx => absurd hx (hregion a ha x), fun x hx => absurd hx (hregion b hb x)⟩
  · exact List.map_congr_left fun input hinput => PlaneInput.result_of_not_copied (h input hinput)

theorem finalMemory_values (h : FreshPlaces inputs) :
    ∀ input ∈ inputs, input.result.values (finalMemory inputs memory) = input.plane.values memory := by
  induction inputs generalizing memory with
  | nil => simp
  | cons first inputs ih =>
      obtain ⟨hfirst, hrest⟩ := List.pairwise_cons.mp h
      intro input hinput
      rcases List.mem_cons.mp hinput with rfl | hmem
      · refine (NdArray.values_congr fun x hx => ?_).trans (PlaneInput.normalized_values input memory)
        change finalMemory inputs (input.normalized memory).2 x = _
        apply finalMemory_outside
        intro other hother hregion
        obtain ⟨hplane, hcopy⟩ := (hfirst other hother).2 x hregion
        exact (PlaneInput.mem_result hx).elim hplane hcopy
      · refine (ih hrest input hmem).trans (NdArray.values_congr fun x hx => ?_)
        apply PlaneInput.normalized_outside
        intro hregion
        exact ((hfirst input hmem).1 x hregion).1 hx

end

/-! ## Rows -/

/-- `rows` rows of `rowBytes` bytes without gaps within a row. -/
def Rowed (a : NdArray) (rows rowBytes : Nat) : Prop :=
  ∃ stride rest, a.axes = ⟨rows, stride⟩ :: rest ∧ packed rest = true ∧ size rest = rowBytes

def rowStride (a : NdArray) : Int := (a.axes.head?.map Axis.stride).getD 0

theorem Rowed.addresses {a : NdArray} {rows rowBytes : Nat} (h : Rowed a rows rowBytes) :
    a.addresses = RowMajor.store rows rowBytes fun row column => a.address + row * rowStride a + column := by
  obtain ⟨stride, rest, haxes, hpacked, rfl⟩ := h
  have hstride : rowStride a = stride := by rw [rowStride, haxes]; rfl
  rw [NdArray.addresses, haxes, addresses_rows hpacked, hstride]

theorem packed_of_validStrides {axis : Axis} {rest : List Axis} (hlength : rest.length = 1 ∨ rest.length = 2)
    (h : validStrides (axis :: rest) = true) : packed rest = true ∧ 0 < axis.stride := by
  match rest, hlength with
  | [column], _ =>
      simp [validStrides] at h
      simp [packed, size, h]
  | [pixel, channel], _ =>
      simp [validStrides] at h
      simp [packed, size, h]

/-- An accepted plane ends up in rows; where it is copied or has no gaps, its rows follow one another. -/
theorem PlaneInput.result_rowed {input : PlaneInput} {allowCopy : Bool} {rows : Nat} {tail : List Nat}
    (haccepted : input.accepted allowCopy = true) (hshape : input.shape = rows :: tail) (htail : tail.length = 1 ∨ tail.length = 2)
    (hpos : rows * tail.prod ≠ 0) : Rowed input.result rows tail.prod ∧
      (validStrides input.plane.axes = true ∧ rowStride input.result = rowStride input.plane.toNdArray ∧ 0 < rowStride input.result ∨
        rows = 1 ∧ rowStride input.result = rowStride input.plane.toNdArray ∨ rowStride input.result = tail.prod) := by
  simp only [accepted, Bool.and_eq_true, decide_eq_true_eq] at haccepted
  have hplane : input.plane.axes.map Axis.length = rows :: tail := haccepted.1.2.trans hshape
  obtain ⟨axis, rest, haxes⟩ : ∃ axis rest, input.plane.axes = axis :: rest := by
    cases haxes : input.plane.axes with
    | nil => simp [haxes] at hplane
    | cons axis rest => exact ⟨axis, rest, rfl⟩
  obtain ⟨hrows, hrest⟩ : axis.length = rows ∧ rest.map Axis.length = tail := by simpa [haxes] using hplane
  have hsize : size rest = tail.prod := by rw [size, hrest]
  have hlength : rest.length = tail.length := by rw [← hrest, List.length_map]
  have hstride : rowStride input.plane.toNdArray = axis.stride := by rw [rowStride, haxes]; rfl
  by_cases hcopied : input.Copied
  · have hshape' : input.plane.shape = rows :: tail := hplane
    rw [result_of_copied hcopied, hshape']
    refine ⟨⟨tail.prod, pack tail, rfl, packed_pack tail, size_pack tail⟩, .inr (.inr ?_)⟩
    rfl
  · rw [result_of_not_copied hcopied, hstride]
    have hform : input.plane.axes = ⟨rows, axis.stride⟩ :: rest := by rw [haxes, ← hrows]
    by_cases hvalid : validStrides input.plane.axes = true
    · obtain ⟨hpacked, hpositive⟩ := packed_of_validStrides (hlength ▸ htail) (haxes ▸ hvalid)
      exact ⟨⟨axis.stride, rest, hform, hpacked, hsize⟩, .inl ⟨hvalid, rfl, hpositive⟩⟩
    · have hcontiguous := contiguous_of_not_copied hcopied hvalid
      have hnonempty : size input.plane.axes ≠ 0 := by rwa [haxes, size_cons, hrows, hsize]
      rw [NdArray.contiguous, Bool.or_eq_true, decide_eq_true_eq, haxes] at hcontiguous
      have hpacked : packed (axis :: rest) = true := hcontiguous.resolve_left (haxes ▸ hnonempty)
      obtain ⟨hrest', hlast⟩ := packed_cons.mp hpacked
      refine ⟨⟨axis.stride, rest, hform, hrest', hsize⟩, .inr ?_⟩
      rcases hlast with hone | hstride'
      · exact .inl ⟨hrows.symm.trans hone, rfl⟩
      · exact .inr (by rw [hstride', hsize])

/-! ## The planes of a frame -/

/-- What the entry points expect of a frame. -/
inductive Laid (width height : Nat) : List PlaneInput → PixelFormat → Prop
  | i420 (y u v : Ndarray × Int) : Laid width height (i420Inputs y u v width height) .i420
  | nv12 (y uv : Ndarray × Int) : Laid width height (nv12Inputs y uv width height) .nv12
  | bgr24 (array : Ndarray × Int) : Laid width height (packedInputs array width height 3) .bgr24
  | rgb24 (array : Ndarray × Int) : Laid width height (packedInputs array width height 3) .rgb24
  | bgra32 (array : Ndarray × Int) : Laid width height (packedInputs array width height 4) .bgra32

def PlaneInput.rows (input : PlaneInput) : Nat := input.shape.headD 0

def PlaneInput.rowBytes (input : PlaneInput) : Nat := input.shape.tail.prod

section

variable {width height : Nat} {inputs : List PlaneInput} {pixelFormat : PixelFormat} {input : PlaneInput}

theorem borrowedInputs_laid {frame : FrameInput} {format : String}
    (h : borrowedInputs frame format width height = .ok (inputs, pixelFormat)) : Laid width height inputs pixelFormat := by
  unfold borrowedInputs at h
  split at h
  · split at h
    · cases h
      exact .i420 _ _ _
    · cases h
  split at h
  · split at h
    · cases h
      exact .nv12 _ _
    · cases h
  split at h
  · split at h
    · cases h
    split at h
    · cases h
      exact .bgr24 _
    split at h
    · cases h
      exact .rgb24 _
    · cases h
      exact .bgra32 _
  · cases h

/-- The shapes are those of the planes of the format. -/
theorem Laid.planes (h : Laid width height inputs pixelFormat) :
    ∃ planes, pixelFormat.planes width height = some planes ∧ planes.length = inputs.length ∧ inputs.length ≤ 3 ∧
      ∀ k : Fin 3, planes[k.val]? = inputs[k.val]?.map fun input => (k, input.rowBytes, input.rows) := by
  cases h <;> refine ⟨_, rfl, rfl, by simp [i420Inputs, nv12Inputs, packedInputs], ?_⟩ <;>
    simp [Fin.forall_fin_succ, i420Inputs, nv12Inputs, packedInputs, PlaneInput.rowBytes, PlaneInput.rows]

theorem Laid.shape (h : Laid width height inputs pixelFormat) (hwidth : 0 < width ∧ width % 2 = 0) (hheight : 0 < height ∧ height % 2 = 0)
    (hinput : input ∈ inputs) : input.shape = input.rows :: input.shape.tail ∧
      (input.shape.tail.length = 1 ∨ input.shape.tail.length = 2) ∧ input.rows * input.rowBytes ≠ 0 := by
  cases h <;> simp only [i420Inputs, nv12Inputs, packedInputs, List.mem_cons, List.not_mem_nil, or_false] at hinput
  all_goals
    rcases hinput with rfl | rfl | rfl <;> simp [PlaneInput.rows, PlaneInput.rowBytes] <;> omega

theorem Laid.rowBytes_lt (h : Laid width height inputs pixelFormat) (hwidth : width ≤ (2 ^ 31 - 1) / 4) (hinput : input ∈ inputs) :
    input.rowBytes < 2 ^ 31 := by
  cases h <;> simp only [i420Inputs, nv12Inputs, packedInputs, List.mem_cons, List.not_mem_nil, or_false] at hinput
  all_goals
    rcases hinput with rfl | rfl | rfl <;> simp [PlaneInput.rowBytes] <;> omega

end

/-! ## The view of the planes -/

section

variable {planes : List NdArray} {pixelFormat : PixelFormat} {width height : Nat} {pts : Int} {memory : Int → UInt8} {a : NdArray}

/-- A number that a field of `int32_t` keeps. -/
def InInt32 (n : Int) : Prop := -2 ^ 31 ≤ n ∧ n < 2 ^ 31

theorem bmod_of_inInt32 {n : Int} (h : InInt32 n) : n.bmod (2 ^ 32) = n := by
  unfold InInt32 at h
  exact Int.bmod_eq_of_le (by omega) (by omega)

theorem buildView_stride {i : Fin 4} (hplane : planes[i.val]? = some a) (hstride : InInt32 (rowStride a)) :
    (buildView planes pixelFormat width height pts memory).strides i = rowStride a := by
  simp only [buildView, hplane, Option.bind_some, rowStride] at hstride ⊢
  cases haxes : a.axes.head? with
  | none => rfl
  | some axis =>
      rw [haxes] at hstride
      exact bmod_of_inInt32 hstride

theorem buildView_visible {k : Fin 3} {rows rowBytes : Nat} (hplane : planes[k.val]? = some a) (hrowed : Rowed a rows rowBytes)
    (hstride : InInt32 (rowStride a)) (hrows : rows = 1 ∨ 0 ≤ rowStride a) :
    (buildView planes pixelFormat width height pts memory).visiblePlane k rowBytes rows = a.values memory := by
  have hview : (buildView planes pixelFormat width height pts memory).planes k.castSucc =
      some ⟨a.address.toNat, fun offset => memory (a.address + offset)⟩ := by
    change planes[k.val]?.map _ = _
    rw [hplane]
    rfl
  simp only [FrameView.visiblePlane, hview, Plane.rows]
  rw [buildView_stride (show planes[k.castSucc.val]? = some a from hplane) hstride, NdArray.values, hrowed.addresses, RowMajor.store_map]
  apply RowMajor.store_congr
  intro row hr column _
  congr 1
  rcases hrows with rfl | hpos
  · obtain rfl : row = 0 := by omega
    simp
  · push_cast
    rw [Int.toNat_of_nonneg hpos]
    omega

end

/-- What a view should be of the planes it was made of: it has their elements, in their order, and nothing else; what could be
described has not been copied; nothing outside the copies has changed. The encoder takes it when each row stride spans a row, that of
a plane with one row too. -/
structure MadeView.Describes (made : MadeView) (inputs : List PlaneInput) (pixelFormat : PixelFormat) (width height : Nat) (pts : Int)
    (memory : Int → UInt8) : Prop where
  picture : made.view.picture = ⟨pixelFormat, width, height, pts, inputs.map fun input => input.plane.values memory⟩
  elements : ∀ (k : Fin 3) (input : PlaneInput), inputs[k.val]? = some input → ∃ a, made.planes[k.val]? = some a ∧
    a.addresses = RowMajor.store input.rows input.rowBytes fun row column => a.address + row * made.view.strides k.castSucc + column
  shared : ∀ (k : Nat) (input : PlaneInput), inputs[k]? = some input → ¬ input.Copied → made.planes[k]? = some input.plane.toNdArray
  kept : ∀ x, (∀ input ∈ inputs, ¬ input.region x) → made.memory x = memory x
  native : (validateBorrowedFrame made.view).result = .ok ↔
    ∀ input ∈ inputs, input.Copied ∨ (input.rowBytes : Int) ≤ rowStride input.plane.toNdArray

section

variable {width height : Nat} {pts : Int} {inputs : List PlaneInput} {pixelFormat : PixelFormat} {input : PlaneInput} {allowCopy : Bool}
  {memory : Int → UInt8}

/-- The dimensions that an encoder is created with. -/
structure EncoderSize (width height : Nat) : Prop where
  width_pos : 0 < width
  width_even : width % 2 = 0
  width_le : width ≤ (2 ^ 31 - 1) / 4
  height_pos : 0 < height
  height_even : height % 2 = 0
  height_lt : height < 2 ^ 32

theorem PlaneInput.rowStride_of_copied (haccepted : input.accepted allowCopy = true) (hshape : input.shape = input.rows :: input.shape.tail)
    (h : input.Copied) : rowStride input.result = input.rowBytes := by
  simp only [accepted, Bool.and_eq_true, decide_eq_true_eq] at haccepted
  rw [result_of_copied h, haccepted.1.2, hshape]
  rfl

theorem Laid.result (h : Laid width height inputs pixelFormat) (hsize : EncoderSize width height) (hinput : input ∈ inputs)
    (haccepted : input.accepted allowCopy = true) (hstride : InInt32 (rowStride input.plane.toNdArray)) :
    Rowed input.result input.rows input.rowBytes ∧ InInt32 (rowStride input.result) ∧
      (input.rows = 1 ∨ 0 ≤ rowStride input.result) := by
  obtain ⟨hshape, htail, hpos⟩ := h.shape ⟨hsize.width_pos, hsize.width_even⟩ ⟨hsize.height_pos, hsize.height_even⟩ hinput
  have hlt := h.rowBytes_lt hsize.width_le hinput
  obtain ⟨hrowed, hrow⟩ := input.result_rowed haccepted hshape htail hpos
  refine ⟨hrowed, ?_⟩
  rcases hrow with ⟨-, hsame, hpositive⟩ | ⟨hone, hsame⟩ | hbytes
  · rw [hsame] at hpositive ⊢
    exact ⟨hstride, .inr (Int.le_of_lt hpositive)⟩
  · rw [hsame]
    exact ⟨hstride, .inl hone⟩
  · have hbytes' : rowStride input.result = input.rowBytes := hbytes
    unfold InInt32
    omega

variable (pixelFormat memory) in
theorem buildView_fields (hsize : EncoderSize width height) (hpts : -2 ^ 63 ≤ pts ∧ pts < 2 ^ 63) (planes : List NdArray) :
    (buildView planes pixelFormat width height pts memory).width = width ∧
      (buildView planes pixelFormat width height pts memory).height = height ∧
      (buildView planes pixelFormat width height pts memory).pts = pts :=
  ⟨u32_of_lt (by have := hsize.width_le; omega), u32_of_lt hsize.height_lt, Int.bmod_eq_of_le (by omega) (by omega)⟩

theorem Laid.picture (h : Laid width height inputs pixelFormat) (hsize : EncoderSize width height)
    (hpts : -2 ^ 63 ≤ pts ∧ pts < 2 ^ 63) (haccepted : ∀ input ∈ inputs, input.accepted allowCopy = true)
    (hstrides : ∀ input ∈ inputs, InInt32 (rowStride input.plane.toNdArray)) (hfresh : FreshPlaces inputs) :
    (buildView (inputs.map PlaneInput.result) pixelFormat width height pts (finalMemory inputs memory)).picture =
      ⟨pixelFormat, width, height, pts, inputs.map fun input => input.plane.values memory⟩ := by
  obtain ⟨planes, hplanes, hlength, hthree, hat⟩ := h.planes
  obtain ⟨hw, hh, hp⟩ := buildView_fields pixelFormat (finalMemory inputs memory) hsize hpts (inputs.map PlaneInput.result)
  generalize hview : buildView (inputs.map PlaneInput.result) pixelFormat width height pts (finalMemory inputs memory) = view at hw hh hp ⊢
  have hformat : view.pixelFormat = pixelFormat := by rw [← hview]; rfl
  have hcopied : copiedPlanes view.pixelFormat view.width view.height = some planes := by
    rw [FrameView.copiedPlanes_eq (view.rowsFit_of_le (hw ▸ hsize.width_le)), hformat, hw, hh, hplanes]
  rw [FrameView.picture, hcopied, Option.getD_some, hformat, hw, hh, hp]
  congr 1
  apply List.ext_getElem (by simp [hlength])
  intro k hk hk'
  simp only [List.getElem_map]
  have hin : k < inputs.length := by simpa using hk'
  have hplane := hat ⟨k, by omega⟩
  have hpk : k < planes.length := by omega
  rw [List.getElem?_eq_getElem hpk, List.getElem?_eq_getElem hin, Option.map_some] at hplane
  obtain ⟨hrowed, hint, hone⟩ := h.result hsize (List.getElem_mem hin) (haccepted _ (List.getElem_mem hin)) (hstrides _ (List.getElem_mem hin))
  rw [Option.some.inj hplane, ← finalMemory_values hfresh _ (List.getElem_mem hin)]
  rw [← hview]
  exact buildView_visible (by simp [hin]) hrowed hint hone

/-- The check of the encoder looks at the row strides alone. -/
theorem Laid.native (h : Laid width height inputs pixelFormat) (hsize : EncoderSize width height)
    (hpts : -2 ^ 63 ≤ pts ∧ pts < 2 ^ 63) (haccepted : ∀ input ∈ inputs, input.accepted allowCopy = true)
    (hstrides : ∀ input ∈ inputs, InInt32 (rowStride input.plane.toNdArray)) :
    (validateBorrowedFrame (buildView (inputs.map PlaneInput.result) pixelFormat width height pts memory)).result = .ok ↔
      ∀ input ∈ inputs, input.Copied ∨ (input.rowBytes : Int) ≤ rowStride input.plane.toNdArray := by
  obtain ⟨planes, hplanes, hlength, hthree, hat⟩ := h.planes
  obtain ⟨hw, hh, -⟩ := buildView_fields pixelFormat memory hsize hpts (inputs.map PlaneInput.result)
  have hplane (k : Fin 3) (hk : k.val < inputs.length) :
      planes[k.val]? = some (k, inputs[k.val].rowBytes, inputs[k.val].rows) ∧
        ((buildView (inputs.map PlaneInput.result) pixelFormat width height pts memory).planes k.castSucc).isSome = true ∧
        (buildView (inputs.map PlaneInput.result) pixelFormat width height pts memory).strides k.castSucc =
          rowStride inputs[k.val].result := by
    have hmem := List.getElem_mem hk
    have hresult : (inputs.map PlaneInput.result)[k.castSucc.val]? = some inputs[k.val].result := by simp [hk]
    refine ⟨by simp [hat k, hk], ?_, buildView_stride hresult (h.result hsize hmem (haccepted _ hmem) (hstrides _ hmem)).2.1⟩
    simp [buildView, hk]
  have hrow (input : PlaneInput) (hinput : input ∈ inputs) : (input.rowBytes : Int) ≤ rowStride input.result ↔
      input.Copied ∨ (input.rowBytes : Int) ≤ rowStride input.plane.toNdArray := by
    by_cases hcopied : input.Copied
    · have hshape := (h.shape ⟨hsize.width_pos, hsize.width_even⟩ ⟨hsize.height_pos, hsize.height_even⟩ hinput).1
      simp [hcopied, PlaneInput.rowStride_of_copied (haccepted _ hinput) hshape hcopied]
    · simp [hcopied, PlaneInput.result_of_not_copied hcopied]
  rw [validateBorrowedFrame_result (FrameView.rowsFit_of_le _ (by rw [hw]; exact hsize.width_le)), FrameView.HasRows, hw, hh,
    show (buildView (inputs.map PlaneInput.result) pixelFormat width height pts memory).pixelFormat = pixelFormat from rfl, hplanes]
  constructor
  · rintro ⟨-, planes', hplanes', hall⟩ input hinput
    obtain rfl := Option.some.inj hplanes'
    obtain ⟨k, hk, rfl⟩ := List.mem_iff_getElem.mp hinput
    obtain ⟨hget, -, hstride⟩ := hplane ⟨k, by omega⟩ hk
    have hfits := (hall _ (List.mem_of_getElem? hget)).2
    rw [hstride] at hfits
    exact (hrow _ hinput).mp hfits
  · intro hall
    have hwidth := hsize.width_pos
    have hheight := hsize.height_pos
    refine ⟨⟨by omega, by omega, hsize.width_even, hsize.height_even⟩, planes, rfl, fun p hp => ?_⟩
    obtain ⟨k, hk, rfl⟩ := List.mem_iff_getElem.mp hp
    obtain ⟨hget, hsome, hstride⟩ := hplane ⟨k, by omega⟩ (show k < inputs.length by omega)
    have heq : planes[k] = _ := Option.some.inj ((List.getElem?_eq_getElem hk).symm.trans hget)
    rw [heq, hstride]
    exact ⟨hsome, (hrow _ (List.getElem_mem _)).mpr (hall _ (List.getElem_mem _))⟩

variable (memory) in
theorem Laid.describes (h : Laid width height inputs pixelFormat) (hsize : EncoderSize width height)
    (hpts : -2 ^ 63 ≤ pts ∧ pts < 2 ^ 63) (haccepted : ∀ input ∈ inputs, input.accepted allowCopy = true)
    (hstrides : ∀ input ∈ inputs, InInt32 (rowStride input.plane.toNdArray)) (hfresh : FreshPlaces inputs) :
    MadeView.Describes ⟨buildView (inputs.map PlaneInput.result) pixelFormat width height pts (finalMemory inputs memory),
      inputs.map PlaneInput.result, finalMemory inputs memory⟩ inputs pixelFormat width height pts memory where
  picture := h.picture hsize hpts haccepted hstrides hfresh
  elements k input hinput := by
    have hmem := List.mem_of_getElem? hinput
    obtain ⟨hrowed, hint, -⟩ := h.result hsize hmem (haccepted _ hmem) (hstrides _ hmem)
    have hresult : (inputs.map PlaneInput.result)[k.castSucc.val]? = some input.result := by
      change (inputs.map PlaneInput.result)[k.val]? = _
      simp [hinput]
    refine ⟨input.result, hresult, ?_⟩
    rw [buildView_stride hresult hint]
    exact hrowed.addresses
  shared k input hinput hcopied := by simp [hinput, PlaneInput.result_of_not_copied hcopied]
  kept _ hx := finalMemory_outside hx
  native := h.native hsize hpts haccepted hstrides

/-- A frame of arrays is described exactly where its row strides fit their fields, or the first plane that cannot be described is
refused by its fault. Every frame that `make_borrowed_view` takes has the planes of its format. -/
theorem made_view_describes (label : String) (allowCopy : Bool) (width height : Nat) (pts : Int) (memory : Int → UInt8)
    (inputs : List PlaneInput) (pixelFormat : PixelFormat) (hlaid : Laid width height inputs pixelFormat)
    (hsize : EncoderSize width height) (hpts : -2 ^ 63 ≤ pts ∧ pts < 2 ^ 63) :
    ((∀ input ∈ inputs, input.accepted allowCopy = true) → (∀ input ∈ inputs, InInt32 (rowStride input.plane.toNdArray)) →
      FreshPlaces inputs → ∃ made, makeView label allowCopy inputs pixelFormat width height pts memory = .ok made ∧
        made.Describes inputs pixelFormat width height pts memory) ∧
    ((¬ ∀ input ∈ inputs, input.accepted allowCopy = true) →
      ∃ input, inputs.find? (fun input => !input.accepted allowCopy) = some input ∧
        makeView label allowCopy inputs pixelFormat width height pts memory = .error (input.refusal label)) ∧
    ∀ frame format inputs' pixelFormat', borrowedInputs frame format width height = .ok (inputs', pixelFormat') →
      Laid width height inputs' pixelFormat' ∧ makeBorrowedView frame format width height pts allowCopy memory =
        makeView "borrowed" allowCopy inputs' pixelFormat' width height pts memory := by
  refine ⟨fun haccepted hstrides hfresh => ?_, fun hrefused => ?_, fun frame format inputs' pixelFormat' hinputs =>
    ⟨borrowedInputs_laid hinputs, ?_⟩⟩
  · refine ⟨_, ?_, hlaid.describes memory hsize hpts haccepted hstrides hfresh⟩
    rw [makeView, validatePlanes_ok haccepted]
    rfl
  · obtain ⟨input, hfirst, herror⟩ := validatePlanes_error label memory hrefused
    refine ⟨input, hfirst, ?_⟩
    rw [makeView, herror]
    rfl
  · rw [makeBorrowedView, hinputs]
    rfl

end

/-! ## A frame of 4 by 4 pixels -/

/-- A plane with gaps behind its rows, one whose columns run backwards, and one without gaps. -/
def smallInputs : List PlaneInput :=
  i420Inputs (⟨⟨100, [⟨4, 8⟩, ⟨4, 1⟩]⟩, true⟩, 400) (⟨⟨201, [⟨2, 2⟩, ⟨2, -1⟩]⟩, true⟩, 500) (⟨⟨300, [⟨2, 2⟩, ⟨2, 1⟩]⟩, true⟩, 600) 4 4

theorem smallInputs_fresh : FreshPlaces smallInputs := by
  have hcopy (x : Int) (hlow : 500 ≤ x) (hhigh : x < 504) : x = 500 ∨ x = 501 ∨ x = 502 ∨ x = 503 := by omega
  simp only [FreshPlaces, smallInputs, i420Inputs, List.pairwise_cons, List.mem_cons, List.not_mem_nil, or_false, forall_eq_or_imp,
    forall_eq, List.Pairwise.nil, and_true, false_implies, implies_true]
  refine ⟨⟨⟨?_, ?_⟩, ?_, ?_⟩, ?_, ?_⟩ <;> rintro x ⟨⟨hvalid, -⟩, hlow, hhigh⟩
  · exact absurd hvalid (by decide)
  · rcases hcopy x hlow hhigh with rfl | rfl | rfl | rfl <;> exact ⟨by decide, fun h => absurd h.1.1 (by decide)⟩
  · exact absurd hvalid (by decide)
  · exact absurd hvalid (by decide)
  · rcases hcopy x hlow hhigh with rfl | rfl | rfl | rfl <;> exact ⟨by decide, fun h => absurd h.1.1 (by decide)⟩
  · exact absurd hvalid (by decide)

/-- The second plane is copied, the others are used where they are. Without copies it is the first one that is refused. -/
theorem made_view_describes_small : (∃ made,
    makeView "I420" true smallInputs .i420 4 4 40 (fun x => UInt8.ofNat x.toNat) = .ok made ∧
    made.view.picture.visible = [[100, 101, 102, 103, 108, 109, 110, 111, 116, 117, 118, 119, 124, 125, 126, 127],
      [201, 200, 203, 202], [44, 45, 46, 47]] ∧
    made.planes = [⟨100, [⟨4, 8⟩, ⟨4, 1⟩]⟩, ⟨500, [⟨2, 2⟩, ⟨2, 1⟩]⟩, ⟨300, [⟨2, 2⟩, ⟨2, 1⟩]⟩]) ∧
    ∃ input, smallInputs[1]? = some input ∧ makeView "I420" false smallInputs .i420 4 4 40 (fun x => UInt8.ofNat x.toNat) =
      .error (input.refusal "I420") := by
  have hsize : EncoderSize 4 4 := ⟨by decide, by decide, by decide, by decide, by decide, by decide⟩
  constructor
  · obtain ⟨made, hmade, hdescribes⟩ := (made_view_describes "I420" true 4 4 40 (fun x => UInt8.ofNat x.toNat) smallInputs .i420
      (.i420 _ _ _) hsize ⟨by decide, by decide⟩).1 (by decide) (by simp [smallInputs, i420Inputs, InInt32, rowStride])
      smallInputs_fresh
    refine ⟨made, hmade, (congrArg Picture.visible hdescribes.picture).trans (by decide), ?_⟩
    cases hmade
    decide
  · obtain ⟨input, hfirst, herror⟩ := (made_view_describes "I420" false 4 4 40 (fun x => UInt8.ofNat x.toNat) smallInputs .i420
      (.i420 _ _ _) hsize ⟨by decide, by decide⟩).2.1 (by decide)
    exact ⟨input, hfirst, herror⟩

/-- A row stride of 2^32 + 4 is accepted, and the field keeps 4 of it. -/
example : ((makeNv12View 4 2 0 false (fun _ => 0) (⟨⟨0, [⟨2, 2 ^ 32 + 4⟩, ⟨4, 1⟩]⟩, true⟩, 0)
    (⟨⟨0, [⟨1, 4⟩, ⟨4, 1⟩]⟩, true⟩, 0)).toOption.map fun made => made.view.strides 0) = some 4 := by decide

end MkvCodec.Python
