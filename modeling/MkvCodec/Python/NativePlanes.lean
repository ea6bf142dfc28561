import MkvCodec.Frame.Composition
import MkvCodec.Frame.PlanarCopy
import MkvCodec.Python.FrameViews

/-!
# Native frames as NumPy arrays

The arrays of `BorrowedCpuFrame` and `CpuBuffer` share their memory with a decoded frame or with a slot of a pool; those of
`frame_outputs.py` are copies. Both can be given to an encoder.
-/

namespace MkvCodec.Python

open Decoder (DecodedFrame)
open Raster (Placed)
open Strided

/-! ## Shared memory -/

/-- The planes of `CpuBuffer._layouts`, each with its shape and the bytes of a row. -/
def bufferLayouts (format : PixelFormat) (width height : Nat) : Option (List (Fin 3 × List Nat × Nat)) :=
  match format with
  | .i420 => some [(0, [height, width], width), (1, [height / 2, width / 2], width / 2), (2, [height / 2, width / 2], width / 2)]
  | .nv12 => some [(0, [height, width], width), (1, [height / 2, width], width)]
  | .bgr24 | .rgb24 => some [(0, [height, width, 3], width * 3)]
  | .bgra32 => some [(0, [height, width, 4], width * 4)]
  | .p010 | .unknown _ => none

/-- The array of a plane: the rows with their padding, then their first bytes, then the channels. -/
def planeArray (address : Nat) (stride : Nat) (shape : List Nat) (columnBytes : Nat) : NdArray :=
  let rows := shape.headD 0
  let plane := ((NdArray.vector address (stride * rows)).reshape [rows, stride]).columns columnBytes
  if shape.length = 2 then plane else plane.split (shape.getLastD 1)

/-- The arrays of the planes of a view; `error` is raised for a plane that is missing or too narrow. -/
def nativePlanes (error : String) (view : MutableFrameView) : List (Fin 3 × List Nat × Nat) → Except String (List NdArray)
  | [] => .ok []
  | (index, shape, columnBytes) :: rest =>
      match view.planes index.castSucc with
      | none => .error error
      | some address =>
          if view.strides index.castSucc < columnBytes then .error error
          else (nativePlanes error view rest).map fun arrays =>
            planeArray address (view.strides index.castSucc).toNat shape columnBytes :: arrays

/-- `BorrowedCpuFrame.planes`. -/
def borrowedCpuFrame (view : MutableFrameView) : Except String (List NdArray) :=
  if view.pixelFormat ≠ .i420 then .error "native decoder returned a non-I420 frame"
  else nativePlanes "native decoder returned an invalid I420 plane" view ((bufferLayouts .i420 view.width view.height).getD [])

/-- `CpuBuffer.planes`, for the format and the size in the descriptor of the buffer. -/
def cpuBuffer (format : PixelFormat) (width height : Nat) (view : MutableFrameView) : Except String (List NdArray) :=
  match bufferLayouts format width height with
  | none => .error "native CPU pool returned an unsupported format"
  | some layouts => nativePlanes "native CPU pool returned an invalid plane" view layouts

/-- The text of `CpuBuffer.format`. -/
def formatText : PixelFormat → String
  | .i420 => "i420"
  | .nv12 => "nv12"
  | .bgr24 => "bgr"
  | .rgb24 => "rgb"
  | .bgra32 => "bgra"
  | .p010 | .unknown _ => ""

/-- Arrays as they are given to `make_borrowed_view`: `array` where there is one plane, else `planes`. NumPy would put copies at
`place`. -/
def handed (arrays : List NdArray) (place : Int) : FrameInput :=
  match arrays with
  | [array] => .array (⟨array, true⟩, place)
  | planes => .tuple (planes.map fun plane => (⟨plane, true⟩, place))

/-! ## Decoded frames -/

/-- `mkvc_frame_get_view` of a frame with its pixels at `base`. -/
def decodedView (source : DecodedFrame) (base : Nat) : MutableFrameView where
  pixelFormat := .i420
  width := source.width
  height := source.height
  planes := ![some (base + source.offsets 0), some (base + source.offsets 1), some (base + source.offsets 2), none]
  strides := ![source.strides 0, source.strides 1, source.strides 2, 0]
  pts := source.ptsNs

/-- The arrays of `np.empty` for the planes of a format. -/
def emptyPlanes (format : PixelFormat) (width height : Nat) (places : Fin 3 → Nat) : List NdArray :=
  ((bufferLayouts format width height).getD []).map fun layout => ⟨places layout.1, pack layout.2.1⟩

/-- The destination for a copy into arrays. -/
def copyDestination (format : PixelFormat) (view : MutableFrameView) (arrays : List NdArray) : MutableFrameView where
  pixelFormat := format
  width := view.width
  height := view.height
  planes i := arrays[i.val]?.map fun array => array.address.toNat
  strides i := ((arrays[i.val]?.bind fun array => array.axes.head?).map fun axis => axis.stride.bmod (2 ^ 32)).getD 0
  pts := 0

/-- The planes of a frame in new arrays, with its timestamp. -/
def copyPlanes (format : PixelFormat) (source : DecodedFrame) (view : MutableFrameView) (places : Fin 3 → Nat) (memory : Int → UInt8) :
    Option (Except String (List NdArray × Int × (Int → UInt8))) :=
  (copyPlanarFrame source (copyDestination format view (emptyPlanes format view.width view.height places)) memory).map fun copied =>
    if copied.1.result = .ok then .ok (emptyPlanes format view.width view.height places, copied.2.1.pts, copied.2.2)
    else .error copied.1.error

def copyI420 := copyPlanes .i420

def copyNv12 := copyPlanes .nv12

section

variable {a : NdArray} {rows rowBytes width height : Nat} {memory : Int → UInt8} {view : MutableFrameView} {format : PixelFormat}
  {layouts : List (Fin 3 × List Nat × Nat)} {layout : Fin 3 × List Nat × Nat} {arrays : List NdArray} {error : String}

theorem Rowed.values (h : Rowed a rows rowBytes) (memory : Int → UInt8) :
    a.values memory = RowMajor.store rows rowBytes fun row column => memory (a.address + row * rowStride a + column) := by
  rw [NdArray.values, h.addresses, RowMajor.store_map]

/-- The shape that belongs to rows of a number of bytes. -/
def RowShape (shape : List Nat) (rows rowBytes : Nat) : Prop :=
  shape = [rows, rowBytes] ∨ ∃ pixels channels, shape = [rows, pixels, channels] ∧ 0 < channels ∧ rowBytes = pixels * channels

theorem RowShape.eq_cons {shape : List Nat} (h : RowShape shape rows rowBytes) : ∃ row, shape = rows :: row ∧ row.prod = rowBytes := by
  rcases h with rfl | ⟨pixels, channels, rfl, -, rfl⟩
  · exact ⟨[rowBytes], rfl, by simp⟩
  · exact ⟨[pixels, channels], rfl, by simp⟩

theorem planeArray_rowed (address : Nat) {stride : Nat} {shape : List Nat} (h : RowShape shape rows rowBytes) (hstride : rowBytes ≤ stride) :
    Rowed (planeArray address stride shape rowBytes) rows rowBytes ∧ rowStride (planeArray address stride shape rowBytes) = stride ∧
      (planeArray address stride shape rowBytes).shape = shape := by
  rcases h with rfl | ⟨pixels, channels, rfl, hchannels, rfl⟩
  · refine ⟨⟨stride, [⟨rowBytes, 1⟩], ?_, by simp [packed, size], by simp [size]⟩, ?_, ?_⟩ <;>
      simp [planeArray, NdArray.vector, NdArray.reshape, NdArray.columns, NdArray.shape, pack, rowStride, hstride]
  · refine ⟨⟨stride, [⟨pixels, channels⟩, ⟨channels, 1⟩], ?_, by simp [packed, size], by simp [size]⟩, ?_, ?_⟩ <;>
      simp [planeArray, NdArray.vector, NdArray.reshape, NdArray.columns, NdArray.split, NdArray.shape, pack, rowStride, hstride,
        Nat.mul_div_cancel _ hchannels]

theorem planeArray_validStrides {address stride : Nat} {shape : List Nat} (h : RowShape shape rows rowBytes) (hpos : 0 < stride) :
    validStrides (planeArray address stride shape rowBytes).axes = true := by
  rcases h with rfl | ⟨pixels, channels, rfl, hchannels, rfl⟩ <;>
    simp [planeArray, NdArray.vector, NdArray.reshape, NdArray.columns, NdArray.split, pack, validStrides, hpos]

theorem planeArray_address (address stride : Nat) (shape : List Nat) (columnBytes : Nat) :
    (planeArray address stride shape columnBytes).address = address := by
  unfold planeArray
  dsimp only
  split <;> rfl

theorem bufferLayouts_planes (format : PixelFormat) (width height : Nat) :
    format.planes width height = (bufferLayouts format width height).map fun layouts =>
      layouts.map fun layout => (layout.1, layout.2.2, layout.2.1.headD 0) := by
  cases format <;> rfl

theorem bufferLayouts_shape (h : bufferLayouts format width height = some layouts) (hlayout : layout ∈ layouts) :
    RowShape layout.2.1 (layout.2.1.headD 0) layout.2.2 := by
  unfold bufferLayouts at h
  split at h <;> cases h <;> simp only [List.mem_cons, List.not_mem_nil, or_false] at hlayout
  · rcases hlayout with rfl | rfl | rfl <;> exact .inl rfl
  · rcases hlayout with rfl | rfl <;> exact .inl rfl
  · subst hlayout
    exact .inr ⟨width, 3, rfl, by omega, rfl⟩
  · subst hlayout
    exact .inr ⟨width, 3, rfl, by omega, rfl⟩
  · subst hlayout
    exact .inr ⟨width, 4, rfl, by omega, rfl⟩

theorem bufferLayouts_rowBytes (h : bufferLayouts format width height = some layouts) (hlayout : layout ∈ layouts) :
    width / 2 ≤ layout.2.2 ∧ layout.2.2 ≤ width * 4 := by
  unfold bufferLayouts at h
  split at h <;> cases h <;> simp only [List.mem_cons, List.not_mem_nil, or_false] at hlayout
  · rcases hlayout with rfl | rfl | rfl <;> dsimp only <;> omega
  · rcases hlayout with rfl | rfl <;> dsimp only <;> omega
  all_goals
    subst hlayout
    dsimp only
    omega

theorem bufferLayouts_pos (h : bufferLayouts format width height = some layouts) (hsize : EncoderSize width height)
    (hlayout : layout ∈ layouts) : 0 < layout.2.2 := by
  have hpos := hsize.width_pos
  have heven := hsize.width_even
  have hrow := (bufferLayouts_rowBytes h hlayout).1
  omega

/-- The array of a layout. -/
def layoutArray (view : MutableFrameView) (layout : Fin 3 × List Nat × Nat) : NdArray :=
  planeArray ((view.planes layout.1.castSucc).getD 0) (view.strides layout.1.castSucc).toNat layout.2.1 layout.2.2

/-- The plane of a layout is there and has room for a row in its stride. -/
def HasPlane (view : MutableFrameView) (layout : Fin 3 × List Nat × Nat) : Prop :=
  (view.planes layout.1.castSucc).isSome = true ∧ (layout.2.2 : Int) ≤ view.strides layout.1.castSucc

theorem nativePlanes_ok (h : ∀ layout ∈ layouts, HasPlane view layout) :
    nativePlanes error view layouts = .ok (layouts.map (layoutArray view)) := by
  induction layouts with
  | nil => rfl
  | cons layout layouts ih =>
      obtain ⟨index, shape, columnBytes⟩ := layout
      obtain ⟨⟨hsome, hstride⟩, hrest⟩ := List.forall_mem_cons.mp h
      obtain ⟨address, haddress⟩ := Option.isSome_iff_exists.mp hsome
      simp only at haddress hstride
      simp only [nativePlanes, haddress, if_neg (Int.not_lt.mpr hstride), ih hrest, Except.map, List.map_cons, layoutArray,
        Option.getD_some]

theorem nativePlanes_error (h : ¬ ∀ layout ∈ layouts, HasPlane view layout) : nativePlanes error view layouts = .error error := by
  induction layouts with
  | nil => simp at h
  | cons layout layouts ih =>
      obtain ⟨index, shape, columnBytes⟩ := layout
      rw [nativePlanes]
      cases haddress : view.planes index.castSucc with
      | none => rfl
      | some address =>
          by_cases hnarrow : view.strides index.castSucc < columnBytes
          · simp [hnarrow]
          · have hfirst : HasPlane view (index, shape, columnBytes) := ⟨by simp [haddress], Int.not_lt.mp hnarrow⟩
            simp only [hnarrow, if_false, ih fun hall => h (List.forall_mem_cons.mpr ⟨hfirst, hall⟩), Except.map]

theorem borrowedCpuFrame_ok (hformat : view.pixelFormat = .i420)
    (hlayouts : bufferLayouts view.pixelFormat view.width view.height = some layouts) (h : ∀ layout ∈ layouts, HasPlane view layout) :
    borrowedCpuFrame view = .ok (layouts.map (layoutArray view)) := by
  rw [hformat] at hlayouts
  rw [borrowedCpuFrame, if_neg (not_not.mpr hformat), hlayouts, Option.getD_some, nativePlanes_ok h]

/-- An array shows its plane of the frame, whatever is in the memory. -/
theorem layoutArray_values (hshape : RowShape layout.2.1 rows layout.2.2) (hplane : HasPlane view layout) (memory : Int → UInt8) :
    (layoutArray view layout).values memory = (view.frameView memory).visiblePlane layout.1 layout.2.2 rows := by
  obtain ⟨hsome, hstride⟩ := hplane
  obtain ⟨address, haddress⟩ := Option.isSome_iff_exists.mp hsome
  have hwide : layout.2.2 ≤ (view.strides layout.1.castSucc).toNat := by omega
  obtain ⟨hrowed, hrow, -⟩ := planeArray_rowed address hshape hwide
  have harray : layoutArray view layout = planeArray address (view.strides layout.1.castSucc).toNat layout.2.1 layout.2.2 := by
    rw [layoutArray, haddress, Option.getD_some]
  rw [harray, hrowed.values, hrow, planeArray_address]
  simp only [FrameView.visiblePlane, MutableFrameView.frameView, haddress, Option.map_some, Plane.rows]
  apply RowMajor.store_congr
  intro row _ column _
  congr 1
  push_cast
  omega

theorem shown_of_layouts (hlayouts : bufferLayouts view.pixelFormat view.width view.height = some layouts) (memory : Int → UInt8) :
    (view.frameView memory).shown =
      layouts.map fun layout => (view.frameView memory).visiblePlane layout.1 layout.2.2 (layout.2.1.headD 0) := by
  rw [FrameView.shown, show (view.frameView memory).pixelFormat.planes (view.frameView memory).width (view.frameView memory).height =
    _ from bufferLayouts_planes view.pixelFormat view.width view.height, hlayouts]
  rw [Option.map_some, Option.getD_some, List.map_map]
  rfl

theorem layoutArrays_shown (hlayouts : bufferLayouts view.pixelFormat view.width view.height = some layouts)
    (hall : ∀ layout ∈ layouts, HasPlane view layout) (memory : Int → UInt8) :
    (layouts.map (layoutArray view)).map (fun array => array.values memory) = (view.frameView memory).shown := by
  rw [shown_of_layouts hlayouts, List.map_map]
  exact List.map_congr_left fun layout hlayout =>
    layoutArray_values (bufferLayouts_shape hlayouts hlayout) (hall layout hlayout) memory

/-! ## Handing arrays over -/

theorem valid_iff (memory : Int → UInt8) (hlayouts : bufferLayouts view.pixelFormat view.width view.height = some layouts)
    (hsize : EncoderSize view.width view.height) (hlt : ∀ i, view.strides i < 2 ^ 31) :
    (view.frameView memory).Valid ↔ ∀ layout ∈ layouts, HasPlane view layout := by
  have hplanes : view.pixelFormat.planes view.width view.height =
      some (layouts.map fun layout => (layout.1, layout.2.2, layout.2.1.headD 0)) := by
    rw [bufferLayouts_planes, hlayouts]
    rfl
  have hplane (layout : Fin 3 × List Nat × Nat) : ((view.frameView memory).planes layout.1.castSucc).isSome =
      (view.planes layout.1.castSucc).isSome := by simp [MutableFrameView.frameView]
  constructor
  · intro hvalid layout hlayout
    obtain ⟨planes, hplanes', hall⟩ := hvalid.planes
    obtain rfl := Option.some.inj (hplanes.symm.trans hplanes')
    obtain ⟨hsome, hstride, -⟩ := hall _ (List.mem_map_of_mem hlayout)
    exact ⟨(hplane layout).symm.trans hsome, hstride⟩
  · intro hall
    refine ⟨hsize.width_pos, hsize.height_pos, hsize.width_even, hsize.height_even, _, hplanes, ?_⟩
    simp only [List.forall_mem_map]
    intro layout hlayout
    obtain ⟨hsome, hstride⟩ := hall layout hlayout
    exact ⟨(hplane layout).trans hsome, hstride, hlt _⟩

/-- The arrays of a native frame are the planes that `make_borrowed_view` expects. -/
theorem borrowedInputs_handed (hlayouts : bufferLayouts format width height = some layouts) (arrayOf : Fin 3 × List Nat × Nat → NdArray)
    (place : Int) : borrowedInputs (handed (layouts.map arrayOf) place) (formatText format) width height =
      .ok (layouts.map fun layout => ⟨⟨arrayOf layout, true⟩, layout.2.1, place⟩, format) := by
  cases format <;> cases hlayouts <;> rfl

/-- The array of a layout as it is given to `make_borrowed_view`. -/
def layoutInput (view : MutableFrameView) (place : Int) (layout : Fin 3 × List Nat × Nat) : PlaneInput :=
  ⟨⟨layoutArray view layout, true⟩, layout.2.1, place⟩

/-- The arrays are used where they are. -/
theorem layoutInput_plain (hshape : RowShape layout.2.1 rows layout.2.2) (hpos : 0 < layout.2.2) (hplane : HasPlane view layout)
    (allowCopy : Bool) (place : Int) :
    (layoutInput view place layout).accepted allowCopy = true ∧ ¬ (layoutInput view place layout).Copied ∧
      rowStride (layoutArray view layout) = view.strides layout.1.castSucc ∧ (layoutInput view place layout).rowBytes = layout.2.2 := by
  have hstride := hplane.2
  have hwide : layout.2.2 ≤ (view.strides layout.1.castSucc).toNat := by omega
  obtain ⟨-, hrow, hsame⟩ := planeArray_rowed ((view.planes layout.1.castSucc).getD 0) hshape hwide
  have hvalid : validStrides (layoutArray view layout).axes = true := planeArray_validStrides hshape (by omega)
  refine ⟨?_, fun hcopied => ?_, hrow.trans (Int.toNat_of_nonneg (by omega)), ?_⟩
  · simp [layoutInput, PlaneInput.accepted, hvalid, show (layoutArray view layout).shape = layout.2.1 from hsame]
  · have hnot := hcopied.1
    simp only [layoutInput, hvalid] at hnot
    cases hnot
  · obtain ⟨row, hcons, hbytes⟩ := hshape.eq_cons
    simp only [layoutInput, PlaneInput.rowBytes, hcons, List.tail_cons, hbytes]

/-- A view of a picture through certain arrays. Nothing has been copied, and the encoder takes the view. -/
structure MadeView.Shares (made : MadeView) (arrays : List NdArray) (picture : Picture) (memory : Int → UInt8) : Prop where
  planes : made.planes = arrays
  memory : made.memory = memory
  picture : made.view.picture = picture
  native : (validateBorrowedFrame made.view).result = .ok

theorem handed_shares {pts : Int} (hlayouts : bufferLayouts view.pixelFormat view.width view.height = some layouts)
    (hsize : EncoderSize view.width view.height) (hlt : ∀ i, view.strides i < 2 ^ 31) (hpts : -2 ^ 63 ≤ pts ∧ pts < 2 ^ 63)
    (hall : ∀ layout ∈ layouts, HasPlane view layout) (allowCopy : Bool) (memory : Int → UInt8) (place : Int) :
    ∃ made, makeBorrowedView (handed (layouts.map (layoutArray view)) place) (formatText view.pixelFormat) view.width view.height pts
        allowCopy memory = .ok made ∧
      made.Shares (layouts.map (layoutArray view))
        ⟨view.pixelFormat, view.width, view.height, pts, (view.frameView memory).shown⟩ memory := by
  have hinputs : borrowedInputs (handed (layouts.map (layoutArray view)) place) (formatText view.pixelFormat) view.width view.height =
      .ok (layouts.map (layoutInput view place), view.pixelFormat) := borrowedInputs_handed hlayouts (layoutArray view) place
  have hplain (layout : Fin 3 × List Nat × Nat) (hlayout : layout ∈ layouts) :=
    layoutInput_plain (bufferLayouts_shape hlayouts hlayout) (bufferLayouts_pos hlayouts hsize hlayout) (hall layout hlayout) allowCopy
      place
  have haccepted : ∀ input ∈ layouts.map (layoutInput view place), input.accepted allowCopy = true :=
    List.forall_mem_map.mpr fun layout hlayout => (hplain layout hlayout).1
  have hcopied : ∀ input ∈ layouts.map (layoutInput view place), ¬ input.Copied :=
    List.forall_mem_map.mpr fun layout hlayout => (hplain layout hlayout).2.1
  have hstrides : ∀ input ∈ layouts.map (layoutInput view place), InInt32 (rowStride input.plane.toNdArray) := by
    rw [List.forall_mem_map]
    intro layout hlayout
    obtain ⟨-, -, hstride, -⟩ := hplain layout hlayout
    have hlow := (hall layout hlayout).2
    have hhigh := hlt layout.1.castSucc
    simp only [layoutInput, InInt32, hstride]
    omega
  obtain ⟨hfresh, hmemory, hresults⟩ := uncopied hcopied memory
  have hdescribes := (borrowedInputs_laid hinputs).describes memory hsize hpts haccepted hstrides hfresh
  refine ⟨⟨buildView ((layouts.map (layoutInput view place)).map PlaneInput.result) view.pixelFormat view.width view.height pts
    (finalMemory (layouts.map (layoutInput view place)) memory), (layouts.map (layoutInput view place)).map PlaneInput.result,
    finalMemory (layouts.map (layoutInput view place)) memory⟩, ?_, ?_, hmemory, ?_, ?_⟩
  · rw [makeBorrowedView, hinputs]
    change makeView "borrowed" allowCopy (layouts.map (layoutInput view place)) view.pixelFormat view.width view.height pts memory = _
    rw [makeView, validatePlanes_ok haccepted]
    rfl
  · rw [hresults, List.map_map]
    rfl
  · refine hdescribes.picture.trans ?_
    rw [← layoutArrays_shown hlayouts hall memory, List.map_map, List.map_map]
    rfl
  · refine hdescribes.native.mpr (List.forall_mem_map.mpr fun layout hlayout => .inr ?_)
    obtain ⟨-, -, hstride, hbytes⟩ := hplain layout hlayout
    rw [hbytes]
    exact (hall layout hlayout).2.trans_eq hstride.symm

/-- The arrays of a buffer are there just where the encoder takes its frame. They show the bytes of the frame whatever is in the
memory; given to the encoder they are that frame again, and nothing is copied. -/
theorem buffer_arrays_shared (view : MutableFrameView) (pts : Int) (allowCopy : Bool) (memory : Int → UInt8) (place : Int)
    (hsize : EncoderSize view.width view.height) (hlt : ∀ i, view.strides i < 2 ^ 31) (hpts : -2 ^ 63 ≤ pts ∧ pts < 2 ^ 63) :
    ((validateBorrowedFrame (view.frameView memory)).result = .ok ↔ (view.frameView memory).Valid) ∧
    ((view.frameView memory).Valid → ∃ arrays, cpuBuffer view.pixelFormat view.width view.height view = .ok arrays ∧
      (∀ memory, arrays.map (fun array => array.values memory) = (view.frameView memory).shown) ∧
      ∃ made, makeBorrowedView (handed arrays place) (formatText view.pixelFormat) view.width view.height pts allowCopy memory =
          .ok made ∧
        made.Shares arrays ⟨view.pixelFormat, view.width, view.height, pts, (view.frameView memory).shown⟩ memory) ∧
    (¬ (view.frameView memory).Valid → ∃ text, cpuBuffer view.pixelFormat view.width view.height view = .error text) := by
  have hrows : (view.frameView memory).RowsFit (view.frameView memory).width := FrameView.rowsFit_of_le _ hsize.width_le
  refine ⟨validateBorrowedFrame_valid hrows hlt, ?_⟩
  cases hlayouts : bufferLayouts view.pixelFormat view.width view.height with
  | none =>
      refine ⟨fun hvalid => ?_, fun _ => ⟨_, by rw [cpuBuffer, hlayouts]⟩⟩
      obtain ⟨planes, hplanes, -⟩ := hvalid.planes
      have hnone := bufferLayouts_planes view.pixelFormat view.width view.height
      rw [hlayouts] at hnone
      exact absurd (hnone.symm.trans hplanes) (by simp)
  | some layouts =>
      have hvalid := valid_iff memory hlayouts hsize hlt
      refine ⟨fun h => ?_, fun h => ⟨"native CPU pool returned an invalid plane", ?_⟩⟩
      · have hall := hvalid.mp h
        obtain ⟨made, hmade, hshares⟩ := handed_shares hlayouts hsize hlt hpts hall allowCopy memory place
        refine ⟨layouts.map (layoutArray view), by rw [cpuBuffer, hlayouts]; exact nativePlanes_ok hall, fun memory => ?_, made, hmade,
          hshares⟩
        exact layoutArrays_shown hlayouts hall memory
      · rw [cpuBuffer, hlayouts]
        exact nativePlanes_error fun hall => h (hvalid.mpr hall)

end

/-! ## Decoded frames again -/

section

variable {source : DecodedFrame} {base : Nat} {memory : Int → UInt8} {places : Fin 3 → Nat} {format : PixelFormat}
  {images : List (Fin 3 × Int × Raster UInt8)} {layouts : List (Fin 3 × List Nat × Nat)} {view : MutableFrameView}

/-- The pixels of a frame are in the memory. -/
def Loaded (source : DecodedFrame) (base : Nat) (memory : Int → UInt8) : Prop :=
  ∀ k < source.pixels.length, memory (base + k) = source.pixels.getD k 0

theorem decodedView_plane (source : DecodedFrame) (base : Nat) (i : Fin 3) :
    (decodedView source base).planes i.castSucc = some (base + source.offsets i) ∧
      (decodedView source base).strides i.castSucc = source.strides i := by
  match i with
  | 0 => exact ⟨rfl, rfl⟩
  | 1 => exact ⟨rfl, rfl⟩
  | 2 => exact ⟨rfl, rfl⟩

theorem decodedView_visible (hheld : Held source) (hloaded : Loaded source base memory) (i : Fin 3) :
    ((decodedView source base).frameView memory).visiblePlane i (subsampled i source.width) (subsampled i source.height) =
      (DecodedFrame.raster source i).bytes := by
  obtain ⟨hplane, hstride⟩ := decodedView_plane source base i
  simp only [FrameView.visiblePlane, MutableFrameView.frameView, hplane, hstride, Option.map_some, Plane.rows, Raster.bytes]
  apply RowMajor.store_congr
  intro row hr column hc
  have hbyte := hloaded _ (hheld i row hr column hc)
  simp only [DecodedFrame.raster, DecodedFrame.byte]
  rw [← hbyte]
  congr 1
  push_cast
  omega

theorem i420Images_raster {image : Fin 3 × Int × Raster UInt8} (h : image ∈ i420Images source) :
    image.2.2 = DecodedFrame.raster source image.1 := by
  simp only [i420Images, List.mem_cons, List.not_mem_nil, or_false] at h
  rcases h with rfl | rfl | rfl <;> rfl

theorem encoderSize_of_allocatable (hsize : allocatable (DecodedFrame.size source) = true) (hwidth : source.width ≤ (2 ^ 31 - 1) / 4) :
    EncoderSize source.width source.height := by
  obtain ⟨⟨hw, hw'⟩, ⟨hh, hh'⟩, -, hlt⟩ := allocatable_iff.mp hsize
  exact ⟨Nat.pos_of_ne_zero hw, hw', hwidth, Nat.pos_of_ne_zero hh, hh', by change source.height < 2 ^ 31 at hlt; omega⟩

/-- A decoded frame in the planar formats. -/
def planarImages (source : DecodedFrame) : PixelFormat → List (Fin 3 × Int × Raster UInt8)
  | .nv12 => nv12Images source
  | _ => i420Images source

/-- The layout of an image. -/
def imageLayout (image : Fin 3 × Int × Raster UInt8) : Fin 3 × List Nat × Nat :=
  (image.1, [image.2.2.height, image.2.2.width], image.2.2.width)

theorem planar_layouts (hplanar : format = .i420 ∨ format = .nv12) (hsize : allocatable (DecodedFrame.size source) = true) :
    bufferLayouts format source.width source.height = some ((planarImages source format).map imageLayout) ∧
      ∀ image ∈ planarImages source format, image.2.1 = image.2.2.width := by
  obtain ⟨⟨-, hwidth⟩, -, hlt, -⟩ := allocatable_iff.mp hsize
  change source.width < 2 ^ 31 at hlt
  obtain ⟨⟨hw₁, hh₁⟩, ⟨hw₂, hh₂⟩, hw, hh⟩ := raster_sizes hsize
  have hint : (asInt32 source.width).tdiv 2 = (source.width / 2 : Nat) := by
    rw [asInt32_of_lt hlt]
    exact Int.tdiv_eq_ediv_of_nonneg (Int.natCast_nonneg _)
  rcases hplanar with rfl | rfl
  · simp only [planarImages, i420Images, List.map_cons, List.map_nil, imageLayout, hw₁, hh₁, hw₂, hh₂, List.mem_cons,
      List.not_mem_nil, or_false, forall_eq_or_imp, forall_eq]
    exact ⟨rfl, asInt32_of_lt hlt, hint, hint⟩
  · simp only [planarImages, nv12Images, List.map_cons, List.map_nil, imageLayout, hw, hh, List.mem_cons, List.not_mem_nil, or_false,
      forall_eq_or_imp, forall_eq]
    exact ⟨rfl, asInt32_of_lt hlt, asInt32_of_lt hlt⟩

theorem shown_of_images (hlayouts : bufferLayouts view.pixelFormat view.width view.height = some (images.map imageLayout))
    (h : ∀ image ∈ images, (view.frameView memory).visiblePlane image.1 image.2.2.width image.2.2.height = image.2.2.bytes) :
    (view.frameView memory).shown = images.map fun image => image.2.2.bytes := by
  rw [shown_of_layouts hlayouts, List.map_map]
  exact List.map_congr_left h

theorem planeArray_tight {address rows rowBytes : Nat} {shape : List Nat} (h : RowShape shape rows rowBytes) :
    planeArray address rowBytes shape rowBytes = ⟨address, pack shape⟩ := by
  rcases h with rfl | ⟨pixels, channels, rfl, hchannels, rfl⟩ <;>
    simp [planeArray, NdArray.vector, NdArray.reshape, NdArray.columns, NdArray.split, pack, Nat.mul_div_cancel _, *]

theorem bufferLayouts_index {width height : Nat} (h : bufferLayouts format width height = some layouts)
    {layout : Fin 3 × List Nat × Nat} (hlayout : layout ∈ layouts) : layouts[layout.1.val]? = some layout := by
  unfold bufferLayouts at h
  split at h <;> cases h <;> simp only [List.mem_cons, List.not_mem_nil, or_false] at hlayout
  · rcases hlayout with rfl | rfl | rfl <;> rfl
  · rcases hlayout with rfl | rfl <;> rfl
  all_goals
    subst hlayout
    rfl

variable (places) in
/-- New arrays are the arrays of the view that the copy is given. -/
theorem copyDestination_plane (hlayouts : bufferLayouts format view.width view.height = some layouts)
    (hsize : EncoderSize view.width view.height) {layout : Fin 3 × List Nat × Nat} (hlayout : layout ∈ layouts) :
    (copyDestination format view (emptyPlanes format view.width view.height places)).planes layout.1.castSucc = some (places layout.1) ∧
      (copyDestination format view (emptyPlanes format view.width view.height places)).strides layout.1.castSucc = layout.2.2 ∧
      layoutArray (copyDestination format view (emptyPlanes format view.width view.height places)) layout =
        ⟨places layout.1, pack layout.2.1⟩ := by
  have hshape := bufferLayouts_shape hlayouts hlayout
  have hget : (emptyPlanes format view.width view.height places)[layout.1.val]? = some ⟨places layout.1, pack layout.2.1⟩ := by
    rw [emptyPlanes, hlayouts, Option.getD_some, List.getElem?_map, bufferLayouts_index hlayouts hlayout]
    rfl
  have hlt : layout.2.2 < 2 ^ 31 := by
    have hwidth := hsize.width_le
    have hrow := (bufferLayouts_rowBytes hlayouts hlayout).2
    omega
  have hplane : (copyDestination format view (emptyPlanes format view.width view.height places)).planes layout.1.castSucc =
      some (places layout.1) := by
    simp [copyDestination, hget]
  have hhead : (pack layout.2.1).head?.map Axis.stride = some (layout.2.2 : Int) := by
    obtain ⟨row, hrow, hbytes⟩ := hshape.eq_cons
    rw [hrow, ← hbytes]
    rfl
  have hstride : (copyDestination format view (emptyPlanes format view.width view.height places)).strides layout.1.castSucc =
      layout.2.2 := by
    obtain ⟨axis, haxis, hvalue⟩ := Option.map_eq_some_iff.mp hhead
    have hint : InInt32 layout.2.2 := by
      unfold InInt32
      omega
    simp only [copyDestination, Fin.val_castSucc, hget, Option.bind_some, haxis, Option.map_some, Option.getD_some, hvalue,
      bmod_of_inInt32 hint]
  refine ⟨hplane, hstride, ?_⟩
  rw [layoutArray, hplane, hstride, Option.getD_some, Int.toNat_natCast, planeArray_tight hshape]

theorem row_bounds {row height : Nat} (width : Nat) (h : row < height) :
    0 ≤ (row : Int) * width ∧ (row : Int) * width + width ≤ (height * width : Nat) := by
  have hle : (row + 1) * width ≤ height * width := Nat.mul_le_mul_right _ h
  rw [Nat.add_mul, Nat.one_mul] at hle
  exact ⟨Int.mul_nonneg (Int.natCast_nonneg _) (Int.natCast_nonneg _), by exact_mod_cast hle⟩

theorem placed_apart {p q : Placed UInt8} (hp : p.stride = p.image.width) (hq : q.stride = q.image.width)
    (h : Block.Apart p.address (p.image.height * p.image.width) q.address (q.image.height * q.image.width)) : p.Apart q := by
  intro i hi j hj
  obtain ⟨hi₀, hi'⟩ := row_bounds p.image.width hi
  obtain ⟨hj₀, hj'⟩ := row_bounds q.image.width hj
  simp only [Block.Apart, Placed.rowAddress, hp, hq] at h ⊢
  omega

/-- New arrays lie apart. -/
def PlacesApart (arrays : List NdArray) : Prop :=
  arrays.Pairwise fun a b => Block.Apart a.address (size a.axes) b.address (size b.axes)

/-- The destination of a copy of a decoded frame. -/
def decodedDestination (format : PixelFormat) (source : DecodedFrame) (base : Nat) (places : Fin 3 → Nat) : MutableFrameView :=
  copyDestination format (decodedView source base) (emptyPlanes format source.width source.height places)

variable (base places) in
theorem decodedDestination_plane (hplanar : format = .i420 ∨ format = .nv12) (hsize : allocatable (DecodedFrame.size source) = true)
    (hwidth : source.width ≤ (2 ^ 31 - 1) / 4) {image : Fin 3 × Int × Raster UInt8} (himage : image ∈ planarImages source format) :
    (decodedDestination format source base places).planes image.1.castSucc = some (places image.1) ∧
      (decodedDestination format source base places).strides image.1.castSucc = image.2.2.width ∧
      layoutArray (decodedDestination format source base places) (imageLayout image) =
        ⟨places image.1, pack [image.2.2.height, image.2.2.width]⟩ := by
  have hlayouts : bufferLayouts format (decodedView source base).width (decodedView source base).height =
    some ((planarImages source format).map imageLayout) := (planar_layouts hplanar hsize).1
  have hencoder : EncoderSize (decodedView source base).width (decodedView source base).height :=
    encoderSize_of_allocatable hsize hwidth
  exact copyDestination_plane places hlayouts hencoder (List.mem_map_of_mem himage)

theorem emptyPlanes_planar (hplanar : format = .i420 ∨ format = .nv12) (hsize : allocatable (DecodedFrame.size source) = true) :
    emptyPlanes format source.width source.height places =
      (planarImages source format).map fun image => ⟨places image.1, pack [image.2.2.height, image.2.2.width]⟩ := by
  rw [emptyPlanes, (planar_layouts hplanar hsize).1, Option.getD_some, List.map_map]
  rfl

theorem decodedDestination_stride_lt (i : Fin 4) : (decodedDestination format source base places).strides i < 2 ^ 31 := by
  simp only [decodedDestination, copyDestination]
  cases (emptyPlanes format source.width source.height places)[i.val]?.bind fun array => array.axes.head? with
  | none => simp
  | some axis => exact Int.bmod_lt (m := 2 ^ 32) (by omega)

theorem decodedDestination_place (hplanar : format = .i420 ∨ format = .nv12) (hsize : allocatable (DecodedFrame.size source) = true)
    (hwidth : source.width ≤ (2 ^ 31 - 1) / 4) :
    (decodedDestination format source base places).place (planarImages source format) =
      (planarImages source format).map fun image => ⟨places image.1, image.2.2.width, image.2.2⟩ := by
  refine List.map_congr_left fun image himage => ?_
  obtain ⟨hplane, hstride, -⟩ := decodedDestination_plane base places hplanar hsize hwidth himage
  rw [hplane, hstride, Option.getD_some]

variable (base) in
theorem decodedDestination_ready (hplanar : format = .i420 ∨ format = .nv12) (hsize : allocatable (DecodedFrame.size source) = true)
    (hwidth : source.width ≤ (2 ^ 31 - 1) / 4)
    (happart : PlacesApart (emptyPlanes format source.width source.height places)) :
    (decodedDestination format source base places).Ready source (planarImages source format) where
  format := by
    rcases hplanar with rfl | rfl
    · exact .inl ⟨rfl, rfl⟩
    · exact .inr ⟨rfl, rfl⟩
  width := rfl
  height := rfl
  takes := by
    rw [MutableFrameView.takes, List.all_eq_true]
    intro image himage
    obtain ⟨hplane, hstride, -⟩ := decodedDestination_plane base places hplanar hsize hwidth himage
    simp [hplane, hstride, (planar_layouts hplanar hsize).2 image himage]
  stride_lt := decodedDestination_stride_lt
  apart := by
    have hpairs : ((decodedDestination format source base places).place (planarImages source format)).Pairwise fun p q =>
        p.Apart q ∧ q.Apart p := by
      rw [decodedDestination_place hplanar hsize hwidth, List.pairwise_map]
      rw [emptyPlanes_planar hplanar hsize, PlacesApart, List.pairwise_map] at happart
      refine happart.imp fun {a b} hab => ?_
      simp only [size_pack, List.prod_cons, List.prod_nil, Nat.mul_one] at hab
      exact ⟨placed_apart rfl rfl hab, placed_apart rfl rfl hab.symm⟩
    have hsymm : Std.Symm fun p q : Placed UInt8 => p.Apart q ∧ q.Apart p := ⟨fun _ _ h => h.symm⟩
    exact fun p hp q hq hne => (hpairs.forall hp hq hne).1

/-- Besides the new arrays a copy writes nothing. -/
theorem decodedDestination_outside (hplanar : format = .i420 ∨ format = .nv12)
    (hsize : allocatable (DecodedFrame.size source) = true) (hwidth : source.width ≤ (2 ^ 31 - 1) / 4) {x : Int}
    (hx : ∀ array ∈ emptyPlanes format source.width source.height places, ¬ (array.address ≤ x ∧ x < array.address + size array.axes)) :
    Placed.writeAll ((decodedDestination format source base places).place (planarImages source format)) memory x = memory x := by
  apply Placed.writeAll_outside
  intro p hp
  rw [decodedDestination_place hplanar hsize hwidth] at hp
  obtain ⟨image, himage, rfl⟩ := List.mem_map.mp hp
  rintro ⟨row, hrow, hle, hlt⟩
  rw [emptyPlanes_planar hplanar hsize] at hx
  apply hx _ (List.mem_map_of_mem himage)
  obtain ⟨hlow, hhigh⟩ := row_bounds image.2.2.width hrow
  simp only [Placed.rowAddress] at hle hlt hhigh
  simp only [size_pack, List.prod_cons, List.prod_nil, Nat.mul_one]
  omega

/-- The arrays that share the memory of a decoded frame. -/
theorem decoded_arrays_share {pts : Int} (hsize : allocatable (DecodedFrame.size source) = true)
    (hwidth : source.width ≤ (2 ^ 31 - 1) / 4) (hheld : Held source)
    (hstrides : ∀ i, (subsampled i source.width : Int) ≤ source.strides i ∧ source.strides i < 2 ^ 31)
    (hloaded : Loaded source base memory) (hpts : -2 ^ 63 ≤ pts ∧ pts < 2 ^ 63) (allowCopy : Bool) (place : Int) :
    ∃ arrays made, borrowedCpuFrame (decodedView source base) = .ok arrays ∧
      makeBorrowedView (handed arrays place) "i420" source.width source.height pts allowCopy memory = .ok made ∧
      made.Shares arrays ⟨.i420, source.width, source.height, pts, (i420Images source).map fun image => image.2.2.bytes⟩ memory := by
  have hlayouts : bufferLayouts (decodedView source base).pixelFormat (decodedView source base).width
      (decodedView source base).height = some ((i420Images source).map imageLayout) :=
    (planar_layouts (.inl rfl : PixelFormat.i420 = .i420 ∨ PixelFormat.i420 = .nv12) hsize).1
  have hlt : ∀ i, (decodedView source base).strides i < 2 ^ 31 := by
    have h₀ := (hstrides 0).2
    have h₁ := (hstrides 1).2
    have h₂ := (hstrides 2).2
    simp [Fin.forall_fin_succ, decodedView] at h₀ h₁ h₂ ⊢
    exact ⟨h₀, h₁, h₂⟩
  have hall : ∀ layout ∈ (i420Images source).map imageLayout, HasPlane (decodedView source base) layout := by
    rw [List.forall_mem_map]
    intro image himage
    obtain ⟨hplane, hstride⟩ := decodedView_plane source base image.1
    refine ⟨by simp [imageLayout, hplane], ?_⟩
    simp only [imageLayout, hstride, i420Images_raster himage]
    exact (hstrides image.1).1
  obtain ⟨made, hmade, hshares⟩ := handed_shares hlayouts (encoderSize_of_allocatable hsize hwidth) hlt hpts hall allowCopy memory place
  rw [shown_of_images hlayouts fun image himage => ?_] at hshares
  · exact ⟨_, made, borrowedCpuFrame_ok rfl hlayouts hall, hmade, hshares⟩
  · rw [i420Images_raster himage]
    exact decodedView_visible hheld hloaded image.1

/-- The copies of a decoded frame in new arrays. -/
theorem copied_planes_share {pts : Int} (hplanar : format = .i420 ∨ format = .nv12)
    (hsize : allocatable (DecodedFrame.size source) = true) (hwidth : source.width ≤ (2 ^ 31 - 1) / 4)
    (happart : PlacesApart (emptyPlanes format source.width source.height places)) (hpts : -2 ^ 63 ≤ pts ∧ pts < 2 ^ 63)
    (base : Nat) (allowCopy : Bool) (memory : Int → UInt8) (place : Int) :
    ∃ memory' made, copyPlanes format source (decodedView source base) places memory =
        some (.ok (emptyPlanes format source.width source.height places, source.ptsNs, memory')) ∧
      (∀ x, (∀ array ∈ emptyPlanes format source.width source.height places,
        ¬ (array.address ≤ x ∧ x < array.address + size array.axes)) → memory' x = memory x) ∧
      makeBorrowedView (handed (emptyPlanes format source.width source.height places) place) (formatText format) source.width
        source.height pts allowCopy memory' = .ok made ∧
      made.Shares (emptyPlanes format source.width source.height places)
        ⟨format, source.width, source.height, pts, (planarImages source format).map fun image => image.2.2.bytes⟩ memory' := by
  have hready := decodedDestination_ready base hplanar hsize hwidth happart
  have hlayouts : bufferLayouts (decodedDestination format source base places).pixelFormat
      (decodedDestination format source base places).width (decodedDestination format source base places).height =
        some ((planarImages source format).map imageLayout) := (planar_layouts hplanar hsize).1
  have hplane := fun image (himage : image ∈ planarImages source format) =>
    decodedDestination_plane base places hplanar hsize hwidth himage
  have hall : ∀ layout ∈ (planarImages source format).map imageLayout,
      HasPlane (decodedDestination format source base places) layout := by
    rw [List.forall_mem_map]
    intro image himage
    obtain ⟨haddress, hstride, -⟩ := hplane image himage
    exact ⟨by simp [imageLayout, haddress], by simp [imageLayout, hstride]⟩
  have harrays : ((planarImages source format).map imageLayout).map (layoutArray (decodedDestination format source base places)) =
      emptyPlanes format source.width source.height places := by
    rw [emptyPlanes_planar hplanar hsize, List.map_map]
    exact List.map_congr_left fun image himage => (hplane image himage).2.2
  obtain ⟨made, hmade, hshares⟩ := handed_shares hlayouts (encoderSize_of_allocatable hsize hwidth) decodedDestination_stride_lt hpts
    hall allowCopy (Placed.writeAll ((decodedDestination format source base places).place (planarImages source format)) memory) place
  rw [harrays] at hmade hshares
  rw [shown_of_images hlayouts fun image himage => Ready.visiblePlane hready hsize himage] at hshares
  refine ⟨_, made, ?_, fun x hx => decodedDestination_outside hplanar hsize hwidth hx, hmade, hshares⟩
  rw [copyPlanes]
  change (copyPlanarFrame source (decodedDestination format source base places) memory).map _ = _
  rw [copyPlanarFrame_ready hready hsize]
  rfl

/-- A decoded frame can be given back to an encoder as it is: through the arrays that share its memory, and through copies in I420 and
in NV12. The encoder takes each of them without another copy, and has the decoded planes before it. -/
theorem decoded_frame_returns (source : DecodedFrame) (base : Nat) (places : Fin 3 → Nat) (pts : Int) (allowCopy : Bool)
    (memory : Int → UInt8) (place : Int) (hsize : allocatable (DecodedFrame.size source) = true)
    (hwidth : source.width ≤ (2 ^ 31 - 1) / 4) (hheld : Held source)
    (hstrides : ∀ i, (subsampled i source.width : Int) ≤ source.strides i ∧ source.strides i < 2 ^ 31)
    (hloaded : Loaded source base memory) (hpts : -2 ^ 63 ≤ pts ∧ pts < 2 ^ 63) :
    (∃ arrays made, borrowedCpuFrame (decodedView source base) = .ok arrays ∧
      makeBorrowedView (handed arrays place) "i420" source.width source.height pts allowCopy memory = .ok made ∧
      made.Shares arrays ⟨.i420, source.width, source.height, pts, (i420Images source).map fun image => image.2.2.bytes⟩ memory) ∧
    ∀ format, format = .i420 ∨ format = .nv12 → PlacesApart (emptyPlanes format source.width source.height places) →
      ∃ memory' made, copyPlanes format source (decodedView source base) places memory =
          some (.ok (emptyPlanes format source.width source.height places, source.ptsNs, memory')) ∧
        (∀ x, (∀ array ∈ emptyPlanes format source.width source.height places,
          ¬ (array.address ≤ x ∧ x < array.address + size array.axes)) → memory' x = memory x) ∧
        makeBorrowedView (handed (emptyPlanes format source.width source.height places) place) (formatText format) source.width
          source.height pts allowCopy memory' = .ok made ∧
        made.Shares (emptyPlanes format source.width source.height places)
          ⟨format, source.width, source.height, pts, (planarImages source format).map fun image => image.2.2.bytes⟩ memory' := by
  exact ⟨decoded_arrays_share hsize hwidth hheld hstrides hloaded hpts allowCopy place, fun format hplanar happart =>
    copied_planes_share hplanar hsize hwidth happart hpts base allowCopy memory place⟩

end

/-! ## A frame of 2 by 2 pixels -/

/-- A packed buffer with two bytes behind each row. -/
def paddedBuffer : MutableFrameView where
  pixelFormat := .bgr24
  width := 2
  height := 2
  planes := ![some 100, none, none, none]
  strides := ![8, 0, 0, 0]
  pts := 0

theorem buffer_arrays_shared_small : ∃ made,
    makeBorrowedView (handed [⟨100, [⟨2, 8⟩, ⟨2, 3⟩, ⟨3, 1⟩]⟩] 0) "bgr" 2 2 40 false (fun x => UInt8.ofNat x.toNat) = .ok made ∧
      made.view.picture.visible = [[100, 101, 102, 103, 104, 105, 108, 109, 110, 111, 112, 113]] := by
  have hvalid : (paddedBuffer.frameView fun x => UInt8.ofNat x.toNat).Valid :=
    ⟨by decide, by decide, by decide, by decide, _, rfl, by decide⟩
  obtain ⟨arrays, harrays, -, made, hmade, hshares⟩ := (buffer_arrays_shared paddedBuffer 40 false (fun x => UInt8.ofNat x.toNat) 0
    ⟨by decide, by decide, by decide, by decide, by decide, by decide⟩ (by decide) (by decide)).2.1 hvalid
  obtain rfl : [⟨100, [⟨2, 8⟩, ⟨2, 3⟩, ⟨3, 1⟩]⟩] = arrays := Except.ok.inj (by rw [← harrays]; decide)
  exact ⟨made, hmade, (congrArg Picture.visible hshares.picture).trans (by decide)⟩

theorem decoded_frame_returns_small : ∃ memory' made,
    copyPlanes .nv12 smallFrame (decodedView smallFrame 10) ![100, 200, 300] (fun x => UInt8.ofNat (x.toNat - 9)) =
        some (.ok ([⟨100, [⟨2, 2⟩, ⟨2, 1⟩]⟩, ⟨200, [⟨1, 2⟩, ⟨2, 1⟩]⟩], 40, memory')) ∧
      makeBorrowedView (handed [⟨100, [⟨2, 2⟩, ⟨2, 1⟩]⟩, ⟨200, [⟨1, 2⟩, ⟨2, 1⟩]⟩] 0) "nv12" 2 2 80 false memory' = .ok made ∧
      made.view.picture.visible = [[1, 2, 3, 4], [5, 6]] := by
  have hheld : Held smallFrame := by unfold Held; decide
  obtain ⟨memory', made, hcopy, -, hmade, hshares⟩ := (decoded_frame_returns smallFrame 10 ![100, 200, 300] 80 false
    (fun x => UInt8.ofNat (x.toNat - 9)) 0 rfl (by decide) hheld (by decide) (by unfold Loaded; decide) (by decide)).2 .nv12 (.inr rfl)
    (by unfold PlacesApart Block.Apart; decide)
  exact ⟨memory', made, hcopy, hmade, (congrArg Picture.visible hshares.picture).trans (by decide)⟩

end MkvCodec.Python
