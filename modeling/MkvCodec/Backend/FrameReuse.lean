import MkvCodec.Backend.CpuPixels

/-!
# A copy converts like the original

Whatever a slot of the queue held before, a valid frame that is copied into it has the same picture there, and both
conversions write the same bytes for the copy.
-/

namespace MkvCodec

/-- The planes of a format with the bytes of a row and the number of rows. -/
def PixelFormat.planes (format : PixelFormat) (width height : Nat) : Option (List (Fin 3 × Nat × Nat)) :=
  match format with
  | .i420 => some [(0, width, height), (1, width / 2, height / 2), (2, width / 2, height / 2)]
  | .nv12 => some [(0, width, height), (1, width, height / 2)]
  | .bgr24 | .rgb24 => some [(0, width * 3, height)]
  | .bgra32 => some [(0, width * 4, height)]
  | .p010 | .unknown _ => none

/-- A frame of a supported format with even dimensions, whose planes are there and have room for a row in each stride. A
stride is an `int32_t`. -/
structure FrameView.Valid (frame : FrameView) : Prop where
  width_pos : 0 < frame.width
  height_pos : 0 < frame.height
  width_even : frame.width % 2 = 0
  height_even : frame.height % 2 = 0
  planes : ∃ planes, frame.pixelFormat.planes frame.width frame.height = some planes ∧
    ∀ p ∈ planes, (frame.planes p.1.castSucc).isSome = true ∧ p.2.1 ≤ frame.strides p.1.castSucc ∧
      frame.strides p.1.castSucc < 2 ^ 31

/-- The visible bytes of each plane. -/
def FrameView.shown (frame : FrameView) : List (List UInt8) :=
  ((frame.pixelFormat.planes frame.width frame.height).getD []).map fun p => frame.visiblePlane p.1 p.2.1 p.2.2

namespace FrameView

variable {frame : FrameView}

/-- Every row of this width has fewer than `2 ^ 31` bytes. -/
def RowsFit (frame : FrameView) (width : Nat) : Prop :=
  ∀ planes, frame.pixelFormat.planes width frame.height = some planes → ∀ p ∈ planes, p.2.1 < 2 ^ 31

theorem badPlane_eq_false {rowBytes : Nat} (index : Fin 4) (h : rowBytes < 2 ^ 31) :
    frame.badPlane index rowBytes = false ↔
      (frame.planes index).isSome = true ∧ (rowBytes : Int) ≤ frame.strides index := by
  simp only [badPlane, asInt32_of_lt h, Bool.or_eq_false_iff, Option.isNone_eq_false_iff, decide_eq_false_iff_not,
    Int.not_lt]

/-- The rows that the copy takes are the visible ones. -/
theorem copiedPlanes_eq (hrows : frame.RowsFit frame.width) :
    copiedPlanes frame.pixelFormat frame.width frame.height = frame.pixelFormat.planes frame.width frame.height := by
  cases hformat : frame.pixelFormat with
  | i420 | nv12 | p010 | unknown => rfl
  | bgr24 | rgb24 | bgra32 =>
      have hrow := hrows _ (by rw [hformat]; rfl) _ List.mem_cons_self
      simp only [copiedPlanes, PixelFormat.planes, u32_of_lt (Nat.lt_trans hrow (by decide))]

theorem Valid.rowsFit (h : frame.Valid) : frame.RowsFit frame.width := by
  intro planes hplanes p hp
  obtain ⟨planes', hplanes', hall⟩ := h.planes
  obtain rfl : planes = planes' := Option.some.inj (hplanes.symm.trans hplanes')
  obtain ⟨-, hstride, hint⟩ := hall p hp
  omega

/-- A row of a valid frame has fewer than 2 ^ 31 bytes, and its plane passes every check. -/
theorem Valid.row (h : frame.Valid) {planes : List (Fin 3 × Nat × Nat)}
    (hplanes : frame.pixelFormat.planes frame.width frame.height = some planes) {p : Fin 3 × Nat × Nat} (hp : p ∈ planes) :
    p.2.1 < 2 ^ 31 ∧ frame.badPlane p.1.castSucc p.2.1 = false := by
  obtain ⟨planes', hplanes', hall⟩ := h.planes
  obtain rfl : planes = planes' := Option.some.inj (hplanes.symm.trans hplanes')
  obtain ⟨hsome, hstride, -⟩ := hall p hp
  have hlt := h.rowsFit planes hplanes p hp
  exact ⟨hlt, (badPlane_eq_false _ hlt).mpr ⟨hsome, hstride⟩⟩

theorem Valid.copied (h : frame.Valid) :
    copiedPlanes frame.pixelFormat frame.width frame.height = frame.pixelFormat.planes frame.width frame.height :=
  copiedPlanes_eq h.rowsFit

theorem Valid.picture_visible (h : frame.Valid) : frame.picture.visible = frame.shown := by
  rw [picture, shown, ← h.copied]

end FrameView

/-! ## The copy of a valid frame -/

open RowMajor in
theorem FrameView.visiblePlane_ne_nil {frame : FrameView} {index : Fin 3} {rowBytes rows : Nat}
    (hsome : (frame.planes index.castSucc).isSome = true) (hpos : 0 < rows * rowBytes) :
    frame.visiblePlane index rowBytes rows ≠ [] := by
  obtain ⟨plane, hplane⟩ := Option.isSome_iff_exists.mp hsome
  rw [visiblePlane, hplane]
  simp only [Plane.rows]
  intro hnil
  exact Nat.ne_of_gt hpos ((store_eq_nil _).mp hnil)

/-- The dimensions of every plane of a frame with even dimensions are positive. -/
theorem PixelFormat.planes_pos {format : PixelFormat} {width height : Nat} {planes : List (Fin 3 × Nat × Nat)}
    (h : format.planes width height = some planes) (hwidth : 0 < width ∧ width % 2 = 0)
    (hheight : 0 < height ∧ height % 2 = 0) : ∀ p ∈ planes, 0 < p.2.2 * p.2.1 := by
  have hhalf : 0 < width / 2 ∧ 0 < height / 2 := by omega
  intro p hp
  cases format with
  | p010 | unknown => cases h
  | i420 | nv12 | bgr24 | rgb24 | bgra32 =>
      cases h
      simp only [List.mem_cons, List.not_mem_nil, or_false] at hp
      rcases hp with rfl | rfl | rfl <;> exact Nat.mul_pos (by simp only; omega) (by simp only; omega)

/-- A valid frame can be copied, whatever the slot held before. -/
theorem FrameView.Valid.ownFrame_ok {source : FrameView} (h : source.Valid) (previous : OwnedFrame) :
    (ownFrame source previous).2 = .ok := by
  obtain ⟨planes, hplanes, -⟩ := h.planes
  have hgood : ∀ p ∈ planes, source.badPlane p.1.castSucc p.2.1 = false := fun p hp => (h.row hplanes hp).2
  obtain ⟨copy, hcopy⟩ := copyPlanes_isOk
    { previous with pixelFormat := source.pixelFormat, width := source.width, height := source.height, pts := source.pts } hgood
  simp [ownFrame, h.copied, hplanes, hcopy]

/-- The view of the copy is a valid frame with the same picture. -/
theorem FrameView.Valid.copy {source : FrameView} (h : source.Valid) {previous copy : OwnedFrame} {status : Status}
    (hown : ownFrame source previous = (copy, status)) (hok : status.result = .ok) :
    copy.view.Valid ∧ copy.view.picture = source.picture := by
  obtain ⟨planes, hplanes, hall⟩ := h.planes
  have hcopied := h.copied.trans hplanes
  have hpicture : copy.view.picture = source.picture := by
    refine ownFrame_shows hown hok fun planes' hplanes' p hp => ?_
    obtain rfl : planes = planes' := Option.some.inj (hcopied.symm.trans hplanes')
    exact (h.row hplanes hp).1
  have hformat : copy.view.pixelFormat = source.pixelFormat := congrArg Picture.pixelFormat hpicture
  have hwidth : copy.view.width = source.width := congrArg Picture.width hpicture
  have hheight : copy.view.height = source.height := congrArg Picture.height hpicture
  obtain ⟨planes', hplanes', hcopies, -⟩ := ownFrame_planes hown hok
  obtain rfl : planes = planes' := Option.some.inj (hcopied.symm.trans hplanes')
  refine ⟨⟨?_, ?_, ?_, ?_, planes, ?_, ?_⟩, hpicture⟩
  · exact hwidth ▸ h.width_pos
  · exact hheight ▸ h.height_pos
  · exact hwidth ▸ h.width_even
  · exact hheight ▸ h.height_even
  · rw [hformat, hwidth, hheight]
    exact hplanes
  · intro p hp
    obtain ⟨hlt, -⟩ := h.row hplanes hp
    obtain ⟨hbytes, hstride⟩ := hcopies p hp
    obtain ⟨hvplane, hvstride⟩ := copy.view_plane p.1
    have hne : copy.planes p.1 ≠ [] := by
      rw [hbytes]
      exact FrameView.visiblePlane_ne_nil (hall p hp).1
        (PixelFormat.planes_pos hplanes ⟨h.width_pos, h.width_even⟩ ⟨h.height_pos, h.height_even⟩ p hp)
    rw [asInt32_of_lt hlt] at hstride
    rw [hvplane, hvstride, hstride]
    refine ⟨?_, Int.le_refl _, by omega⟩
    simp [OwnedFrame.viewPlane, hne]

/-! ## Conversions -/

open Backend

variable {f g : FrameView}

/-- Both frames have the plane, with the same visible bytes. -/
structure SamePlane (f g : FrameView) (index : Fin 3) (rowBytes rows : Nat) : Prop where
  row : u32 rowBytes = rowBytes
  left : f.badPlane index.castSucc rowBytes = false
  right : g.badPlane index.castSucc rowBytes = false
  visible : f.visiblePlane index rowBytes rows = g.visiblePlane index rowBytes rows

theorem FrameView.Valid.samePlane (hf : f.Valid) (hg : g.Valid) (hformat : f.pixelFormat = g.pixelFormat)
    (hwidth : f.width = g.width) (hheight : f.height = g.height) (hshown : f.shown = g.shown)
    {planes : List (Fin 3 × Nat × Nat)} (hplanes : g.pixelFormat.planes g.width g.height = some planes) :
    ∀ p ∈ planes, SamePlane f g p.1 p.2.1 p.2.2 := by
  intro p hp
  have hplanes' : f.pixelFormat.planes f.width f.height = some planes := by rw [hformat, hwidth, hheight, hplanes]
  simp only [shown, hplanes, hplanes', Option.getD_some, List.map_inj_left] at hshown
  obtain ⟨hlt, hright⟩ := hg.row hplanes hp
  exact ⟨u32_of_lt (Nat.lt_trans hlt (by decide)), (hf.row hplanes' hp).2, hright, hshown p hp⟩

/-- What a conversion of `g` asks of its planes has the same answer for `f`. -/
structure Alike (f g : FrameView) : Prop where
  i420 : g.pixelFormat = .i420 → SamePlane f g 0 g.width g.height ∧ SamePlane f g 1 (g.width / 2) (g.height / 2) ∧
    SamePlane f g 2 (g.width / 2) (g.height / 2)
  nv12 : g.pixelFormat = .nv12 → SamePlane f g 0 g.width g.height ∧ SamePlane f g 1 g.width (g.height / 2)
  packed : g.pixelFormat = .bgr24 ∨ g.pixelFormat = .rgb24 ∨ g.pixelFormat = .bgra32 →
    SamePlane f g 0 (g.width * channels g.pixelFormat) g.height

theorem FrameView.Valid.alike (hf : f.Valid) (hg : g.Valid) (hformat : f.pixelFormat = g.pixelFormat)
    (hwidth : f.width = g.width) (hheight : f.height = g.height) (hshown : f.shown = g.shown) : Alike f g := by
  obtain ⟨planes, hplanes, -⟩ := hg.planes
  have hsame := hf.samePlane hg hformat hwidth hheight hshown hplanes
  constructor
  · intro hg'
    rw [hg'] at hplanes
    cases hplanes
    simpa only [List.mem_cons, List.not_mem_nil, or_false, forall_eq_or_imp, forall_eq] using hsame
  · intro hg'
    rw [hg'] at hplanes
    cases hplanes
    simpa only [List.mem_cons, List.not_mem_nil, or_false, forall_eq_or_imp, forall_eq] using hsame
  · intro hg'
    rcases hg' with hg' | hg' | hg' <;> rw [hg'] at hplanes ⊢ <;> cases hplanes <;> exact hsame _ List.mem_cons_self

theorem SamePlane.first {rowBytes rows : Nat} (h : SamePlane f g 0 rowBytes rows) :
    f.badPlane 0 rowBytes = false ∧ g.badPlane 0 rowBytes = false ∧
      f.visiblePlane 0 rowBytes rows = g.visiblePlane 0 rowBytes rows := ⟨h.left, h.right, h.visible⟩

theorem SamePlane.second {rowBytes rows : Nat} (h : SamePlane f g 1 rowBytes rows) :
    f.badPlane 1 rowBytes = false ∧ g.badPlane 1 rowBytes = false ∧
      f.visiblePlane 1 rowBytes rows = g.visiblePlane 1 rowBytes rows := ⟨h.left, h.right, h.visible⟩

theorem SamePlane.third {rowBytes rows : Nat} (h : SamePlane f g 2 rowBytes rows) :
    f.badPlane 2 rowBytes = false ∧ g.badPlane 2 rowBytes = false ∧
      f.visiblePlane 2 rowBytes rows = g.visiblePlane 2 rowBytes rows := ⟨h.left, h.right, h.visible⟩

/-- Frames that are alike convert to the same bytes. -/
theorem Alike.cpuFrameToI420 (h : Alike f g) (hformat : f.pixelFormat = g.pixelFormat) (libyuv : Libyuv)
    (i420 : List UInt8) (codec : String) : Backend.cpuFrameToI420 libyuv f g.width g.height i420 codec =
      Backend.cpuFrameToI420 libyuv g g.width g.height i420 codec := by
  by_cases hsmall : i420.length < frameSize g.width g.height
  · simp only [Backend.cpuFrameToI420, i420Conversion, if_pos hsmall]
  simp only [Backend.cpuFrameToI420, convertCpuFrameToI420, i420Conversion, if_neg hsmall, hformat]
  cases hg : g.pixelFormat with
  | p010 | unknown => rfl
  | i420 =>
      obtain ⟨h₀, h₁, h₂⟩ := h.i420 hg
      simp only [h₀.first, h₁.second, h₂.third, Bool.or_self, Bool.false_eq_true, if_false]
  | nv12 =>
      obtain ⟨h₀, h₁⟩ := h.nv12 hg
      simp only [h₀.first, h₁.second, Bool.or_self, Bool.false_eq_true, if_false]
  | bgr24 | rgb24 | bgra32 =>
      have h₀ := h.packed (by simp [hg])
      rw [hg] at h₀
      simp only [channels] at h₀ ⊢
      simp only [h₀.row, h₀.first, Bool.false_eq_true, if_false]
      rfl

theorem Alike.cpuFrameToNv12 (h : Alike f g) (hformat : f.pixelFormat = g.pixelFormat) (libyuv : Libyuv)
    (i420 nv12 : List UInt8) (backend : String) : Backend.cpuFrameToNv12 libyuv f g.width g.height i420 nv12 backend =
      Backend.cpuFrameToNv12 libyuv g g.width g.height i420 nv12 backend := by
  by_cases hsmall : (i420.length < frameSize g.width g.height || nv12.length < frameSize g.width g.height) = true
  · simp only [Backend.cpuFrameToNv12, nv12Conversion, if_pos hsmall]
  simp only [Backend.cpuFrameToNv12, convertCpuFrameToNv12, nv12Conversion, if_neg hsmall, hformat]
  cases hg : g.pixelFormat with
  | p010 | unknown => rfl
  | i420 =>
      obtain ⟨h₀, h₁, h₂⟩ := h.i420 hg
      simp only [h₀.first, h₁.second, h₂.third, Bool.or_self, Bool.false_eq_true, if_false]
  | nv12 =>
      obtain ⟨h₀, h₁⟩ := h.nv12 hg
      simp only [h₀.first, h₁.second, Bool.or_self, Bool.false_eq_true, if_false]
  | bgr24 | rgb24 | bgra32 =>
      have h₀ := h.packed (by simp [hg])
      rw [hg] at h₀
      simp only [channels] at h₀ ⊢
      simp only [h₀.row, h₀.first, Bool.false_eq_true, if_false]
      rfl

/-- Whatever the slot held before, the copy of a valid frame has the same format, dimensions and time stamp, shows the same
bytes in every plane, and converts to the same bytes. -/
theorem own_frame_keeps_picture (libyuv : Libyuv) (source : FrameView) (previous copy : OwnedFrame) (status : Status)
    (hvalid : source.Valid) (hown : ownFrame source previous = (copy, status)) (hok : status.result = .ok) :
    copy.view.pixelFormat = source.pixelFormat ∧ copy.view.width = source.width ∧ copy.view.height = source.height ∧
      copy.view.pts = source.pts ∧ copy.view.shown = source.shown ∧
      (∀ i420 codec, cpuFrameToI420 libyuv copy.view source.width source.height i420 codec =
        cpuFrameToI420 libyuv source source.width source.height i420 codec) ∧
      ∀ i420 nv12 backend, cpuFrameToNv12 libyuv copy.view source.width source.height i420 nv12 backend =
        cpuFrameToNv12 libyuv source source.width source.height i420 nv12 backend := by
  obtain ⟨hcopy, hpicture⟩ := hvalid.copy hown hok
  have hformat : copy.view.pixelFormat = source.pixelFormat := congrArg Picture.pixelFormat hpicture
  have hwidth : copy.view.width = source.width := congrArg Picture.width hpicture
  have hheight : copy.view.height = source.height := congrArg Picture.height hpicture
  have hpts : copy.view.pts = source.pts := congrArg Picture.pts hpicture
  have hshown : copy.view.shown = source.shown := by
    rw [← hcopy.picture_visible, ← hvalid.picture_visible, hpicture]
  have halike : Alike copy.view source := hcopy.alike hvalid hformat hwidth hheight hshown
  exact ⟨hformat, hwidth, hheight, hpts, hshown, halike.cpuFrameToI420 hformat libyuv, halike.cpuFrameToNv12 hformat libyuv⟩

/-- An NV12 frame of two by two pixels with a padding of two bytes in each row. -/
def paddedFrame : FrameView :=
  { pixelFormat := .nv12, width := 2, height := 2, pts := 7,
    planes := ![some ⟨0, UInt8.ofNat⟩, some ⟨64, fun offset => UInt8.ofNat (64 + offset)⟩, none, none],
    strides := ![4, 4, 0, 0] }

/-- A slot that held a larger I420 frame. -/
def usedSlot : OwnedFrame :=
  { pixelFormat := .i420, width := 4, height := 4, pts := 3, planes := ![List.replicate 16 9, [9, 9, 9, 9], [9, 9, 9, 9]],
    strides := ![4, 2, 2], storage := fun _ => 0 }

/-- What libyuv makes of planes of two by two pixels in NV12. -/
def splitLibyuv : Libyuv where
  nv12ToI420 _ _ y uv := (0, y ++ uv.take 1 ++ uv.drop 1)
  i420ToNv12 _ _ y u v := (0, y ++ u ++ v)
  rgb24ToI420 _ _ _ := (-1, [])
  rawToI420 _ _ _ := (-1, [])
  argbToI420 _ _ _ := (-1, [])

theorem paddedFrame_valid : paddedFrame.Valid where
  width_pos := by decide
  height_pos := by decide
  width_even := rfl
  height_even := rfl
  planes := ⟨_, rfl, by decide⟩

theorem own_frame_keeps_picture_small :
    (ownFrame paddedFrame usedSlot).1.view.shown = [[0, 1, 4, 5], [64, 65]] ∧
      cpuFrameToI420 splitLibyuv (ownFrame paddedFrame usedSlot).1.view 2 2 (List.replicate 6 0) "VP9" =
        (.ok, [0, 1, 4, 5, 64, 65]) := by
  obtain ⟨-, -, -, -, hshown, hi420, -⟩ :=
    own_frame_keeps_picture splitLibyuv paddedFrame usedSlot _ _ paddedFrame_valid rfl rfl
  exact ⟨hshown.trans rfl, (hi420 _ _).trans rfl⟩

end MkvCodec
