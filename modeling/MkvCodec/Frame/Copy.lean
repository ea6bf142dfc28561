import MkvCodec.Frame.Owned

/-!
# A copy shows the same picture

A view that passes the layout check can be copied into an owned frame, whatever the frame held before, and the
view of the copy shows the picture of the original.
-/

namespace MkvCodec

/-! ## The planes of a format -/

theorem u32_mul_lt {width n : Nat} (hw : width ≤ (2 ^ 31 - 1) / 4) (hn : n ≤ 4) : u32 (width * n) < 2 ^ 31 := by
  have hle : width * n ≤ width * 4 := Nat.mul_le_mul_left _ hn
  rw [u32_of_lt (by omega)]
  omega

theorem copiedPlanes_lt {format : PixelFormat} {width height : Nat} {planes : List (Fin 3 × Nat × Nat)}
    (h : copiedPlanes format width height = some planes) (hw : width ≤ (2 ^ 31 - 1) / 4) :
    ∀ p ∈ planes, p.2.1 < 2 ^ 31 := by
  cases format with
  | p010 | unknown => cases h
  | i420 =>
      cases h
      simp only [List.mem_cons, List.not_mem_nil, or_false, forall_eq_or_imp, forall_eq]
      omega
  | nv12 =>
      cases h
      simp only [List.mem_cons, List.not_mem_nil, or_false, forall_eq_or_imp, forall_eq]
      omega
  | bgr24 | rgb24 =>
      cases h
      simp only [List.mem_cons, List.not_mem_nil, or_false, forall_eq]
      exact u32_mul_lt hw (by omega)
  | bgra32 =>
      cases h
      simp only [List.mem_cons, List.not_mem_nil, or_false, forall_eq]
      exact u32_mul_lt hw (by omega)

theorem copiedPlanes_nodup {format : PixelFormat} {width height : Nat} {planes : List (Fin 3 × Nat × Nat)}
    (h : copiedPlanes format width height = some planes) : (planes.map Prod.fst).Nodup := by
  cases format <;> cases h <;> simp

/-- The rows that the copy takes are those that the layout check looks at. -/
theorem copiedPlanes_layoutRows {format : PixelFormat} {width height count : Nat} {rowBytes : Fin 4 → Nat}
    (h : layoutRows format width = some (count, rowBytes)) :
    ∃ planes, copiedPlanes format width height = some planes ∧
      ∀ p ∈ planes, p.1.castSucc.val < count ∧ p.2.1 = rowBytes p.1.castSucc := by
  cases format <;> cases h <;> exact ⟨_, rfl, by simp⟩

/-! ## Copying -/

/-- Plane `p` of the copy holds the visible bytes of the source, packed. -/
def PlaneCopied (source : FrameView) (destination : OwnedFrame) (p : Fin 3 × Nat × Nat) : Prop :=
  destination.planes p.1 = source.visiblePlane p.1 p.2.1 p.2.2 ∧ destination.strides p.1 = asInt32 p.2.1

theorem copyPlane_ok {source : FrameView} {index : Fin 3} {rowBytes rows : Nat} {d d' : OwnedFrame}
    (h : copyPlane source index rowBytes rows d = some d') :
    PlaneCopied source d' (index, rowBytes, rows) ∧
      (∀ j, j ≠ index → d'.planes j = d.planes j ∧ d'.strides j = d.strides j) ∧
      d'.pixelFormat = d.pixelFormat ∧ d'.width = d.width ∧ d'.height = d.height ∧ d'.pts = d.pts := by
  unfold copyPlane at h
  split at h
  · cases h
  rename_i plane hplane
  split at h
  · cases h
  cases h
  refine ⟨⟨?_, by simp⟩, fun j hj => by simp [Function.update_of_ne hj], rfl, rfl, rfl, rfl⟩
  simp [FrameView.visiblePlane, hplane]

theorem copyPlanes_ok {source : FrameView} {planes : List (Fin 3 × Nat × Nat)} {d d' : OwnedFrame}
    (h : copyPlanes source planes d = (d', true)) (hnd : (planes.map Prod.fst).Nodup) :
    (∀ p ∈ planes, PlaneCopied source d' p) ∧
      (∀ j, j ∉ planes.map Prod.fst → d'.planes j = d.planes j ∧ d'.strides j = d.strides j) ∧
      d'.pixelFormat = d.pixelFormat ∧ d'.width = d.width ∧ d'.height = d.height ∧ d'.pts = d.pts := by
  induction planes generalizing d with
  | nil => cases h; simp
  | cons p planes ih =>
      obtain ⟨index, rowBytes, rows⟩ := p
      simp only [copyPlanes] at h
      split at h
      · cases h
      rename_i d₁ hd₁
      obtain ⟨hnot, hnd'⟩ := List.nodup_cons.mp hnd
      obtain ⟨hall, hother, hfmt, hw, hh, hpts⟩ := ih h hnd'
      obtain ⟨hone, hother₁, hfmt₁, hw₁, hh₁, hpts₁⟩ := copyPlane_ok hd₁
      refine ⟨?_, ?_, hfmt.trans hfmt₁, hw.trans hw₁, hh.trans hh₁, hpts.trans hpts₁⟩
      · intro p hp
        rcases List.mem_cons.mp hp with rfl | hp
        -- the later planes do not touch this one
        · obtain ⟨hp₁, hs₁⟩ := hother index hnot
          exact ⟨hp₁.trans hone.1, hs₁.trans hone.2⟩
        · exact hall p hp
      · intro j hj
        simp only [List.map_cons, List.mem_cons, not_or] at hj
        obtain ⟨hp, hs⟩ := hother j hj.2
        obtain ⟨hp₁, hs₁⟩ := hother₁ j hj.1
        exact ⟨hp.trans hp₁, hs.trans hs₁⟩

theorem copyPlanes_isOk {source : FrameView} {planes : List (Fin 3 × Nat × Nat)} (d : OwnedFrame)
    (h : ∀ p ∈ planes, source.badPlane p.1.castSucc p.2.1 = false) :
    ∃ d', copyPlanes source planes d = (d', true) := by
  induction planes generalizing d with
  | nil => exact ⟨d, rfl⟩
  | cons p planes ih =>
      obtain ⟨index, rowBytes, rows⟩ := p
      have hbad := h _ List.mem_cons_self
      simp only [FrameView.badPlane, Bool.or_eq_false_iff, Option.isNone_eq_false_iff,
        decide_eq_false_iff_not] at hbad
      obtain ⟨plane, hplane⟩ := Option.isSome_iff_exists.mp hbad.1
      simp only [copyPlanes, copyPlane, hplane, hbad.2, ↓reduceIte]
      exact ih _ fun p hp => h p (List.mem_cons_of_mem _ hp)

/-! ## The view of a copy -/

theorem OwnedFrame.view_plane (frame : OwnedFrame) (index : Fin 3) :
    frame.view.planes index.castSucc = frame.viewPlane index ∧
      frame.view.strides index.castSucc = frame.strides index := by
  match index with
  | 0 => exact ⟨rfl, rfl⟩
  | 1 => exact ⟨rfl, rfl⟩
  | 2 => exact ⟨rfl, rfl⟩

/-- The view of a packed plane shows what the plane holds. -/
theorem view_visiblePlane {frame : OwnedFrame} {index : Fin 3} {rowBytes rows : Nat} {entry : Nat → Nat → UInt8}
    (hs : frame.strides index = rowBytes) (hp : frame.planes index = RowMajor.store rows rowBytes entry) :
    frame.view.visiblePlane index rowBytes rows = RowMajor.store rows rowBytes entry := by
  obtain ⟨hvp, hvs⟩ := frame.view_plane index
  unfold FrameView.visiblePlane
  rw [hvp, hvs, OwnedFrame.viewPlane]
  by_cases hnil : RowMajor.store rows rowBytes entry = []
  · simp [hp, hnil]
  · have hne : (frame.planes index).isEmpty = false := by simpa [hp] using hnil
    rw [hne]
    simp only [Bool.false_eq_true, ↓reduceIte, Plane.rows, hs, Int.toNat_natCast, hp]
    exact RowMajor.store_congr fun row hr col hc => RowMajor.store_getD entry 0 hr hc

theorem PlaneCopied.view {source : FrameView} {destination : OwnedFrame} {p : Fin 3 × Nat × Nat}
    (h : PlaneCopied source destination p) (hlt : p.2.1 < 2 ^ 31) :
    destination.view.visiblePlane p.1 p.2.1 p.2.2 = source.visiblePlane p.1 p.2.1 p.2.2 := by
  obtain ⟨index, rowBytes, rows⟩ := p
  obtain ⟨hp, hs⟩ := h
  rw [asInt32_of_lt hlt] at hs
  simp only at hp hs ⊢
  cases hsrc : source.planes index.castSucc with
  | none =>
      obtain ⟨hvp, -⟩ := destination.view_plane index
      have hnil : destination.planes index = [] := by simpa [FrameView.visiblePlane, hsrc] using hp
      simp [FrameView.visiblePlane, hsrc, hvp, OwnedFrame.viewPlane, hnil]
  | some plane =>
      have hv : source.visiblePlane index rowBytes rows =
          plane.rows (source.strides index.castSucc) rowBytes rows := by
        simp [FrameView.visiblePlane, hsrc]
      rw [hv] at hp ⊢
      exact view_visiblePlane hs hp

/-- After the copy each plane of the format is copied, and the slot has the format and dimensions of the source. -/
theorem ownFrame_planes {source : FrameView} {owned copy : OwnedFrame} {status : Status}
    (h : ownFrame source owned = (copy, status)) (hok : status.result = .ok) :
    ∃ planes, copiedPlanes source.pixelFormat source.width source.height = some planes ∧
      (∀ p ∈ planes, PlaneCopied source copy p) ∧ copy.pixelFormat = source.pixelFormat ∧ copy.width = source.width ∧
      copy.height = source.height ∧ copy.pts = source.pts := by
  unfold ownFrame at h
  simp only at h
  split at h
  · cases h; cases hok
  rename_i planes hplanes
  split at h
  · cases h; cases hok
  rename_i d hd
  cases h
  obtain ⟨hall, -, hfmt, hwd, hht, hpts⟩ := copyPlanes_ok hd (copiedPlanes_nodup hplanes)
  exact ⟨planes, hplanes, hall, hfmt, hwd, hht, hpts⟩

/-- Rows whose bytes an `int32_t` can count are copied as they are, and shown. -/
theorem ownFrame_shows {source : FrameView} {owned copy : OwnedFrame} {status : Status}
    (h : ownFrame source owned = (copy, status)) (hok : status.result = .ok)
    (hlt : ∀ planes, copiedPlanes source.pixelFormat source.width source.height = some planes → ∀ p ∈ planes, p.2.1 < 2 ^ 31) :
    copy.view.picture = source.picture := by
  obtain ⟨planes, hplanes, hall, hfmt, hwd, hht, hpts⟩ := ownFrame_planes h hok
  simp only [FrameView.picture, OwnedFrame.view, hfmt, hwd, hht, hpts, hplanes, Option.getD_some,
    Picture.mk.injEq, true_and]
  refine List.map_congr_left fun p hp => ?_
  have := (hall p hp).view (hlt planes hplanes p hp)
  simpa only [OwnedFrame.view, hfmt, hwd, hht, hpts] using this

theorem ownFrame_picture {source : FrameView} {owned copy : OwnedFrame} {status : Status}
    (h : ownFrame source owned = (copy, status)) (hok : status.result = .ok)
    (hw : source.width ≤ (2 ^ 31 - 1) / 4) : copy.view.picture = source.picture :=
  ownFrame_shows h hok fun _ hplanes => copiedPlanes_lt hplanes hw

/-! ## The layout check admits what can be copied -/

theorem validateCpuFrameLayout_ok {frame : FrameView} {width height alignment : Nat} {mode : CpuLayoutMode}
    (h : (validateCpuFrameLayout frame width height mode alignment).result = .ok) :
    frame.width = width ∧ frame.height = height ∧
      validateCpuFrameLayout frame width height mode alignment = .ok ∧
      ∃ count rowBytes, layoutRows frame.pixelFormat width = some (count, rowBytes) ∧
        ∀ i : Fin 4, i < count → frame.badPlane i (rowBytes i) = false := by
  unfold validateCpuFrameLayout at h ⊢
  split at h
  · cases h
  rename_i hdim
  simp only [not_or, ne_eq, not_not] at hdim
  split at h
  · cases h
  rename_i count rowBytes hrows
  split at h
  · cases h
  rename_i hbad
  simp only [not_exists, not_and, Bool.not_eq_true] at hbad
  refine ⟨hdim.1, hdim.2.1, ?_, count, rowBytes, hrows, hbad⟩
  rw [if_neg (by simpa [not_or] using hdim), if_neg (by simpa using hbad)]
  split at h
  · rename_i hmode; simp only [hmode, ↓reduceIte]
  rename_i hmode
  split at h
  · cases h
  rename_i hloose
  split at h
  · cases h
  rename_i hrest
  simp only [hmode, hloose, hrest, ↓reduceIte]

theorem ownFrame_ok {frame : FrameView} {width height alignment : Nat} {mode : CpuLayoutMode}
    (h : (validateCpuFrameLayout frame width height mode alignment).result = .ok) (owned : OwnedFrame) :
    (ownFrame frame owned).2 = .ok := by
  obtain ⟨rfl, rfl, -, count, rowBytes, hrows, hgood⟩ := validateCpuFrameLayout_ok h
  obtain ⟨planes, hplanes, hall⟩ : ∃ planes, copiedPlanes frame.pixelFormat frame.width frame.height = some planes ∧
      ∀ p ∈ planes, p.1.castSucc.val < count ∧ p.2.1 = rowBytes p.1.castSucc := copiedPlanes_layoutRows hrows
  have hcopy : ∀ p ∈ planes, frame.badPlane p.1.castSucc p.2.1 = false := by
    intro p hp
    obtain ⟨hlt, heq⟩ := hall p hp
    rw [heq]
    exact hgood _ hlt
  obtain ⟨d, hd⟩ := copyPlanes_isOk { owned with pixelFormat := frame.pixelFormat, width := frame.width, height := frame.height, pts := frame.pts } hcopy
  simp [ownFrame, hplanes, hd]

end MkvCodec
