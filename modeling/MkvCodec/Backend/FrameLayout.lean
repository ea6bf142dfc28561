import MkvCodec.Backend.FrameReuse

/-!
# The layout checks agree

Five functions check the planes of a CPU frame, each with its own 32-bit row sizes. Whether the planes have room for
their rows is said once, without a bound on the products, and each check is compared with that. Rows of fewer than
`2 ^ 31` bytes are judged alike by all five. Creation bounds the width so that every row of the encoder is one.
-/

namespace MkvCodec

/-- No plane of a format has more rows than the picture. -/
theorem PixelFormat.planes_rows_le {format : PixelFormat} {width height : Nat} {planes : List (Fin 3 × Nat × Nat)}
    (h : format.planes width height = some planes) : ∀ p ∈ planes, p.2.2 ≤ height := by
  intro p hp
  cases format with
  | p010 | unknown => cases h
  | i420 | nv12 | bgr24 | rgb24 | bgra32 =>
      cases h
      simp only [List.mem_cons, List.not_mem_nil, or_false] at hp
      rcases hp with rfl | rfl | rfl <;> simp only <;> omega

namespace FrameView

variable {frame : FrameView} {width rowBytes : Nat}

/-- The planes of the format are there, and each stride has room for a row of this width. -/
def HasRows (frame : FrameView) (width : Nat) : Prop :=
  ∃ planes, frame.pixelFormat.planes width frame.height = some planes ∧
    ∀ p ∈ planes, (frame.planes p.1.castSucc).isSome = true ∧ (p.2.1 : Int) ≤ frame.strides p.1.castSucc

/-- A plane of the format has a stride that is too small for a row of this width. -/
def StrideTooSmall (frame : FrameView) (width : Nat) : Prop :=
  ∃ planes, frame.pixelFormat.planes width frame.height = some planes ∧
    ∃ p ∈ planes, frame.strides p.1.castSucc < (p.2.1 : Int)

theorem StrideTooSmall.not_hasRows (h : frame.StrideTooSmall width) : ¬ frame.HasRows width := by
  obtain ⟨planes, hplanes, p, hp, hsmall⟩ := h
  rintro ⟨planes', hplanes', hall⟩
  obtain rfl : planes = planes' := Option.some.inj (hplanes.symm.trans hplanes')
  have := (hall p hp).2
  omega

/-- The width of a configuration keeps every row below `2 ^ 31` bytes. -/
theorem rowsFit_of_le (frame : FrameView) (h : width ≤ (2 ^ 31 - 1) / 4) : frame.RowsFit width := by
  intro planes hplanes p hp
  cases hformat : frame.pixelFormat with
  | p010 | unknown => rw [hformat] at hplanes; cases hplanes
  | i420 | nv12 | bgr24 | rgb24 | bgra32 =>
      rw [hformat] at hplanes
      cases hplanes
      simp only [List.mem_cons, List.not_mem_nil, or_false] at hp
      rcases hp with rfl | rfl | rfl <;> simp only <;> omega

theorem validPlane_eq_not_badPlane (index : Fin 4) : frame.validPlane index rowBytes = !frame.badPlane index rowBytes := by
  rw [validPlane, badPlane, Bool.not_or, ← decide_not, Option.not_isNone]
  simp only [Int.not_lt]

/-- The planes of a format, when none of its rows is bad. -/
def NoneBad (frame : FrameView) (width : Nat) : Prop :=
  ∃ planes, frame.pixelFormat.planes width frame.height = some planes ∧
    ∀ p ∈ planes, frame.badPlane p.1.castSucc p.2.1 = false

theorem noneBad_iff (hrows : frame.RowsFit width) : frame.NoneBad width ↔ frame.HasRows width :=
  exists_congr fun planes => and_congr_right fun hplanes =>
    forall₂_congr fun p hp => badPlane_eq_false p.1.castSucc (hrows planes hplanes p hp)

/-- Which planes a format looks at; a product of 32 bits is the exact one. -/
theorem noneBad_cases (hrows : frame.RowsFit width) : frame.NoneBad width ↔
    match frame.pixelFormat with
    | .i420 => frame.badPlane 0 width = false ∧ frame.badPlane 1 (width / 2) = false ∧
        frame.badPlane 2 (width / 2) = false
    | .nv12 => frame.badPlane 0 width = false ∧ frame.badPlane 1 width = false
    | .bgr24 | .rgb24 => frame.badPlane 0 (u32 (width * 3)) = false
    | .bgra32 => frame.badPlane 0 (u32 (width * 4)) = false
    | .p010 | .unknown _ => False := by
  rw [NoneBad]
  cases hformat : frame.pixelFormat with
  | p010 | unknown => simp [PixelFormat.planes]
  | i420 | nv12 =>
      simp only [PixelFormat.planes, Option.some.injEq, exists_eq_left', List.forall_mem_cons, List.not_mem_nil,
        false_implies, implies_true, and_true]
      rfl
  | bgr24 | rgb24 | bgra32 =>
      have hrow := hrows _ (by rw [hformat]; rfl) _ List.mem_cons_self
      simp only [PixelFormat.planes, Option.some.injEq, exists_eq_left', List.forall_mem_singleton,
        u32_of_lt (Nat.lt_trans hrow (by decide))]
      rfl

end FrameView

/-! ## What each check accepts -/

section checks

variable {frame : FrameView}

theorem validateBorrowedFrame_result (hrows : frame.RowsFit frame.width) :
    (validateBorrowedFrame frame).result = .ok ↔
      (frame.width ≠ 0 ∧ frame.height ≠ 0 ∧ frame.width % 2 = 0 ∧ frame.height % 2 = 0) ∧
        frame.HasRows frame.width := by
  rw [← FrameView.noneBad_iff hrows, FrameView.noneBad_cases hrows, validateBorrowedFrame]
  split
  · rename_i hdims
    simp only [false_iff, not_and, reduceCtorEq]
    omega
  rename_i hdims
  simp only [not_or, ne_eq, not_not] at hdims
  simp only [ne_eq, hdims, not_false_eq_true, and_self, true_and, FrameView.validPlane_eq_not_badPlane]
  cases frame.pixelFormat with
  | p010 | unknown => simp
  | i420 | nv12 | bgr24 | rgb24 | bgra32 =>
      simp only
      split <;> simp_all [Status.ok]

theorem FrameView.Valid.borrowed (h : frame.Valid) : (validateBorrowedFrame frame).result = .ok := by
  obtain ⟨planes, hplanes, hall⟩ := h.planes
  refine (validateBorrowedFrame_result h.rowsFit).mpr ⟨⟨?_, ?_, h.width_even, h.height_even⟩, planes, hplanes, fun p hp => ?_⟩
  · exact Nat.ne_of_gt h.width_pos
  · exact Nat.ne_of_gt h.height_pos
  · exact ⟨(hall p hp).1, (hall p hp).2.1⟩

/-- The check of a borrowed frame accepts just the valid frames. -/
theorem validateBorrowedFrame_valid (hrows : frame.RowsFit frame.width) (hlt : ∀ i, frame.strides i < 2 ^ 31) :
    (validateBorrowedFrame frame).result = .ok ↔ frame.Valid := by
  constructor
  · intro hok
    obtain ⟨⟨hwidth, hheight, heven⟩, planes, hplanes, hall⟩ := (validateBorrowedFrame_result hrows).mp hok
    exact ⟨Nat.pos_of_ne_zero hwidth, Nat.pos_of_ne_zero hheight, heven.1, heven.2, planes, hplanes,
      fun p hp => ⟨(hall p hp).1, (hall p hp).2, hlt _⟩⟩
  · exact FrameView.Valid.borrowed

theorem validateCpuFrameLayout_rows {width height alignment : Nat} {mode : CpuLayoutMode}
    (h : (validateCpuFrameLayout frame width height mode alignment).result = .ok) :
    (frame.width = width ∧ frame.height = height ∧ width ≠ 0 ∧ height ≠ 0 ∧ width % 2 = 0 ∧ height % 2 = 0) ∧
      (frame.RowsFit width → frame.HasRows width) := by
  obtain ⟨hwidth, hheight, -, count, rowBytes, hlayout, hgood⟩ := validateCpuFrameLayout_ok h
  refine ⟨?_, fun hrows => ?_⟩
  · unfold validateCpuFrameLayout at h
    split at h
    · cases h
    rename_i hdims
    simpa [not_or] using hdims
  rw [← FrameView.noneBad_iff hrows, FrameView.noneBad_cases hrows]
  cases hformat : frame.pixelFormat with
  | p010 | unknown => rw [hformat] at hlayout; cases hlayout
  | i420 | nv12 | bgr24 | rgb24 | bgra32 =>
      rw [hformat] at hlayout
      cases hlayout
      simpa [Fin.forall_fin_succ] using hgood

theorem copyPlanes_notBad {planes : List (Fin 3 × Nat × Nat)} {d d' : OwnedFrame}
    (h : copyPlanes frame planes d = (d', true)) : ∀ p ∈ planes, frame.badPlane p.1.castSucc p.2.1 = false := by
  induction planes generalizing d with
  | nil => simp
  | cons p planes ih =>
      obtain ⟨index, rowBytes, rows⟩ := p
      simp only [copyPlanes] at h
      split at h
      · cases h
      rename_i d₁ hd₁
      refine List.forall_mem_cons.mpr ⟨?_, ih h⟩
      unfold copyPlane at hd₁
      split at hd₁
      · cases hd₁
      rename_i plane hplane
      split at hd₁
      · cases hd₁
      rename_i hstride
      simp only [FrameView.badPlane, hplane, hstride, Option.isNone_some, decide_false, Bool.or_self]

theorem ownFrame_result (hrows : frame.RowsFit frame.width) (previous : OwnedFrame) :
    (ownFrame frame previous).2.result = .ok ↔ frame.HasRows frame.width := by
  rw [← FrameView.noneBad_iff hrows]
  constructor
  · intro hok
    cases hown : ownFrame frame previous with
    | mk copy status =>
      rw [hown] at hok
      unfold ownFrame at hown
      simp only [FrameView.copiedPlanes_eq hrows] at hown
      split at hown
      · cases hown; cases hok
      rename_i planes hplanes
      split at hown
      · cases hown; cases hok
      rename_i d hd
      exact ⟨planes, hplanes, copyPlanes_notBad hd⟩
  · rintro ⟨planes, hplanes, hgood⟩
    obtain ⟨d, hd⟩ := copyPlanes_isOk
      { previous with pixelFormat := frame.pixelFormat, width := frame.width, height := frame.height, pts := frame.pts }
      hgood
    simp [ownFrame, FrameView.copiedPlanes_eq hrows, hplanes, hd]

/-- Each copied plane has its rows one after the other, and neither its stride nor its size is a wrapped product. -/
theorem ownFrame_sizes (hrows : frame.RowsFit frame.width) (hheight : frame.height < 2 ^ 32) {previous : OwnedFrame}
    (hok : (ownFrame frame previous).2.result = .ok) :
    ∃ planes, frame.pixelFormat.planes frame.width frame.height = some planes ∧
      ∀ p ∈ planes, (ownFrame frame previous).1.strides p.1 = p.2.1 ∧
        ((ownFrame frame previous).1.planes p.1).length = p.2.2 * p.2.1 ∧ p.2.2 * p.2.1 < 2 ^ 63 := by
  obtain ⟨planes, hplanes, hall, -⟩ := ownFrame_planes (Prod.eta _).symm hok
  rw [FrameView.copiedPlanes_eq hrows] at hplanes
  obtain ⟨planes', hplanes', hhas⟩ := (ownFrame_result hrows previous).mp hok
  obtain rfl : planes = planes' := Option.some.inj (hplanes.symm.trans hplanes')
  refine ⟨planes, hplanes, fun p hp => ?_⟩
  obtain ⟨hbytes, hstride⟩ := hall p hp
  have hrow := hrows planes hplanes p hp
  have hcount : p.2.2 < 2 ^ 32 := Nat.lt_of_le_of_lt (PixelFormat.planes_rows_le hplanes p hp) hheight
  refine ⟨?_, ?_, ?_⟩
  · rw [hstride, asInt32_of_lt hrow]
  · obtain ⟨plane, hplane⟩ := Option.isSome_iff_exists.mp (hhas p hp).1
    rw [hbytes, FrameView.visiblePlane, hplane]
    simp only [Plane.rows, RowMajor.length_store]
  · calc p.2.2 * p.2.1 < 2 ^ 32 * 2 ^ 31 := Nat.mul_lt_mul'' hcount hrow
      _ = 2 ^ 63 := by rfl

end checks

namespace Backend

variable {frame : FrameView} {width height i420 nv12 : Nat} {name : String}

/-- A switch that does not refuse reports what libyuv does. -/
theorem CpuConversion.report_true {conversion : CpuConversion} {message : String} (h : ∀ status, conversion ≠ .refused status) :
    conversion.report true message = .ok := by
  cases conversion with
  | refused status => exact absurd rfl (h status)
  | copies | converts => rfl

/-- The conversion measures the strides against the width it is given, not against that of the frame. -/
theorem convertCpuFrameToI420_hasRows {libyuv : Bool} (hrows : frame.RowsFit width)
    (h : (convertCpuFrameToI420 frame width height i420 name libyuv).result = .ok) : frame.HasRows width := by
  rw [← FrameView.noneBad_iff hrows, FrameView.noneBad_cases hrows]
  unfold convertCpuFrameToI420 i420Conversion at h
  split at h
  · cases h
  cases hformat : frame.pixelFormat with
  | p010 | unknown => rw [hformat] at h; cases h
  | i420 | nv12 | bgr24 | rgb24 | bgra32 =>
      rw [hformat] at h
      simp only at h ⊢
      split at h
      · cases h
      rename_i hbad
      simpa [and_assoc] using hbad

theorem convertCpuFrameToI420_accepts (hrows : frame.RowsFit width) (h : frame.HasRows width)
    (hroom : frameSize width height ≤ i420) : convertCpuFrameToI420 frame width height i420 name true = .ok := by
  rw [← FrameView.noneBad_iff hrows, FrameView.noneBad_cases hrows] at h
  refine CpuConversion.report_true fun status => ?_
  rw [i420Conversion, if_neg (Nat.not_lt.mpr hroom)]
  cases hformat : frame.pixelFormat with
  | p010 | unknown => rw [hformat] at h; cases h
  | i420 | nv12 | bgr24 | rgb24 | bgra32 =>
      rw [hformat] at h
      simp [h]

theorem convertCpuFrameToNv12_hasRows {libyuv : Bool} (hrows : frame.RowsFit width)
    (h : (convertCpuFrameToNv12 frame width height i420 nv12 name libyuv).result = .ok) : frame.HasRows width := by
  rw [← FrameView.noneBad_iff hrows, FrameView.noneBad_cases hrows]
  unfold convertCpuFrameToNv12 nv12Conversion at h
  split at h
  · cases h
  cases hformat : frame.pixelFormat with
  | p010 | unknown => rw [hformat] at h; cases h
  | i420 | nv12 | bgr24 | rgb24 | bgra32 =>
      rw [hformat] at h
      simp only at h ⊢
      split at h
      · cases h
      rename_i hbad
      simpa [and_assoc] using hbad

theorem convertCpuFrameToNv12_accepts (hrows : frame.RowsFit width) (h : frame.HasRows width)
    (hroom : frameSize width height ≤ i420) (hroom' : frameSize width height ≤ nv12) :
    convertCpuFrameToNv12 frame width height i420 nv12 name true = .ok := by
  rw [← FrameView.noneBad_iff hrows, FrameView.noneBad_cases hrows] at h
  refine CpuConversion.report_true fun status => ?_
  rw [nv12Conversion, if_neg (by simp only [Bool.or_eq_true, decide_eq_true_eq]; omega)]
  cases hformat : frame.pixelFormat with
  | p010 | unknown => rw [hformat] at h; cases h
  | i420 | nv12 | bgr24 | rgb24 | bgra32 =>
      rw [hformat] at h
      simp [h]

/-! ## The five checks together -/

/-- What the later checks make of a frame: the borrowed check and both conversions accept it, and the copy has exactly
its rows. -/
structure Admitted (cfg : Config) (frame : FrameView) : Prop where
  borrowed : (validateBorrowedFrame frame).result = .ok
  owned : ∀ previous, (ownFrame frame previous).2.result = .ok ∧
    ∃ planes, frame.pixelFormat.planes frame.width frame.height = some planes ∧
      ∀ p ∈ planes, (ownFrame frame previous).1.strides p.1 = p.2.1 ∧
        ((ownFrame frame previous).1.planes p.1).length = p.2.2 * p.2.1 ∧ p.2.2 * p.2.1 < 2 ^ 63
  i420 : ∀ (room : Nat) (codec : String), frameSize cfg.width cfg.height ≤ room →
    convertCpuFrameToI420 frame cfg.width cfg.height room codec true = .ok
  nv12 : ∀ (room room' : Nat) (backend : String), frameSize cfg.width cfg.height ≤ room →
    frameSize cfg.width cfg.height ≤ room' →
    convertCpuFrameToNv12 frame cfg.width cfg.height room room' backend true = .ok

/-- The layout check does not accept the frame in any mode. -/
def LayoutRefused (cfg : Config) (frame : FrameView) : Prop :=
  ∀ mode alignment, (validateCpuFrameLayout frame cfg.width cfg.height mode alignment).result ≠ .ok

/-- Neither the borrowed check nor the copy accepts the frame. -/
def SubmissionRefused (frame : FrameView) : Prop :=
  (validateBorrowedFrame frame).result ≠ .ok ∧ ∀ previous, (ownFrame frame previous).2.result ≠ .ok

/-- Neither conversion accepts the frame, whatever libyuv would say. -/
def ConversionRefused (cfg : Config) (frame : FrameView) : Prop :=
  ∀ (room room' : Nat) (name : String) (libyuv : Bool),
    (convertCpuFrameToI420 frame cfg.width cfg.height room name libyuv).result ≠ .ok ∧
      (convertCpuFrameToNv12 frame cfg.width cfg.height room room' name libyuv).result ≠ .ok

variable {cfg : Config}

theorem admitted_of_layout {mode : CpuLayoutMode} {alignment : Nat}
    (h : (validateCpuFrameLayout frame cfg.width cfg.height mode alignment).result = .ok) : Admitted cfg frame := by
  obtain ⟨⟨hwidth, hheight, hdims⟩, hhas⟩ := validateCpuFrameLayout_rows h
  have hrows : frame.RowsFit cfg.width := frame.rowsFit_of_le cfg.width_le
  have hhas : frame.HasRows cfg.width := hhas hrows
  have hrows' : frame.RowsFit frame.width := hwidth ▸ hrows
  have hhas' : frame.HasRows frame.width := hwidth ▸ hhas
  have hlt : frame.height < 2 ^ 32 := by
    have := cfg.height_le
    omega
  refine ⟨?_, fun previous => ?_, ?_, ?_⟩
  · rw [validateBorrowedFrame_result hrows', hwidth, hheight]
    exact ⟨hdims, hhas⟩
  · have hok := (ownFrame_result hrows' previous).mpr hhas'
    exact ⟨hok, ownFrame_sizes hrows' hlt hok⟩
  · exact fun room codec hroom => convertCpuFrameToI420_accepts hrows hhas hroom
  · exact fun room room' backend hroom hroom' => convertCpuFrameToNv12_accepts hrows hhas hroom hroom'

theorem layoutRefused_of_stride (h : frame.StrideTooSmall frame.width) : LayoutRefused cfg frame := by
  intro mode alignment hok
  obtain ⟨⟨hwidth, -⟩, hhas⟩ := validateCpuFrameLayout_rows hok
  exact h.not_hasRows (hwidth ▸ hhas (frame.rowsFit_of_le cfg.width_le))

theorem submissionRefused_of_stride (h : frame.StrideTooSmall frame.width) (hrows : frame.RowsFit frame.width) :
    SubmissionRefused frame :=
  ⟨fun hok => h.not_hasRows ((validateBorrowedFrame_result hrows).mp hok).2,
    fun previous hok => h.not_hasRows ((ownFrame_result hrows previous).mp hok)⟩

theorem conversionRefused_of_stride (h : frame.StrideTooSmall cfg.width) : ConversionRefused cfg frame :=
  have hrows : frame.RowsFit cfg.width := frame.rowsFit_of_le cfg.width_le
  fun _ _ _ _ => ⟨fun hok => h.not_hasRows (convertCpuFrameToI420_hasRows hrows hok),
    fun hok => h.not_hasRows (convertCpuFrameToNv12_hasRows hrows hok)⟩

/-- What the layout check accepts, every later function accepts. A stride that is too small for a row is found by the
layout check, by the functions that take the row of the frame where that row has fewer than `2 ^ 31` bytes, and by the
conversions where the row is that of the configured width. -/
theorem layouts_agree (cfg : Config) (frame : FrameView) :
    (∀ mode alignment, (validateCpuFrameLayout frame cfg.width cfg.height mode alignment).result = .ok →
      Admitted cfg frame) ∧
    (frame.StrideTooSmall frame.width →
      LayoutRefused cfg frame ∧ (frame.RowsFit frame.width → SubmissionRefused frame)) ∧
    (frame.StrideTooSmall cfg.width → ConversionRefused cfg frame) :=
  ⟨fun _ _ => admitted_of_layout, fun h => ⟨layoutRefused_of_stride h, submissionRefused_of_stride h⟩,
    conversionRefused_of_stride⟩

/-- One packed plane of four bytes a pixel. -/
def bgraFrame (width height : Nat) (stride : Int) : FrameView :=
  { pixelFormat := .bgra32, width := width, height := height, pts := -1
    planes := ![some ⟨0, fun _ => 0⟩, none, none, none], strides := ![stride, 0, 0, 0] }

/-- An encoder of two by two pixels. -/
abbrev twoByTwo : Config := .small .vp9 30 1 Config.video_valid Config.videoScale_valid

/-- The row of `2 ^ 30` pixels wraps to no byte. A frame that is wider than the encoder is measured with the width of
the encoder when it is converted. -/
theorem stride_too_small_accepted :
    ((bgraFrame (2 ^ 30) 2 0).StrideTooSmall (2 ^ 30) ∧
      (validateBorrowedFrame (bgraFrame (2 ^ 30) 2 0)).result = .ok ∧
      (ownFrame (bgraFrame (2 ^ 30) 2 0) .empty).2.result = .ok) ∧
    (bgraFrame 4 2 8).StrideTooSmall 4 ∧
      (convertCpuFrameToI420 (bgraFrame 4 2 8) twoByTwo.width twoByTwo.height 6 "VP9" true).result = .ok ∧
      (convertCpuFrameToNv12 (bgraFrame 4 2 8) twoByTwo.width twoByTwo.height 6 6 "oneVPL" true).result = .ok :=
  ⟨⟨⟨_, rfl, _, List.mem_cons_self, by decide⟩, rfl, rfl⟩, ⟨_, rfl, _, List.mem_cons_self, by decide⟩, rfl, rfl⟩

/-- A packed frame of the configured dimensions is admitted. -/
theorem layouts_agree_small : Admitted twoByTwo (bgraFrame 2 2 8) ∧ LayoutRefused twoByTwo (bgraFrame 2 2 7) :=
  ⟨(layouts_agree twoByTwo (bgraFrame 2 2 8)).1 .strict 8 (by decide),
    ((layouts_agree twoByTwo (bgraFrame 2 2 7)).2.1 ⟨_, rfl, _, List.mem_cons_self, by decide⟩).1⟩

end Backend

end MkvCodec
