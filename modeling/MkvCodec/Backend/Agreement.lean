import MkvCodec.Backend.Clock
import MkvCodec.Backend.Conversion
import MkvCodec.Backend.IntelFeed
import MkvCodec.Backend.NvencFeed

/-!
# When the backends write the same time stamps

The CPU encoders write the exact time of every frame. The Intel encoder writes that of the frame that comes back from
the 90 kHz clock. The NVIDIA encoder takes a time stamp for nanoseconds, and counts on by whole nanoseconds.
-/

namespace MkvCodec.Backend

open Concurrency (Run)
open TimeBase (rescale)

/-! ## The counters of nanoseconds and of frames -/

section

variable (fpsNum fpsDen : Nat)

/-- One second over the frame rate, in units of `1 / fpsNum` nanoseconds. -/
abbrev frameNanoseconds (fpsDen : Nat) : Nat := fpsDen * 1000000000

/-- A frame has the same time on both counters. A time stamp is the same in nanoseconds and in frames; the frame behind
`next - 1` is a rounded frame duration behind it. -/
def SameTime (next : Nat) (requested : Int) : Prop :=
  if 0 ≤ requested then
    requested.toNat * fpsNum ≤ requested.toNat * frameNanoseconds fpsDen ∧
      requested.toNat * frameNanoseconds fpsDen < requested.toNat * fpsNum + fpsNum
  else next = 0 ∨ (next - 1) * frameNanoseconds fpsDen % fpsNum + frameNanoseconds fpsDen % fpsNum < fpsNum

/-- All frames have. -/
def SameTimes : Nat → List Int → Prop
  | _, [] => True
  | next, requested :: rest => SameTime fpsNum fpsDen next requested ∧ SameTimes (advance 1 next requested) rest

/-- The counter of nanoseconds when the next frame is `next`. -/
def behind : Nat → Nat
  | 0 => 0
  | p + 1 => exactNanoseconds fpsNum fpsDen p + frameNanoseconds fpsDen / fpsNum

end

variable {fpsNum fpsDen : Nat}

theorem behind_mono {c c' : Nat} (h : c ≤ c') : behind fpsNum fpsDen c ≤ behind fpsNum fpsDen c' := by
  cases c with
  | zero => exact Nat.zero_le _
  | succ p =>
      cases c' with
      | zero => omega
      | succ p' => exact Nat.add_le_add_right (TimeBase.rescale_mono (by omega)) _

theorem behind_max (c c' : Nat) :
    max (behind fpsNum fpsDen c) (behind fpsNum fpsDen c') = behind fpsNum fpsDen (max c c') := by
  cases Nat.le_total c c' with
  | inl h => rw [Nat.max_eq_right h, Nat.max_eq_right (behind_mono h)]
  | inr h => rw [Nat.max_eq_left h, Nat.max_eq_left (behind_mono h)]

/-- One frame has the same time on both counters. -/
theorem sameTime_iff (hnum : 0 < fpsNum) (next : Nat) (requested : Int) :
    selectPts (behind fpsNum fpsDen next) requested = exactNanoseconds fpsNum fpsDen (selectPts next requested) ↔
      SameTime fpsNum fpsDen next requested := by
  unfold SameTime selectPts
  split
  · rw [eq_comm, exactNanoseconds, TimeBase.rescale_eq_iff hnum]
  · cases next with
    | zero => simp [behind, exactNanoseconds]
    | succ p =>
        have hunit : frameNanoseconds fpsDen / fpsNum = rescale (frameNanoseconds fpsDen) fpsNum 1 := by
          rw [TimeBase.rescale, Nat.one_mul]
        have hsucc := TimeBase.rescale_succ (a := frameNanoseconds fpsDen) (n := p) hnum
        rw [behind, hunit, eq_comm, exactNanoseconds, exactNanoseconds, hsucc]
        simp

/-- And then the counters move on together. -/
theorem advance_behind {next : Nat} {requested : Int}
    (h : selectPts (behind fpsNum fpsDen next) requested = exactNanoseconds fpsNum fpsDen (selectPts next requested)) :
    advance (frameNanoseconds fpsDen / fpsNum) (behind fpsNum fpsDen next) requested =
      behind fpsNum fpsDen (advance 1 next requested) := by
  rw [advance, advance, h, ← behind_max]
  rfl

theorem usedPts_eq_iff (hnum : 0 < fpsNum) (next : Nat) (requests : List Int) :
    usedPts (frameNanoseconds fpsDen / fpsNum) (behind fpsNum fpsDen next) requests =
      (usedPts 1 next requests).map (exactNanoseconds fpsNum fpsDen) ↔ SameTimes fpsNum fpsDen next requests := by
  induction requests generalizing next with
  | nil => simp [usedPts, SameTimes]
  | cons requested rest ih =>
      rw [usedPts, usedPts, List.map_cons, List.cons_eq_cons, SameTimes, ← sameTime_iff hnum]
      constructor
      · intro h
        rw [advance_behind h.1] at h
        exact ⟨h.1, (ih _).mp h.2⟩
      · intro h
        rw [advance_behind h.1]
        exact ⟨h.1, (ih _).mpr h.2⟩

/-- The counter of nanoseconds stays below that of frames, in the unit of the products. -/
theorem usedPts_lt (hden : 0 < fpsDen) {bound : Nat} (requests : List Int) {next nextNs : Nat}
    (hnext : nextNs ≤ next * frameNanoseconds fpsDen)
    (h : ∀ p ∈ usedPts 1 next requests, (p + 1) * frameNanoseconds fpsDen < bound) :
    ∀ t ∈ usedPts (frameNanoseconds fpsDen / fpsNum) nextNs requests,
      t + frameNanoseconds fpsDen / fpsNum < bound := by
  have hunit : frameNanoseconds fpsDen / fpsNum ≤ frameNanoseconds fpsDen := Nat.div_le_self _ _
  induction requests generalizing next nextNs with
  | nil => simp [usedPts]
  | cons requested rest ih =>
      have hselect : selectPts nextNs requested ≤ selectPts next requested * frameNanoseconds fpsDen := by
        unfold selectPts
        split
        · exact Nat.le_mul_of_pos_right _ (by unfold frameNanoseconds; omega)
        · exact hnext
      have hadd : (selectPts next requested + 1) * frameNanoseconds fpsDen =
          selectPts next requested * frameNanoseconds fpsDen + frameNanoseconds fpsDen := Nat.succ_mul _ _
      have hmax : next * frameNanoseconds fpsDen ≤ advance 1 next requested * frameNanoseconds fpsDen :=
        Nat.mul_le_mul_right _ (Nat.le_max_left _ _)
      have hmax' : (selectPts next requested + 1) * frameNanoseconds fpsDen ≤
          advance 1 next requested * frameNanoseconds fpsDen := Nat.mul_le_mul_right _ (Nat.le_max_right _ _)
      intro t ht
      cases List.mem_cons.mp ht with
      | inl heq =>
          have hfirst := h _ List.mem_cons_self
          omega
      | inr hrest =>
          apply ih _ (fun p hp => h p (List.mem_cons_of_mem _ hp)) t hrest
          rw [advance]
          omega

/-! ## The clock -/

/-- A frame is a whole number of units of the clock, or frames are shorter than a nanosecond. -/
def WholeUnits (fpsNum fpsDen pts : Nat) : Prop :=
  fpsNum ∣ pts * (90000 * fpsDen) ∨ frameNanoseconds fpsDen < fpsNum

/-- Frames shorter than a nanosecond that agree are all in the first nanosecond. -/
theorem exactNanoseconds_eq_zero (hnum : 0 < fpsNum) (hshort : frameNanoseconds fpsDen < fpsNum) (requests : List Int)
    {next : Nat} (hnext : behind fpsNum fpsDen next = 0) (h : SameTimes fpsNum fpsDen next requests) :
    ∀ p ∈ usedPts 1 next requests, exactNanoseconds fpsNum fpsDen p = 0 := by
  induction requests generalizing next with
  | nil => simp [usedPts]
  | cons requested rest ih =>
      obtain ⟨hone, hrest⟩ := h
      have hsame := (sameTime_iff hnum next requested).mpr hone
      have hfirst : exactNanoseconds fpsNum fpsDen (selectPts next requested) = 0 := by
        rw [← hsame, hnext]
        unfold selectPts at hsame ⊢
        split
        · rename_i hexplicit
          rw [if_pos hexplicit, if_pos hexplicit] at hsame
          exact TimeBase.eq_zero_of_rescale_eq hshort hsame.symm
        · rfl
      have hmoved : behind fpsNum fpsDen (advance 1 next requested) = 0 := by
        rw [← advance_behind hsame, advance, hsame, hfirst, hnext, Nat.div_eq_of_lt hshort, Nat.max_self]
      intro p hp
      cases List.mem_cons.mp hp with
      | inl heq => rw [heq, hfirst]
      | inr hp => exact ih hmoved hrest p hp

/-- What the Intel encoder writes for a frame is the time of the frame that comes back. -/
theorem vplNanoseconds_eq (config : Config) {pts : Nat} (hno : pts * frameNanoseconds config.fpsDen < 2 ^ 63) :
    vplNanoseconds config.fpsNum config.fpsDen (vplTimeStamp config.fpsNum config.fpsDen pts) =
      exactNanoseconds config.fpsNum config.fpsDen
        (rescale config.fpsNum (90000 * config.fpsDen) (rescale (90000 * config.fpsDen) config.fpsNum pts)) := by
  have hclock : pts * (90000 * config.fpsDen) ≤ pts * frameNanoseconds config.fpsDen :=
    Nat.mul_le_mul_left pts (by unfold frameNanoseconds; omega)
  have hback := TimeBase.rescale_back_le (a := 90000 * config.fpsDen) (b := config.fpsNum) (n := pts)
  have hpts : pts ≤ pts * frameNanoseconds config.fpsDen := by
    have hden := config.fpsDen_pos
    exact Nat.le_mul_of_pos_right pts (by unfold frameNanoseconds; omega)
  have hsmall := Nat.mul_le_mul_right (frameNanoseconds config.fpsDen) hback
  rw [vplNanoseconds, vplPts_vplTimeStamp config.fpsDen_pos config.fpsDen_lt (by omega)]
  exact (toNanoseconds_eq_iff config.fpsNum_pos config.fpsNum_lt (by omega)).mpr (by
    unfold frameNanoseconds at hsmall hno; omega)

/-- Where frames agree on the counters, they agree on the clock when they are whole numbers of its units. -/
theorem vplNanoseconds_exact_iff (config : Config) {requests : List Int}
    (hno : ∀ p ∈ usedPts 1 0 requests, (p + 1) * frameNanoseconds config.fpsDen < 2 ^ 63)
    (hsame : SameTimes config.fpsNum config.fpsDen 0 requests) {p : Nat} (hp : p ∈ usedPts 1 0 requests) :
    vplNanoseconds config.fpsNum config.fpsDen (vplTimeStamp config.fpsNum config.fpsDen p) =
      exactNanoseconds config.fpsNum config.fpsDen p ↔ WholeUnits config.fpsNum config.fpsDen p := by
  have hnum := config.fpsNum_pos
  have hden := config.fpsDen_pos
  have hone := hno p hp
  have hsplit : (p + 1) * frameNanoseconds config.fpsDen =
      p * frameNanoseconds config.fpsDen + frameNanoseconds config.fpsDen := Nat.succ_mul _ _
  have hback := TimeBase.rescale_back_le (a := 90000 * config.fpsDen) (b := config.fpsNum) (n := p)
  have hback_iff := TimeBase.rescale_back (a := 90000 * config.fpsDen) (b := config.fpsNum) (n := p) (by omega)
  rw [vplNanoseconds_eq config (by omega), WholeUnits]
  constructor
  · intro heq
    by_cases hshort : frameNanoseconds config.fpsDen < config.fpsNum
    · exact .inr hshort
    · apply Or.inl
      rw [← hback_iff]
      by_contra hne
      have hlt := TimeBase.rescale_lt (a := frameNanoseconds config.fpsDen) hnum (by omega)
        (Nat.lt_of_le_of_ne hback hne)
      exact absurd heq (Nat.ne_of_lt hlt)
  · intro h
    cases h with
    | inl hdvd => rw [hback_iff.mpr hdvd]
    | inr hshort =>
        have hstart : behind config.fpsNum config.fpsDen 0 = 0 := rfl
        have hzero := exactNanoseconds_eq_zero hnum hshort requests hstart hsame p hp
        have hmono := TimeBase.rescale_mono (a := frameNanoseconds config.fpsDen) (b := config.fpsNum) hback
        rw [exactNanoseconds] at hzero ⊢
        rw [exactNanoseconds, hzero]
        rw [hzero] at hmono
        exact Nat.le_zero.mp hmono

/-! ## What the encoders write -/

/-- From `start`, calls that succeed and ask for `requests` put the times `times` into the container, and in the end the
codec has returned what it was given. -/
def Feed.Writes {S O V : Type*} (f : Feed S O V) (start : S) (requests : List Int) (times : List Nat) : Prop :=
  ∃ ops last, Run f.accepts start ops last ∧ f.requests ops = requests ∧ f.returned last = f.submitted last ∧
    f.timestamps last = times

theorem Feed.Writes.times_eq {S O V : Type*} {f : Feed S O V} {start : S} {requests : List Int} {times : List Nat}
    (h : f.Writes start requests times) (hinv : f.inv start) (hnext : f.next start = (0 : Nat))
    (hempty : f.submitted start = [] ∧ f.returned start = [] ∧ f.timestamps start = [])
    (hno : ∀ p ∈ usedPts f.unit 0 requests, p + f.unit < 2 ^ 63) :
    times = (usedPts f.unit 0 requests).map fun p => f.decode (f.encode p) := by
  obtain ⟨ops, last, hrun, rfl, hfifo, rfl⟩ := h
  have htaken : f.submitted last = f.submitted start ++ f.submitted last := by rw [hempty.1, List.nil_append]
  have hreturned : f.returned last = f.returned start ++ ([] ++ f.submitted last) := by
    rw [hempty.2.1, hfifo]
    rfl
  have htimes := f.timestamps_eq hrun hinv hnext hno htaken hreturned
  rw [htimes, hempty.2.2]
  rfl

/-! Each backend starts with what its `create` returns. -/

def WrittenByVp9 (config : Config) : List Int → List Nat → Prop :=
  (vp9Feed config.fpsNum config.fpsDen).Writes (.created config)

def WrittenByAv1 (config : Config) : List Int → List Nat → Prop :=
  (av1Feed config.fpsNum config.fpsDen).Writes (.created config)

def WrittenByIntel (config : Config) (requests : List Int) (times : List Nat) : Prop :=
  ∃ runtime muxer e, IntelWebmEncoder.create config runtime muxer = .ok e ∧
    (intelFeed config.fpsNum config.fpsDen).Writes e requests times

def WrittenByNvenc (config : Config) (requests : List Int) (times : List Nat) : Prop :=
  ∃ av1Encode api init muxer e, NvidiaWebmEncoder.create config av1Encode api init muxer = .ok e ∧
    (nvencFeed config).Writes e requests times

/-- The exact times of the frames. -/
def frameTimes (config : Config) (requests : List Int) : List Nat :=
  (usedPts 1 0 requests).map (exactNanoseconds config.fpsNum config.fpsDen)

/-- The time stamps are small enough not to overflow. -/
def Fits (config : Config) (requests : List Int) : Prop :=
  ∀ p ∈ usedPts 1 0 requests, (p + 1) * frameNanoseconds config.fpsDen < 2 ^ 63

variable {config : Config} {requests : List Int} {times : List Nat}

theorem Fits.product (h : Fits config requests) {p : Nat} (hp : p ∈ usedPts 1 0 requests) :
    p * frameNanoseconds config.fpsDen < 2 ^ 63 := by
  have hone := h p hp
  rw [Nat.succ_mul] at hone
  omega

theorem Fits.succ (h : Fits config requests) {p : Nat} (hp : p ∈ usedPts 1 0 requests) : p + 1 < 2 ^ 63 := by
  have hone := h p hp
  have hden := config.fpsDen_pos
  have hle : p + 1 ≤ (p + 1) * frameNanoseconds config.fpsDen :=
    Nat.le_mul_of_pos_right _ (by unfold frameNanoseconds; omega)
  omega

/-- Both CPU encoders write the exact times. -/
theorem cpu_times_eq (hfits : Fits config requests)
    (h : times = (usedPts 1 0 requests).map fun p : Nat => toNanoseconds config.fpsNum config.fpsDen p) :
    times = frameTimes config requests := by
  rw [h]
  apply List.map_congr_left
  intro p hp
  have hproduct := hfits.product hp
  have hsucc := hfits.succ hp
  exact (toNanoseconds_eq_iff config.fpsNum_pos config.fpsNum_lt (by omega)).mpr (by
    unfold frameNanoseconds at hproduct; omega)

theorem WrittenByVp9.times_eq (h : WrittenByVp9 config requests times) (hfits : Fits config requests) :
    times = frameTimes config requests :=
  cpu_times_eq hfits (Feed.Writes.times_eq h ⟨rfl, rfl⟩ rfl ⟨rfl, rfl, rfl⟩ fun _ hp => hfits.succ hp)

theorem WrittenByAv1.times_eq (h : WrittenByAv1 config requests times) (hfits : Fits config requests) :
    times = frameTimes config requests :=
  cpu_times_eq hfits (Feed.Writes.times_eq h ⟨rfl, rfl⟩ rfl ⟨rfl, rfl, rfl⟩ fun _ hp => hfits.succ hp)

theorem IntelWebmEncoder.create_empty {runtime muxer : Option String} {e : IntelWebmEncoder}
    (h : create config runtime muxer = .ok e) :
    e.sequence.nextPts = (0 : Nat) ∧ e.sequence.surfaces = [] ∧ stamps e.sequence.bitstreams = [] ∧
      e.muxer.muxer.timestamps = [] := by
  unfold create VplEncoderSequence.create at h
  split at h
  · cases h
  · rename_i sequence hsequence
    split at hsequence
    · cases hsequence
    · rename_i hcreate
      have hempty := VplEncoderSequence.createEncoder_empty hcreate
      cases hsequence
      split at h
      · cases h
      · cases h
        simp [VplEncoderSequence.surfaces, VplEncoderSequence.bitstreams, VplEncoderSequence.encoders, hempty,
          WebmMuxer.timestamps, WebmMuxer.created]

theorem WrittenByIntel.times_eq (h : WrittenByIntel config requests times) (hfits : Fits config requests) :
    times = (usedPts 1 0 requests).map fun p : Nat =>
      vplNanoseconds config.fpsNum config.fpsDen (vplTimeStamp config.fpsNum config.fpsDen p) := by
  obtain ⟨runtime, muxer, e, hcreate, h⟩ := h
  obtain ⟨hnext, hempty⟩ := IntelWebmEncoder.create_empty hcreate
  exact h.times_eq (IntelWebmEncoder.create_rated hcreate) hnext hempty fun _ hp => hfits.succ hp

theorem NvidiaWebmEncoder.create_empty {av1Encode : Bool} {api : Option String} {init : NvencInit}
    {muxer : Option String} {e : NvidiaWebmEncoder} (h : create config av1Encode api init muxer = .ok e) :
    e.Rated config ∧ e.nextPts = (0 : Nat) ∧ e.calls.filterMap NvencCall.submitted = [] ∧
      e.calls.filterMap NvencCall.returned = [] ∧ e.muxer.timestamps = [] := by
  unfold create at h
  split at h
  · cases h
  · split at h
    · cases h
    · cases hinit : NvencSessionManager.initializeCpu ⟨none, .empty, none⟩ init with
      | mk status more =>
        have hsession : NvencSessionManager.initializeSession ⟨none, .empty, none⟩ none init = (status, more) := hinit
        have hquiet : Quiet more.2 := NvencSessionManager.initializeSession_quiet hsession
        rw [hinit] at h
        dsimp only at h
        split at h
        · cases h
        · split at h
          · cases h
          · cases h
            exact ⟨⟨rfl, rfl⟩, rfl, hquiet.submitted, hquiet.returned, rfl⟩

theorem WrittenByNvenc.times_eq (h : WrittenByNvenc config requests times) (hfits : Fits config requests) :
    times = usedPts (frameNanoseconds config.fpsDen / config.fpsNum) 0 requests := by
  obtain ⟨av1Encode, api, init, muxer, e, hcreate, h⟩ := h
  obtain ⟨hrated, hnext, hempty⟩ := NvidiaWebmEncoder.create_empty hcreate
  have hunit : (nvencFeed config).unit = frameNanoseconds config.fpsDen / config.fpsNum := durationNanoseconds_eq config
  have htimes := h.times_eq hrated hnext hempty (by
    rw [hunit]
    exact usedPts_lt config.fpsDen_pos requests (Nat.zero_le _) hfits)
  rw [hunit] at htimes
  exact htimes.trans (List.map_id _)

/-- The four encoders write the exact times of the frames when every frame has the same time in nanoseconds and is a
whole number of units of the clock, and only then. -/
theorem timestamps_agree_iff {config config₁ config₂ config₃ : Config} {requests : List Int}
    {vp9 av1 intel nvenc : List Nat}
    (hrates : ∀ c ∈ [config₁, config₂, config₃], c.fpsNum = config.fpsNum ∧ c.fpsDen = config.fpsDen)
    (hfits : Fits config requests) (hvp9 : WrittenByVp9 config requests vp9) (hav1 : WrittenByAv1 config₁ requests av1)
    (hintel : WrittenByIntel config₂ requests intel) (hnvenc : WrittenByNvenc config₃ requests nvenc) :
    vp9 = frameTimes config requests ∧ av1 = frameTimes config requests ∧ intel = frameTimes config requests ∧
        nvenc = frameTimes config requests ↔
      SameTimes config.fpsNum config.fpsDen 0 requests ∧
        ∀ p ∈ usedPts 1 0 requests, WholeUnits config.fpsNum config.fpsDen p := by
  obtain ⟨hnum₁, hden₁⟩ := hrates config₁ (by simp)
  obtain ⟨hnum₂, hden₂⟩ := hrates config₂ (by simp)
  obtain ⟨hnum₃, hden₃⟩ := hrates config₃ (by simp)
  have hfits₁ : Fits config₁ requests := by unfold Fits; rw [hden₁]; exact hfits
  have hfits₂ : Fits config₂ requests := by unfold Fits; rw [hden₂]; exact hfits
  have hfits₃ : Fits config₃ requests := by unfold Fits; rw [hden₃]; exact hfits
  have hvp9 := hvp9.times_eq hfits
  have hav1 : av1 = frameTimes config requests := by
    rw [hav1.times_eq hfits₁, frameTimes, frameTimes, hnum₁, hden₁]
  have hintel := hintel.times_eq hfits₂
  have hnvenc := hnvenc.times_eq hfits₃
  rw [hnum₂, hden₂] at hintel
  rw [hnum₃, hden₃] at hnvenc
  have hcounter : nvenc = frameTimes config requests ↔ SameTimes config.fpsNum config.fpsDen 0 requests := by
    rw [hnvenc]
    exact usedPts_eq_iff config.fpsNum_pos 0 requests
  have hclock : SameTimes config.fpsNum config.fpsDen 0 requests →
      (intel = frameTimes config requests ↔ ∀ p ∈ usedPts 1 0 requests, WholeUnits config.fpsNum config.fpsDen p) := by
    intro hsame
    rw [hintel, frameTimes, List.map_inj_left]
    constructor
    · intro h p hp
      exact (vplNanoseconds_exact_iff config hfits hsame hp).mp (h p hp)
    · intro h p hp
      exact (vplNanoseconds_exact_iff config hfits hsame hp).mpr (h p hp)
  constructor
  · intro h
    have hsame := hcounter.mp h.2.2.2
    exact ⟨hsame, (hclock hsame).mp h.2.2.1⟩
  · intro h
    exact ⟨hvp9, hav1, (hclock h.1).mpr h.2, hcounter.mpr h.1⟩

/-! ## A few frames -/

/-- A frame of four pixels. -/
def smallFrame (pts : Int) : FrameView :=
  { pixelFormat := .i420, width := 2, height := 2, pts := pts, planes := fun _ => some ⟨0, fun _ => 0⟩
    strides := fun _ => 2 }

def smallFinalize : FinalizeAnswer := ⟨true, none⟩

def smallInit : NvencInit := ⟨some 1, .opened 2, true, true, some 3, some 4⟩

/-- Writes whose packets come back at once, under these time stamps. -/
def promptVp9Write (requested pts : Int) : Vp9Op :=
  .write (smallFrame requested) ⟨true, true, none, [(⟨true, pts, [0], true⟩, smallAdd)]⟩

def promptAv1Write (requested pts : Int) : Av1Op :=
  .write (smallFrame requested) ⟨true, true, [(⟨false, [0], pts, true⟩, smallAdd)], false⟩

def promptNvencWrite (requested : Int) (timeStamp : Nat) : NvencOp :=
  .write (smallFrame requested) ⟨true, ⟨true, true, .success⟩, some ⟨[0], timeStamp, 0, true⟩, smallAdd⟩

/-- A write whose packet has to wait for the close. -/
def lateVplWrite (requested : Int) : IntelOp :=
  .write (smallFrame requested) ⟨true, .small ⟨[0], 0, true⟩, fun _ => smallAdd⟩

/-- The close, with the time stamps of the packets that it gets, the last one first. -/
def lateVplClose (timeStamps : List Nat) : IntelOp :=
  .close ⟨⟨[], .moreData, fun n => ⟨0, ⟨[0], timeStamps.getD n 0, true⟩⟩⟩, fun _ => 0, fun _ => smallAdd, smallFinalize⟩

theorem writtenByVp9_small : WrittenByVp9 videoConfig [-1, 3, -1] [0, 100000000, 133333333] :=
  ⟨[promptVp9Write (-1) 0] ++ [promptVp9Write 3 3] ++ [promptVp9Write (-1) 4], _,
    .append (.append (.single ⟨_, rfl, rfl⟩) (.single ⟨_, rfl, rfl⟩)) (.single ⟨_, rfl, rfl⟩), rfl, rfl, rfl⟩

theorem writtenByAv1_small : WrittenByAv1 videoConfig [-1, 3, -1] [0, 100000000, 133333333] :=
  ⟨[promptAv1Write (-1) 0] ++ [promptAv1Write 3 3] ++ [promptAv1Write (-1) 4], _,
    .append (.append (.single ⟨_, rfl, rfl⟩) (.single ⟨_, rfl, rfl⟩)) (.single ⟨_, rfl, rfl⟩), rfl, rfl, rfl⟩

theorem writtenByIntel_small : WrittenByIntel videoConfig [-1, 3, -1] [0, 100000000, 133333333] :=
  ⟨none, none, _, rfl,
    [lateVplWrite (-1)] ++ [lateVplWrite 3] ++ [lateVplWrite (-1)] ++ [lateVplClose [12000, 9000, 0]], _,
    .append (.append (.append (.single ⟨_, rfl, rfl⟩) (.single ⟨_, rfl, rfl⟩)) (.single ⟨_, rfl, rfl⟩))
      (.single ⟨_, rfl, rfl⟩),
    rfl, rfl, rfl⟩

theorem writtenByNvenc_small : WrittenByNvenc videoConfig [-1, 3, -1] [0, 3, 33333336] :=
  ⟨true, none, smallInit, none, _, rfl,
    [promptNvencWrite (-1) 0] ++ [promptNvencWrite 3 3] ++ [promptNvencWrite (-1) 33333336], _,
    .append (.append (.single ⟨_, rfl, rfl⟩) (.single ⟨_, rfl, rfl⟩)) (.single ⟨_, rfl, rfl⟩), rfl, rfl, rfl⟩

theorem fits_small : Fits videoConfig [-1, 3, -1] := by
  unfold Fits
  decide

/-- A gap in frames is one in nanoseconds for NVENC. -/
theorem timestamps_agree_small :
    ([0, 100000000, 133333333] = frameTimes videoConfig [-1, 3, -1] ∧
        [0, 100000000, 133333333] = frameTimes videoConfig [-1, 3, -1] ∧
        [0, 100000000, 133333333] = frameTimes videoConfig [-1, 3, -1] ∧
        [0, 3, 33333336] = frameTimes videoConfig [-1, 3, -1]) ↔
      SameTimes 30 1 0 [-1, 3, -1] ∧ ∀ p ∈ usedPts 1 0 [-1, 3, -1], WholeUnits 30 1 p :=
  timestamps_agree_iff (by simp) fits_small writtenByVp9_small writtenByAv1_small writtenByIntel_small
    writtenByNvenc_small

/-- At thirty frames in a second the frame with the number 3 is at 100 milliseconds, but for NVENC at three nanoseconds. -/
theorem timestamps_differ :
    ¬ ∀ (config config₁ config₂ config₃ : Config) (requests : List Int) (vp9 av1 intel nvenc : List Nat),
      (∀ c ∈ [config₁, config₂, config₃], c.fpsNum = config.fpsNum ∧ c.fpsDen = config.fpsDen) →
      Fits config requests → WrittenByVp9 config requests vp9 → WrittenByAv1 config₁ requests av1 →
      WrittenByIntel config₂ requests intel → WrittenByNvenc config₃ requests nvenc →
      vp9 = frameTimes config requests ∧ av1 = frameTimes config requests ∧ intel = frameTimes config requests ∧
        nvenc = frameTimes config requests := by
  intro h
  have hnvenc := (h videoConfig videoConfig videoConfig videoConfig [-1, 3, -1] _ _ _ _ (by simp) fits_small
    writtenByVp9_small writtenByAv1_small writtenByIntel_small writtenByNvenc_small).2.2.2
  exact absurd hnvenc (by decide)

end MkvCodec.Backend
