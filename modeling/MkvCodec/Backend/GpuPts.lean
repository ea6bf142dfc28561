import MkvCodec.Backend.Agreement

/-!
# Time stamps of frames from the GPU

The NVIDIA encoder muxes the time stamp of a descriptor. The Intel encoder counts frames from the GPU on, and looks at
no descriptor.
-/

namespace MkvCodec.Backend

open Concurrency (Run)

/-! ## Frames behind a run -/

/-- From `start`, the calls `ops` succeed, the codec returns what it was given behind what it still owed, and the
container gets the times `times` for the frames of these calls. -/
def Feed.Continues {S O V : Type*} (f : Feed S O V) (start : S) (ops : List O) (times : List Nat) : Prop :=
  ∃ last late taken, Run f.accepts start ops last ∧ f.submitted last = f.submitted start ++ taken ∧
    f.returned last = f.returned start ++ (late ++ taken) ∧
    f.timestamps last = f.timestamps start ++ late.map f.decode ++ times

theorem Feed.Continues.times_eq {S O V : Type*} {f : Feed S O V} {start : S} {ops : List O} {times : List Nat}
    (h : f.Continues start ops times) (hinv : f.inv start) {n : Nat} (hnext : f.next start = n)
    (hno : ∀ p ∈ usedPts f.unit n (f.requests ops), p + f.unit < 2 ^ 63) :
    times = (usedPts f.unit n (f.requests ops)).map fun p => f.decode (f.encode p) := by
  obtain ⟨last, late, taken, hrun, htaken, hfifo, htimes⟩ := h
  rw [f.timestamps_eq hrun hinv hnext hno htaken hfifo] at htimes
  exact (List.append_cancel_left htimes).symm

/-! ## NVIDIA -/

namespace NvidiaWebmEncoder

variable {e e' : NvidiaWebmEncoder}

/-- The time stamp of a frame that has one goes to NVENC as it is. -/
theorem stamp_eq (e : NvidiaWebmEncoder) {requested : Int} (h : 0 ≤ requested ∧ requested < 2 ^ 63) :
    asUInt64 (e.selectPictureTiming requested).ptsNs = requested.toNat := by
  have hcast : requested = (requested.toNat : Int) := (Int.toNat_of_nonneg h.1).symm
  have hpts : (e.selectPictureTiming requested).ptsNs = requested := if_pos h.1
  rw [hpts, hcast]
  exact asUInt64_of_nat (by omega)

/-- Whatever the state of the encoder, frames with time stamps go to NVENC under these. -/
theorem run_stamps {ops : List NvencOp} (h : Run Accepts e ops e')
    (hpts : ∀ op ∈ ops, ∀ d, op.request = some d → 0 ≤ d ∧ d < 2 ^ 63) :
    FeedsNvenc e e' ((ops.filterMap NvencOp.request).map Int.toNat) := by
  induction h with
  | nil => exact .of_quiet .nil rfl rfl (List.append_nil _).symm rfl
  | @snoc ops e₁ op e₂ _ hstep ih =>
      have hbefore := ih fun op' hop' => hpts op' (List.mem_append_left _ hop')
      cases hstep.takes with
      | inl htakes =>
          obtain ⟨requested, hrequested, hfeeds, -⟩ := htakes
          rw [e₁.stamp_eq (hpts op (by simp) requested hrequested)] at hfeeds
          have hall := hbefore.trans hfeeds
          simpa [hrequested] using hall
      | inr hquiet =>
          obtain ⟨hnone, hfeeds, -⟩ := hquiet
          have hall := hbefore.trans hfeeds
          simpa [hnone] using hall

end NvidiaWebmEncoder

/-- Calls that write frames from the GPU. -/
def nvencWrites (frames : List (CudaFrame × NvencGpuAnswer)) : List NvencOp :=
  frames.map fun f => .writeGpu (some f.1) f.2

theorem nvencWrites_requests (frames : List (CudaFrame × NvencGpuAnswer)) :
    (nvencWrites frames).filterMap NvencOp.request = frames.map fun f => f.1.desc.pts := by
  induction frames with
  | nil => rfl
  | cons f rest ih =>
      exact congrArg (f.1.desc.pts :: ·) ih

theorem nvencContinues_eq {config : Config} {e : NvidiaWebmEncoder} {frames : List (CudaFrame × NvencGpuAnswer)}
    {ends : List NvencOp} (hends : ∀ op ∈ ends, op.request = none) {times : List Nat}
    (h : (nvencFeed config).Continues e (nvencWrites frames ++ ends) times)
    (hpts : ∀ f ∈ frames, 0 ≤ f.1.desc.pts ∧ f.1.desc.pts < 2 ^ 63) :
    times = frames.map fun f => f.1.desc.pts.toNat := by
  obtain ⟨last, late, taken, hrun, htaken, hfifo, htimes⟩ := h
  have hrequests : ∀ op ∈ nvencWrites frames ++ ends, ∀ d, op.request = some d → 0 ≤ d ∧ d < 2 ^ 63 := by
    intro op hop d hd
    cases List.mem_append.mp hop with
    | inl hop =>
        obtain ⟨f, hf, rfl⟩ := List.mem_map.mp hop
        cases hd
        exact hpts f hf
    | inr hop =>
        rw [hends op hop] at hd
        cases hd
  obtain ⟨-, -, calls, hcalls, hsub, hts⟩ := NvidiaWebmEncoder.run_stamps hrun hrequests
  have hsubmitted : (nvencFeed config).submitted last = (nvencFeed config).submitted e ++
      calls.filterMap NvencCall.submitted := by
    change last.calls.filterMap NvencCall.submitted = _
    rw [hcalls, List.filterMap_append]
    rfl
  have hreturned : (nvencFeed config).returned last = (nvencFeed config).returned e ++
      calls.filterMap NvencCall.returned := by
    change last.calls.filterMap NvencCall.returned = _
    rw [hcalls, List.filterMap_append]
    rfl
  rw [htaken] at hsubmitted
  rw [hfifo] at hreturned
  have heq : last.muxer.timestamps = e.muxer.timestamps ++ late ++ taken := by
    rw [hts, ← List.append_cancel_left hreturned, List.append_assoc]
  have hmap : late.map (nvencFeed config).decode = late := List.map_id _
  change last.muxer.timestamps = e.muxer.timestamps ++ late.map (nvencFeed config).decode ++ times at htimes
  rw [hmap, heq] at htimes
  rw [← List.append_cancel_left htimes, List.append_cancel_left hsubmitted, hsub, List.filterMap_append,
    nvencWrites_requests, List.filterMap_eq_nil_iff.mpr hends, List.append_nil, List.map_map]
  rfl

/-! ## Intel -/

def intelWrites (frames : List (GpuInput × IntelGpuAnswer)) : List IntelOp :=
  frames.map fun f => .writeGpu (some f.1) f.2

theorem intelWrites_requests (fpsNum fpsDen : Nat) (frames : List (GpuInput × IntelGpuAnswer)) {ends : List IntelOp}
    (hends : ∀ op ∈ ends, op.request = none) :
    (intelFeed fpsNum fpsDen).requests (intelWrites frames ++ ends) = List.replicate frames.length (-1) := by
  induction frames with
  | nil => exact List.filterMap_eq_nil_iff.mpr hends
  | cons f rest ih =>
      exact congrArg ((-1) :: ·) ih

/-- Frames without a time stamp are counted. -/
theorem usedPts_replicate (n k : Nat) : usedPts 1 n (List.replicate k (-1)) = List.range' n k := by
  induction k generalizing n with
  | zero => rfl
  | succ k ih =>
      rw [List.replicate_succ, usedPts, selectPts_next, advance_next, ih, List.range'_succ]

/-- The time that the Intel encoder muxes for its frame number `p`. -/
def intelTime (config : Config) (p : Nat) : Nat :=
  vplNanoseconds config.fpsNum config.fpsDen (vplTimeStamp config.fpsNum config.fpsDen p)

theorem intelContinues_eq {config : Config} {e : IntelWebmEncoder} (hrated : e.Rated config.fpsNum config.fpsDen)
    {frames : List (GpuInput × IntelGpuAnswer)} {ends : List IntelOp} (hends : ∀ op ∈ ends, op.request = none) {n : Nat}
    (hn : e.sequence.nextPts = n) (hno : n + frames.length < 2 ^ 63) {times : List Nat}
    (h : (intelFeed config.fpsNum config.fpsDen).Continues e (intelWrites frames ++ ends) times) :
    times = (List.range' n frames.length).map (intelTime config) := by
  have hused : usedPts 1 n ((intelFeed config.fpsNum config.fpsDen).requests (intelWrites frames ++ ends)) =
      List.range' n frames.length := by
    rw [intelWrites_requests _ _ _ hends, usedPts_replicate]
  have htimes := h.times_eq hrated hn (by
    intro p hp
    rw [show (intelFeed config.fpsNum config.fpsDen).unit = 1 from rfl, hused, List.mem_range'_1] at hp
    change p + 1 < 2 ^ 63
    omega)
  rw [show (intelFeed config.fpsNum config.fpsDen).unit = 1 from rfl, hused] at htimes
  exact htimes

/-- Calls of the encoder, whatever they return. -/
def IntelWebmEncoder.Calls (e : IntelWebmEncoder) (op : IntelOp) (e' : IntelWebmEncoder) : Prop :=
  ∃ status, e.run op = some (status, e')

/-- Some calls on a new encoder have led to `e`. -/
def IntelWebmEncoder.Reached (config : Config) (e : IntelWebmEncoder) : Prop :=
  ∃ runtime muxer start ops, create config runtime muxer = .ok start ∧ Run Calls start ops e

theorem IntelWebmEncoder.Reached.rated {config : Config} {e : IntelWebmEncoder} (h : Reached config e) :
    e.Rated config.fpsNum config.fpsDen := by
  obtain ⟨runtime, muxer, start, ops, hcreate, hrun⟩ := h
  exact hrun.invariant (create_rated hcreate) fun hrated hcall => run_rated hrated hcall.choose_spec

/-! ## Both -/

/-- Within one frame duration. -/
def Near (config : Config) (time : Nat) (pts : Int) : Prop :=
  time ≤ pts.toNat + durationNanoseconds config.fpsNum config.fpsDen ∧
    pts.toNat ≤ time + durationNanoseconds config.fpsNum config.fpsDen

instance (config : Config) (time : Nat) (pts : Int) : Decidable (Near config time pts) :=
  inferInstanceAs (Decidable (_ ∧ _))

/-- Behind any calls and up to any flush or close, the NVIDIA encoder muxes the time stamps of the frames, and the Intel
encoder stays near them when the times of the numbers from its counter on are near them, and only then. -/
theorem gpu_pts_iff (config : Config) {pts : List Int} (hpts : ∀ d ∈ pts, 0 ≤ d ∧ d < 2 ^ 63)
    {nvidia : NvidiaWebmEncoder} {cuda : List (CudaFrame × NvencGpuAnswer)}
    (hcuda : cuda.map (fun f => f.1.desc.pts) = pts) {nvidiaEnds : List NvencOp}
    (hnvidiaEnds : ∀ op ∈ nvidiaEnds, op.request = none) {nvencTimes : List Nat}
    (hnvenc : (nvencFeed config).Continues nvidia (nvencWrites cuda ++ nvidiaEnds) nvencTimes)
    {intel : IntelWebmEncoder} (hreached : intel.Reached config) {surfaces : List (GpuInput × IntelGpuAnswer)}
    (hsurfaces : surfaces.map (fun f => f.1.desc.pts) = pts) {intelEnds : List IntelOp}
    (hintelEnds : ∀ op ∈ intelEnds, op.request = none) {n : Nat} (hn : intel.sequence.nextPts = n)
    (hno : n + pts.length < 2 ^ 63) {intelTimes : List Nat}
    (hintel : (intelFeed config.fpsNum config.fpsDen).Continues intel (intelWrites surfaces ++ intelEnds) intelTimes) :
    nvencTimes = pts.map Int.toNat ∧ List.Forall₂ (Near config) intelTimes pts ↔
      List.Forall₂ (Near config) ((List.range' n pts.length).map (intelTime config)) pts := by
  have hlength : surfaces.length = pts.length := by rw [← hsurfaces, List.length_map]
  have hexact : nvencTimes = pts.map Int.toNat := by
    have hone : ∀ f ∈ cuda, 0 ≤ f.1.desc.pts ∧ f.1.desc.pts < 2 ^ 63 := by
      intro f hf
      apply hpts
      rw [← hcuda]
      exact List.mem_map.mpr ⟨f, hf, rfl⟩
    rw [nvencContinues_eq hnvidiaEnds hnvenc hone, ← hcuda, List.map_map]
    rfl
  have hcounted := intelContinues_eq hreached.rated hintelEnds hn (by rw [hlength]; exact hno) hintel
  rw [hlength] at hcounted
  rw [hcounted]
  exact ⟨fun h => h.2, fun h => ⟨hexact, h⟩⟩

/-! ## A few frames -/

def smallGpuDesc (backend : Gpu.Backend) (pts : Int) : Gpu.GpuFrameDesc :=
  { structSize := 136, structVersion := 1, backend := backend, memoryType := .cudaPointer, deviceId := 0
    generation := 0, pixelFormat := .nv12, width := 2, height := 2, planeCount := 2, planeOffsets := fun _ => 0
    pitches := fun _ => 2, pts := pts, colorPrimaries := 0, colorTransfer := 0, colorMatrix := 0, colorRange := 0 }

def smallCudaFrame (pts : Int) : CudaFrame :=
  { frame := 0, desc := smallGpuDesc .nvidia pts, producer := some .ok
    native := .ok ⟨64, 1, .cudaPointer, 1, 0, 0, fun _ => 1⟩, object := 1, native_error := nofun }

def NvidiaWebmEncoder.small : NvidiaWebmEncoder :=
  { sessionManager := ⟨none, .empty, none⟩, muxer := .created, width := 2, height := 2, fpsNum := 30, fpsDen := 1
    keyframeInterval := 120, frameIndex := 0, nextPts := 0, closed := false, i420 := 6, nv12 := 6, calls := [] }

def IntelWebmEncoder.small : IntelWebmEncoder :=
  { muxer := ⟨.created, 30, 1⟩
    sequence :=
      { config := videoConfig, encoder := some videoConfig.smallVpl, nextPts := 0, framesInSequence := 0
        hardwarePendingPeak := 0, externalGpuMode := false, closed := false, retired := [] }
    width := 2, height := 2, closed := false, i420 := 6, nv12 := 6 }

theorem IntelWebmEncoder.small_reached : small.Reached videoConfig := ⟨none, none, _, [], rfl, .nil⟩

def smallCudaWrite (pts : Int) : CudaFrame × NvencGpuAnswer :=
  (smallCudaFrame pts, ⟨smallInit, ⟨true, true, true⟩, some ⟨[0], pts.toNat, 0, true⟩, smallAdd⟩)

/-- A write of a frame that oneVPL takes; it returns the bitstream with a time stamp of its own, or none. -/
def smallIntelWrite (pts : Int) (timeStamp : Option Nat) : GpuInput × IntelGpuAnswer :=
  (⟨0, smallGpuDesc .intel pts⟩,
    ⟨none, fun _ => 0,
      ⟨.acquired false, if timeStamp.isSome then .accepted true else .ended .moreData, .ok,
        ⟨0, ⟨[0], timeStamp.getD 0, true⟩⟩⟩,
      fun _ => smallAdd⟩)

def smallNvencClose : NvencOp := .close ⟨true, smallFinalize⟩

/-- A flush that gets one more bitstream. -/
def smallIntelFlush (timeStamp : Nat) : IntelOp :=
  .flush ⟨⟨[(true, ⟨0, ⟨[0], timeStamp, true⟩⟩)], .moreData, fun _ => ⟨0, ⟨[0], timeStamp, true⟩⟩⟩, fun _ => 0,
    fun _ => smallAdd, none⟩

/-- Both encoders behind a frame without a time stamp. The Intel encoder owes its packet. -/
def NvidiaWebmEncoder.counting : NvidiaWebmEncoder :=
  (small.writeGpu (some (smallCudaWrite (-1)).1) (smallCudaWrite (-1)).2).2

def IntelWebmEncoder.counting : IntelWebmEncoder :=
  ((small.writeGpu (some (smallIntelWrite (-1) none).1) (smallIntelWrite (-1) none).2).map Prod.snd).getD small

theorem IntelWebmEncoder.counting_reached : counting.Reached videoConfig :=
  ⟨none, none, _, intelWrites [smallIntelWrite (-1) none], rfl, .single ⟨.ok, rfl⟩⟩

theorem nvencContinues_small : (nvencFeed videoConfig).Continues .counting
    (nvencWrites [smallCudaWrite 40000000, smallCudaWrite 90000000] ++ [smallNvencClose]) [40000000, 90000000] :=
  ⟨_, [], [40000000, 90000000], .append (.append (.single ⟨_, rfl, rfl⟩) (.single ⟨_, rfl, rfl⟩)) (.single ⟨_, rfl, rfl⟩),
    rfl, rfl, rfl⟩

/-- Each packet comes one call late, the last one at a flush. -/
theorem intelContinues_small : (intelFeed 30 1).Continues .counting
    (intelWrites [smallIntelWrite 40000000 (some 0), smallIntelWrite 90000000 (some 3000)] ++ [smallIntelFlush 6000])
    [33333333, 66666666] :=
  ⟨_, [0], [3000, 6000], .append (.append (.single ⟨_, rfl, rfl⟩) (.single ⟨_, rfl, rfl⟩)) (.single ⟨_, rfl, rfl⟩),
    rfl, rfl, rfl⟩

/-- Two frames with gaps, which are near the numbers that the Intel encoder gives them. -/
theorem gpu_pts_small :
    [40000000, 90000000] = [40000000, 90000000].map Int.toNat ∧
      List.Forall₂ (Near videoConfig) [33333333, 66666666] [40000000, 90000000] :=
  (gpu_pts_iff videoConfig (by decide) rfl (by simp [smallNvencClose, NvencOp.request]) nvencContinues_small
    IntelWebmEncoder.counting_reached rfl (by simp [smallIntelFlush, IntelOp.request]) rfl (by decide)
    intelContinues_small).mpr (by decide)

/-- A first frame at one second is muxed at zero by the Intel encoder. -/
theorem gpu_pts_lost :
    ¬ ∀ (config : Config) (pts : List Int) (nvidia : NvidiaWebmEncoder) (cuda : List (CudaFrame × NvencGpuAnswer))
      (nvencTimes : List Nat) (intel : IntelWebmEncoder) (surfaces : List (GpuInput × IntelGpuAnswer))
      (intelTimes : List Nat), (∀ d ∈ pts, 0 ≤ d ∧ d < 2 ^ 63) → pts.Pairwise (· < ·) →
      cuda.map (fun f => f.1.desc.pts) = pts → (nvencFeed config).Continues nvidia (nvencWrites cuda) nvencTimes →
      intel.Reached config → surfaces.map (fun f => f.1.desc.pts) = pts →
      (intelFeed config.fpsNum config.fpsDen).Continues intel (intelWrites surfaces) intelTimes →
      nvencTimes = pts.map Int.toNat ∧ List.Forall₂ (Near config) intelTimes pts := by
  intro h
  have hnvenc : (nvencFeed videoConfig).Continues .small (nvencWrites [smallCudaWrite 1000000000]) [1000000000] :=
    ⟨_, [], [1000000000], .single ⟨_, rfl, rfl⟩, rfl, rfl, rfl⟩
  have hintel : (intelFeed 30 1).Continues .small (intelWrites [smallIntelWrite 1000000000 (some 0)]) [0] :=
    ⟨_, [], [0], .single ⟨_, rfl, rfl⟩, rfl, rfl, rfl⟩
  have hnear := (h videoConfig [1000000000] _ _ _ _ _ _ (by decide) (by decide) rfl hnvenc
    IntelWebmEncoder.small_reached rfl hintel).2
  cases hnear with
  | cons hfirst _ => exact absurd hfirst (by decide)

end MkvCodec.Backend
