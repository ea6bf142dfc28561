import MkvCodec.Gpu.NvdecOutput
import MkvCodec.Gpu.SlotAccounting

/-!
# NVDEC output is complete

As long as a picture is displayed, and a queued frame is asked for, only while the pool has a free slot, the pictures that
were displayed are those that were delivered and, behind them, those that are queued.
-/

namespace MkvCodec.Gpu

open Concurrency SlotPool

/-! ## The callbacks -/

namespace NvdecCallbackState

variable {s : NvdecCallbackState}

/-- The pictures that wait for a call. -/
def queued (s : NvdecCallbackState) : List NvdecPicture := s.completedGpu.map NvdecFrame.picture ++ s.completedCpu

/-- The pool counts its slots, and only the queue of the selected output is used. -/
structure Sound (s : NvdecCallbackState) : Prop where
  context : s.context ≠ 0
  capacity : s.gpuPool.slots.length = nvdecPoolCapacity
  counted : s.gpuPool.Counted
  gpu : s.outputMode ≠ .gpu → s.completedGpu = []
  cpu : s.outputMode ≠ .cpu → s.completedCpu = []

theorem sound_new {context : Nat} (hcontext : context ≠ 0) : Sound (.new context) :=
  ⟨hcontext, List.length_replicate, GpuFramePool.counted_new nvdecPoolCapacity, fun _ => rfl, fun _ => rfl⟩

/-- A sequence callback changes no pool and no queue. -/
theorem Sound.sequence (h : s.Sound) (configured : Except String (Nat × Nat)) :
    (s.sequence configured).Sound ∧ (s.sequence configured).outputMode = s.outputMode ∧
      (s.sequence configured).queued = s.queued := by
  obtain ⟨hcontext, hcapacity, hcounted, hgpu, hcpu⟩ := h
  cases configured with
  | error message => exact ⟨⟨hcontext, hcapacity, hcounted, hgpu, hcpu⟩, rfl, rfl⟩
  | ok dimensions => exact ⟨⟨hcontext, hcapacity, hcounted, hgpu, hcpu⟩, rfl, rfl⟩

theorem Sound.decode (h : s.Sound) (decoded : Bool) :
    (s.decode decoded).Sound ∧ (s.decode decoded).outputMode = s.outputMode ∧ (s.decode decoded).queued = s.queued := by
  obtain ⟨hcontext, hcapacity, hcounted, hgpu, hcpu⟩ := h
  unfold NvdecCallbackState.decode
  dsimp only
  split
  · exact ⟨⟨hcontext, hcapacity, hcounted, hgpu, hcpu⟩, rfl, rfl⟩
  · exact ⟨⟨hcontext, hcapacity, hcounted, hgpu, hcpu⟩, rfl, rfl⟩

theorem acquireNvdecGpuFrame_ok {pool : GpuFramePool} {context devicePointer : Nat} (hcontext : context ≠ 0)
    (hpointer : devicePointer ≠ 0) (hcounted : pool.Counted) (hroom : pool.inUse < pool.slots.length)
    (pitch width height : Nat) (picture : NvdecPicture) :
    ∃ pool' frame, acquireNvdecGpuFrame pool context devicePointer pitch width height picture = .ok (pool', frame) ∧
      frame.picture = picture ∧ pool'.Counted ∧ pool'.slots.length = pool.slots.length := by
  obtain ⟨pool', slot, generation, hacquire, hcounted', hlength⟩ := hcounted.acquire hroom
  have hok : ∃ frame, acquireNvdecGpuFrame pool context devicePointer pitch width height picture = .ok (pool', frame) ∧
      frame.picture = picture := by
    simp only [acquireNvdecGpuFrame, makeCudaHandle, hcontext, hpointer, hacquire]
    exact ⟨_, rfl, rfl⟩
  obtain ⟨frame, hframe, hpicture⟩ := hok
  exact ⟨pool', frame, hframe, hpicture, hcounted', hlength⟩

/-- A picture that the driver can display is queued. -/
theorem Sound.display (h : s.Sound) (picture : NvdecPicture) {devicePointer : Nat} (pitch : Nat) (hdecoder : s.decoder = true)
    (hpointer : devicePointer ≠ 0) (hmode : s.outputMode ≠ .unset)
    (hroom : s.outputMode = .gpu → s.gpuPool.inUse < s.gpuPool.slots.length) :
    (s.display picture (some (devicePointer, pitch)) true).Sound ∧
      (s.display picture (some (devicePointer, pitch)) true).queued = s.queued ++ [picture] ∧
      (s.display picture (some (devicePointer, pitch)) true).outputMode = s.outputMode := by
  simp only [NvdecCallbackState.display, hdecoder, Bool.not_true, Bool.false_eq_true, if_false]
  by_cases hgpu : s.outputMode = .gpu
  · obtain ⟨pool, frame, hacquire, hpicture, hcounted, hlength⟩ :=
      acquireNvdecGpuFrame_ok h.context hpointer h.counted (hroom hgpu) pitch s.width s.height picture
    have hcpu : s.completedCpu = [] := h.cpu (by rw [hgpu]; exact nofun)
    simp only [hgpu, if_true, hacquire]
    refine ⟨?_, ?_, trivial⟩
    · exact {
        context := h.context
        capacity := hlength.trans h.capacity
        counted := hcounted
        gpu := fun hne => absurd rfl hne
        cpu := fun _ => hcpu }
    · simp [queued, hcpu, hpicture]
  · have hcpu : s.outputMode = .cpu := by
      cases hm : s.outputMode with
      | unset => exact absurd hm hmode
      | cpu => rfl
      | gpu => exact absurd hm hgpu
    simp only [hcpu, reduceCtorEq, if_false]
    refine ⟨?_, ?_, trivial⟩
    · exact {
        context := h.context
        capacity := h.capacity
        counted := h.counted
        gpu := fun _ => h.gpu hgpu
        cpu := fun hne => absurd rfl hne }
    · simp [queued]

theorem Sound.recycle (h : s.Sound) (slot generation : Nat) :
    Sound { s with gpuPool := s.gpuPool.recycle slot generation } where
  context := h.context
  capacity := (h.counted.recycle slot generation).2.trans h.capacity
  counted := (h.counted.recycle slot generation).1
  gpu := h.gpu
  cpu := h.cpu

theorem Sound.clearOutputs (h : s.Sound) : s.clearOutputs.Sound where
  context := h.context
  capacity := (h.counted.recycleAll s.completedGpu NvdecFrame.slot NvdecFrame.generation).2.trans h.capacity
  counted := (h.counted.recycleAll s.completedGpu NvdecFrame.slot NvdecFrame.generation).1
  gpu _ := rfl
  cpu _ := rfl

theorem Sound.selected (h : s.Sound) {mode : OutputMode} (hgpu : mode = .cpu → s.outputMode ≠ .gpu)
    (hcpu : mode = .gpu → s.outputMode ≠ .cpu) (hmode : mode ≠ .unset) : Sound { s with outputMode := mode } where
  context := h.context
  capacity := h.capacity
  counted := h.counted
  gpu hne := by
    cases mode with
    | unset => exact absurd rfl hmode
    | cpu => exact h.gpu (hgpu rfl)
    | gpu => exact absurd rfl hne
  cpu hne := by
    cases mode with
    | unset => exact absurd rfl hmode
    | cpu => exact absurd rfl hne
    | gpu => exact h.cpu (hcpu rfl)

theorem Sound.select (h : s.Sound) (gpu : Bool) :
    (s.select gpu).1.Sound ∧ (s.select gpu).1.queued = s.queued ∧
      ((s.select gpu).2.result = .ok → (s.select gpu).1.outputMode = if gpu then .gpu else .cpu) := by
  cases gpu with
  | true =>
      simp only [NvdecCallbackState.select, NvdecCallbackState.selectGpu, if_true]
      by_cases hcpu : s.outputMode = .cpu
      · simp only [hcpu, if_true]
        exact ⟨h, trivial, nofun⟩
      · simp only [hcpu, if_false]
        exact ⟨h.selected nofun (fun _ => hcpu) nofun, rfl, fun _ => trivial⟩
  | false =>
      simp only [NvdecCallbackState.select, NvdecCallbackState.selectCpu, Bool.false_eq_true, if_false]
      by_cases hgpu : s.outputMode = .gpu
      · simp only [hgpu, if_true]
        exact ⟨h, trivial, nofun⟩
      · simp only [hgpu, if_false]
        exact ⟨h.selected (fun _ => hgpu) nofun nofun, rfl, fun _ => trivial⟩

/-- Only the full pool lets a selection stop. -/
theorem select_stops {gpu : Bool} (hstops : (s.select gpu).2.result = .endOfStream ∨ (s.select gpu).2.result = .wouldBlock) :
    gpu = true ∧ s.outputMode ≠ .cpu ∧ s.gpuPool.slots.length ≤ s.gpuPool.inUse := by
  cases gpu with
  | true =>
      simp only [select, selectGpu, if_true] at hstops
      by_cases hcpu : s.outputMode = .cpu
      · simp [hcpu] at hstops
      · by_cases hfull : s.gpuPool.slots.length ≤ s.gpuPool.inUse
        · exact ⟨rfl, hcpu, hfull⟩
        · simp [hcpu, hfull] at hstops
  | false =>
      simp only [select, selectCpu, Bool.false_eq_true, if_false] at hstops
      by_cases hgpu : s.outputMode = .gpu <;> simp [hgpu] at hstops

/-- Nothing waits when the selected queue is empty. -/
theorem Sound.queued_of_not_ready (h : s.Sound) {gpu : Bool} (hmode : s.outputMode = if gpu then .gpu else .cpu)
    (hready : s.outputReady gpu = false) : s.queued = [] := by
  cases gpu with
  | true =>
      have hgpu : s.completedGpu = [] := by simpa [outputReady] using hready
      have hcpu : s.completedCpu = [] := h.cpu (by rw [hmode]; exact nofun)
      rw [queued, hgpu, hcpu]
      rfl
  | false =>
      have hcpu : s.completedCpu = [] := by simpa [outputReady] using hready
      have hgpu : s.completedGpu = [] := h.gpu (by rw [hmode]; exact nofun)
      rw [queued, hgpu, hcpu]
      rfl

end NvdecCallbackState

/-! ## The reader -/

/-- The output that a running call has selected. -/
def NvdecReadPc.output : NvdecReadPc → Option OutputMode
  | .idle => none
  | .activate gpu | .pump gpu | .parse gpu | .release gpu _ => some (if gpu then .gpu else .cpu)

namespace NvdecReader

variable {s t : NvdecReader} {l : NvdecReadLabel}

def queued (s : NvdecReader) : List NvdecPicture := s.callbacks.queued

/-- A call that comes to this has neither a frame nor an error. -/
def Stops (status : Status) : Prop := status.result = .endOfStream ∨ status.result = .wouldBlock

theorem not_stops {status : Status} (hend : status.result ≠ .endOfStream) (hblock : status.result ≠ .wouldBlock) :
    ¬ Stops status := fun hstops => hstops.elim hend hblock

structure Sound (s : NvdecReader) : Prop where
  callbacks : s.callbacks.Sound
  running : ∀ mode, s.pc.output = some mode → s.callbacks.outputMode = mode ∧ s.closed = false ∧ s.answer = none
  order : s.closed = false → s.displayed = s.delivered ++ s.queued
  delivered : s.delivered <+: s.displayed
  released : ∀ gpu status, s.pc = .release gpu status → Stops status → s.queued = []
  answered : ∀ status, s.answer = some status → Stops status → s.queued = []

theorem sound_init {context : Nat} (hcontext : context ≠ 0) : Sound (.init context) where
  callbacks := NvdecCallbackState.sound_new hcontext
  running := nofun
  order _ := rfl
  delivered := List.prefix_rfl
  released := nofun
  answered := nofun

/-- A call returns without a frame. -/
theorem Sound.returns (h : s.Sound) {status : Status} (hstops : Stops status → s.queued = []) : (s.returns status).Sound where
  callbacks := h.callbacks
  running := nofun
  order := h.order
  delivered := h.delivered
  released := nofun
  answered := by
    rintro _ ⟨⟩
    exact hstops

/-- A running call moves on. -/
theorem Sound.move (h : s.Sound) {mode : OutputMode} (hpc : s.pc.output = some mode) {callbacks : NvdecCallbackState}
    {packetsSubmitted : UInt32} {demuxEos parserDrained : Bool} {pc : NvdecReadPc} (hcallbacks : callbacks.Sound)
    (hmode : callbacks.outputMode = s.callbacks.outputMode) (hqueued : callbacks.queued = s.queued)
    (hpc' : pc.output = some mode) (hstops : ∀ gpu status, pc = .release gpu status → Stops status → s.queued = []) :
    Sound { s with
      callbacks := callbacks, packetsSubmitted := packetsSubmitted, demuxEos := demuxEos
      parserDrained := parserDrained, pc := pc } := by
  obtain ⟨hselected, hopen, hanswer⟩ := h.running mode hpc
  exact {
    callbacks := hcallbacks
    running := by
      intro mode' hmode'
      rw [hpc'] at hmode'
      cases hmode'
      exact ⟨hmode.trans hselected, hopen, hanswer⟩
    order := by
      intro _
      rw [queued, hqueued]
      exact h.order hopen
    delivered := h.delivered
    released := by
      rw [queued, hqueued]
      exact hstops
    answered := by
      rw [hanswer]
      exact nofun }

/-- The same, without a change of the callbacks. -/
theorem Sound.goto (h : s.Sound) {mode : OutputMode} (hpc : s.pc.output = some mode) {pc : NvdecReadPc}
    (hpc' : pc.output = some mode) (hstops : ∀ gpu status, pc = .release gpu status → Stops status → s.queued = []) :
    Sound { s with pc := pc } := h.move hpc h.callbacks rfl rfl hpc' hstops

/-- A call begins with the selected output. -/
theorem Sound.begin (h : s.Sound) (hopen : s.closed = false) {callbacks : NvdecCallbackState} {gpu : Bool}
    (hcallbacks : callbacks.Sound) (hqueued : callbacks.queued = s.queued)
    (hmode : callbacks.outputMode = if gpu then .gpu else .cpu) :
    Sound { s with callbacks := callbacks, pc := .activate gpu, answer := none } where
  callbacks := hcallbacks
  running := by
    rintro _ ⟨⟩
    exact ⟨hmode, hopen, rfl⟩
  order _ := by
    rw [queued, hqueued]
    exact h.order hopen
  delivered := h.delivered
  released := nofun
  answered := nofun

/-- Outside of a call the callbacks change without a picture. -/
theorem Sound.outside (h : s.Sound) (hpc : s.pc = .idle) {callbacks : NvdecCallbackState} (hcallbacks : callbacks.Sound)
    (hqueued : callbacks.queued = s.queued) : Sound { s with callbacks := callbacks } where
  callbacks := hcallbacks
  running := by
    rw [hpc]
    exact nofun
  order hopen := by
    rw [queued, hqueued]
    exact h.order hopen
  delivered := h.delivered
  released := by
    rw [hpc]
    exact nofun
  answered := by
    rw [queued, hqueued]
    exact h.answered

/-- A call that finds the pool full finds no frame. -/
theorem Sound.call (h : s.Sound) {gpu : Bool} (hroom : s.Roomy (.call gpu)) (hst : s.Step (.call gpu) t) : t.Sound := by
  simp only [Step, NvdecReader.step] at hst
  split at hst
  case h_2 => cases hst
  case h_1 hpc =>
      obtain ⟨hcallbacks, hqueued, hmode⟩ := h.callbacks.select gpu
      split at hst
      case isTrue =>
          cases hst
          exact h.returns fun hstops => absurd hstops (not_stops nofun nofun)
      case isFalse hopen =>
          split at hst
          case isTrue hrefused =>
              cases hst
              refine (h.outside hpc hcallbacks hqueued).returns fun hstops => ?_
              obtain ⟨hgpu, hselected, hfull⟩ := NvdecCallbackState.select_stops hstops
              have hcpu := h.callbacks.cpu hselected
              have hempty : s.callbacks.completedGpu = [] := by
                by_contra hne
                exact absurd (hroom hgpu (by simpa using hne)) (Nat.not_lt_of_le hfull)
              rw [queued, hqueued, NvdecCallbackState.queued, hempty, hcpu]
              rfl
          case isFalse hok =>
              cases hst
              exact h.begin (by simpa using hopen) hcallbacks hqueued (hmode (not_not.mp hok))

/-- A turn of the loop. -/
theorem Sound.pump (h : s.Sound) {gpu : Bool} (hpc : s.pc = .pump gpu) (read : Status) : (s.pump gpu read).Sound := by
  have hout : s.pc.output = some (if gpu then .gpu else .cpu) := by rw [hpc]; rfl
  obtain ⟨hselected, hopen, hanswer⟩ := h.running _ hout
  rw [NvdecReader.pump]
  split
  case isTrue hready =>
      refine h.goto hout rfl fun _ _ heq hstops => ?_
      cases heq
      exact absurd hstops (not_stops nofun nofun)
  case isFalse hready =>
      have hempty : s.queued = [] := h.callbacks.queued_of_not_ready hselected (by simpa using hready)
      split
      · exact h.goto hout rfl fun _ _ _ _ => hempty
      · simp only
        split
        · split
          · exact h.move hout h.callbacks rfl rfl rfl fun _ _ _ _ => hempty
          · exact h.move hout h.callbacks rfl rfl rfl fun _ _ _ _ => hempty
        · refine h.move hout ?_ rfl rfl rfl nofun
          exact ⟨h.callbacks.context, h.callbacks.capacity, h.callbacks.counted, h.callbacks.gpu, h.callbacks.cpu⟩

/-- A call returns the picture that has waited longest. -/
theorem Sound.deliver (h : s.Sound) (hopen : s.closed = false) {callbacks : NvdecCallbackState} {picture : NvdecPicture}
    (hcallbacks : callbacks.Sound) (hqueued : s.queued = picture :: callbacks.queued) (outside : List NvdecFrame) :
    Sound { s.returns .ok with
      callbacks := callbacks
      outside := outside
      delivered := s.delivered ++ [picture] } := by
  have horder : s.displayed = s.delivered ++ [picture] ++ callbacks.queued := by
    rw [h.order hopen, hqueued, List.append_assoc]
    rfl
  exact {
    callbacks := hcallbacks
    running := nofun
    order := fun _ => horder
    delivered := ⟨callbacks.queued, horder.symm⟩
    released := nofun
    answered := by
      rintro _ ⟨⟩ hstops
      exact absurd hstops (not_stops nofun nofun) }

/-- The oldest frame of the selected queue is delivered. -/
theorem Sound.pop (h : s.Sound) {gpu : Bool} (hout : s.pc.output = some (if gpu then .gpu else .cpu)) : (s.pop gpu).Sound := by
  obtain ⟨hselected, hopen, hanswer⟩ := h.running _ hout
  cases gpu with
  | true =>
      have hcpu : s.callbacks.completedCpu = [] := h.callbacks.cpu (by rw [hselected]; exact nofun)
      simp only [NvdecReader.pop, if_true]
      split
      case h_1 => exact h.returns fun hstops => absurd hstops (not_stops nofun nofun)
      case h_2 frame completedGpu hqueue =>
          refine h.deliver hopen ?_ ?_ _
          · exact {
              context := h.callbacks.context
              capacity := h.callbacks.capacity
              counted := h.callbacks.counted
              gpu := fun hne => absurd hselected hne
              cpu := h.callbacks.cpu }
          · simp [queued, NvdecCallbackState.queued, hqueue]
  | false =>
      have hgpu : s.callbacks.completedGpu = [] := h.callbacks.gpu (by rw [hselected]; exact nofun)
      simp only [NvdecReader.pop, Bool.false_eq_true, if_false]
      split
      case h_1 => exact h.returns fun hstops => absurd hstops (not_stops nofun nofun)
      case h_2 picture completedCpu hqueue =>
          refine h.deliver hopen ?_ ?_ s.outside
          · exact {
              context := h.callbacks.context
              capacity := h.callbacks.capacity
              counted := h.callbacks.counted
              gpu := h.callbacks.gpu
              cpu := fun hne => absurd hselected hne }
          · simp [queued, NvdecCallbackState.queued, hqueue, hgpu]

/-- A picture is displayed, and there is room for it. -/
theorem Sound.display (h : s.Sound) {gpu : Bool} (hpc : s.pc = .parse gpu) {picture : NvdecPicture}
    {mapped : Option (Nat × Nat)} {readBack : Bool} (hdisplays : s.Displays (.display picture mapped readBack))
    (hroom : s.Roomy (.display picture mapped readBack)) :
    Sound { s with
      callbacks := s.callbacks.display picture mapped readBack
      displayed := s.displayed ++ [picture] } := by
  have hout : s.pc.output = some (if gpu then .gpu else .cpu) := by rw [hpc]; rfl
  obtain ⟨hselected, hopen, hanswer⟩ := h.running _ hout
  obtain ⟨hdecoder, rfl, hmapped⟩ := hdisplays
  obtain ⟨⟨devicePointer, pitch⟩, rfl, hpointer⟩ : ∃ mapping, mapped = some mapping ∧ mapping.1 ≠ 0 := by
    simpa [Option.any_eq_true] using hmapped
  have hmode : s.callbacks.outputMode ≠ .unset := by
    rw [hselected]
    cases gpu <;> exact nofun
  obtain ⟨hcallbacks, hqueued, hsame⟩ := h.callbacks.display picture pitch hdecoder hpointer hmode hroom
  exact {
    callbacks := hcallbacks
    running := by
      intro mode hm
      obtain ⟨hsel, -, -⟩ := h.running mode hm
      exact ⟨hsame.trans hsel, hopen, hanswer⟩
    order := fun _ => by
      rw [queued, hqueued, h.order hopen, List.append_assoc]
      rfl
    delivered := h.delivered.trans (List.prefix_append _ _)
    released := by
      rw [hpc]
      exact nofun
    answered := by
      rw [hanswer]
      exact nofun }

/-- Inside the parser the callbacks change without a picture. -/
theorem Sound.callback (h : s.Sound) {gpu : Bool} (hpc : s.pc = .parse gpu) {callbacks : NvdecCallbackState}
    (hcallbacks : callbacks.Sound) (hmode : callbacks.outputMode = s.callbacks.outputMode)
    (hqueued : callbacks.queued = s.queued) : Sound { s with callbacks := callbacks } := by
  have hout : s.pc.output = some (if gpu then .gpu else .cpu) := by rw [hpc]; rfl
  refine h.move hout hcallbacks hmode hqueued hout fun gpu' status heq => ?_
  rw [hpc] at heq
  cases heq

theorem Sound.step (h : s.Sound) (hdisplays : s.Displays l) (hroom : s.Roomy l) (hst : s.Step l t) : t.Sound := by
  cases l with
  | call gpu => exact h.call hroom hst
  | activate pushed =>
      simp only [Step, NvdecReader.step] at hst
      split at hst
      case h_2 => cases hst
      case h_1 gpu hpc =>
          have hout : s.pc.output = some (if gpu then .gpu else .cpu) := by rw [hpc]; rfl
          split at hst <;> cases hst
          · exact h.returns fun hstops => absurd hstops (not_stops nofun nofun)
          · exact h.goto hout rfl nofun
  | pump read =>
      simp only [Step, NvdecReader.step] at hst
      split at hst <;> cases hst
      case h_1.refl gpu hpc => exact h.pump hpc read
  | sequence configured =>
      simp only [Step, NvdecReader.step] at hst
      split at hst <;> cases hst
      case h_1.refl gpu hpc =>
          obtain ⟨hcallbacks, hmode, hqueued⟩ := h.callbacks.sequence configured
          exact h.callback hpc hcallbacks hmode hqueued
  | decode decoded =>
      simp only [Step, NvdecReader.step] at hst
      split at hst <;> cases hst
      case h_1.refl gpu hpc =>
          obtain ⟨hcallbacks, hmode, hqueued⟩ := h.callbacks.decode decoded
          exact h.callback hpc hcallbacks hmode hqueued
  | display picture mapped readBack =>
      simp only [Step, NvdecReader.step] at hst
      split at hst <;> cases hst
      case h_1.refl gpu hpc => exact h.display hpc hdisplays hroom
  | parsed success =>
      simp only [Step, NvdecReader.step] at hst
      split at hst
      case h_2 => cases hst
      case h_1 gpu hpc =>
          have hout : s.pc.output = some (if gpu then .gpu else .cpu) := by rw [hpc]; rfl
          split at hst <;> cases hst
          · exact h.goto hout rfl nofun
          · refine h.goto hout rfl fun _ _ heq hstops => ?_
            cases heq
            exact absurd hstops (not_stops nofun nofun)
  | releaseContext popped =>
      simp only [Step, NvdecReader.step] at hst
      split at hst
      case h_2 => cases hst
      case h_1 gpu status hpc =>
          have hout : s.pc.output = some (if gpu then .gpu else .cpu) := by rw [hpc]; rfl
          split at hst
          · cases hst
            exact h.returns (h.released gpu status hpc)
          · split at hst <;> cases hst
            · exact h.returns fun hstops => absurd hstops (not_stops nofun nofun)
            · exact h.pop hout
  | releaseFrame k =>
      obtain ⟨frame, hk, rfl⟩ := Option.map_eq_some_iff.mp hst
      obtain ⟨hcallbacks, hrunning, horder, hdelivered, hreleased, hanswered⟩ := h
      exact ⟨hcallbacks.recycle frame.slot frame.generation, hrunning, horder, hdelivered, hreleased, hanswered⟩
  | close =>
      simp only [Step, NvdecReader.step] at hst
      split at hst
      case h_2 => cases hst
      case h_1 hpc =>
          split at hst <;> cases hst
          exact {
            callbacks := h.callbacks.clearOutputs
            running := by
              rw [hpc]
              exact nofun
            order := nofun
            delivered := h.delivered
            released := by
              rw [hpc]
              exact nofun
            answered := fun _ _ _ => rfl }

/-! ## What holds in every reachable state -/

/-- Nothing is lost, nothing comes twice, and what is queued can be had. -/
structure Complete (s : NvdecReader) : Prop where
  order : s.closed = false → s.displayed = s.delivered ++ s.queued
  delivered : s.delivered <+: s.displayed
  /-- At the end of the stream everything was delivered. -/
  drained : ∀ status, s.answer = some status → status.result = .endOfStream → s.closed = false → s.delivered = s.displayed
  blocked : ∀ status, s.answer = some status → status.result = .wouldBlock → s.callbacks.completedGpu = []
  /-- A frame that is queued is what the next call returns, without another packet. -/
  served : ∀ frame completedGpu read, s.pc = .idle → s.closed = false → s.callbacks.completedGpu = frame :: completedGpu →
    s.HasRoom → exec NvdecReader.step s [.call true, .activate true, .pump read, .releaseContext true] = some { s with
      callbacks := { s.callbacks with completedGpu := completedGpu }
      answer := some .ok
      outside := s.outside ++ [frame]
      delivered := s.delivered ++ [frame.picture] }

theorem Sound.complete (h : s.Sound) : s.Complete where
  order := h.order
  delivered := h.delivered
  drained status hanswer hend hopen := by
    rw [h.order hopen, h.answered status hanswer (.inl hend), List.append_nil]
  blocked status hanswer hblocked := by
    have hempty := h.answered status hanswer (.inr hblocked)
    rw [queued, NvdecCallbackState.queued, List.append_eq_nil_iff, List.map_eq_nil_iff] at hempty
    exact hempty.1
  served frame completedGpu read hpc hopen hqueue hroom := by
    have hmode : s.callbacks.outputMode = .gpu := by
      by_contra hne
      rw [h.callbacks.gpu hne] at hqueue
      cases hqueue
    have hfull : ¬ s.callbacks.gpuPool.slots.length ≤ s.callbacks.gpuPool.inUse := Nat.not_le_of_lt hroom
    have hselect : s.callbacks.select true = (s.callbacks, .ok) := by
      have hsame : { s.callbacks with outputMode := .gpu } = s.callbacks := by rw [← hmode]
      simp [NvdecCallbackState.select, NvdecCallbackState.selectGpu, hmode, hfull, hsame]
    have hready : s.callbacks.outputReady true = true := by simp [NvdecCallbackState.outputReady, hqueue]
    simp [exec, NvdecReader.step, hpc, hopen, hselect, NvdecReader.pump, hready, NvdecReader.pop, hqueue, NvdecReader.returns]

end NvdecReader

/-- As long as there is room, whatever the parser displays is delivered once and in its order, however the frames are
released. -/
theorem nvdec_output_complete {context : Nat} {ls : List NvdecReadLabel} {s : NvdecReader} (hcontext : context ≠ 0)
    (h : Run (Restrict NvdecReader.Step fun s l => s.Displays l ∧ s.Roomy l) (.init context) ls s) : s.Complete := by
  have hsound : s.Sound := h.invariant (NvdecReader.sound_init hcontext) fun hs hst => hs.step hst.2.1 hst.2.2 hst.1
  exact hsound.complete

/-- A call whose first packet displays `n` pictures. -/
def nvdecBurst (n : Nat) : List NvdecReadLabel :=
  [.call true, .activate true, .pump .ok, .sequence (.ok (64, 64)), .decode true] ++
    (List.range n).map (fun i => .display ⟨i, i⟩ (some (i + 1, 64)) true) ++ [.parsed true, .pump .ok, .releaseContext true]

/-- A packet of two pictures, and the end of the stream behind them. -/
theorem nvdec_output_complete_small : ∃ s,
    Run (Restrict NvdecReader.Step fun s l => s.Displays l ∧ s.Roomy l) (.init 1)
      (nvdecBurst 2 ++ [.releaseFrame 0, .call true, .activate true, .pump .ok, .releaseContext true, .call true, .activate true,
        .pump ⟨.endOfStream, ""⟩, .parsed true, .pump .ok, .releaseContext true]) s ∧
      s.delivered = [⟨0, 0⟩, ⟨1, 1⟩] ∧ s.Complete := by
  have hrun : ∃ s, Run (Restrict NvdecReader.Step fun s l => s.Displays l ∧ s.Roomy l) (.init 1)
      (nvdecBurst 2 ++ [.releaseFrame 0, .call true, .activate true, .pump .ok, .releaseContext true, .call true, .activate true,
        .pump ⟨.endOfStream, ""⟩, .parsed true, .pump .ok, .releaseContext true]) s ∧
      s.delivered = [⟨0, 0⟩, ⟨1, 1⟩] := ⟨_, Run.restrict_of_exec rfl, rfl⟩
  obtain ⟨s, hs, hdelivered⟩ := hrun
  exact ⟨s, hs, hdelivered, nvdec_output_complete Nat.one_ne_zero hs⟩

/-- The pool has eight slots. Of nine pictures that one packet displays the last one is dropped; of eight the first is
returned, and the next call is blocked while seven are queued. -/
theorem nvdec_picture_lost :
    (∃ s, Run (Restrict NvdecReader.Step NvdecReader.Displays) (.init 1) (nvdecBurst 9) s ∧
      s.closed = false ∧ s.displayed.length = 9 ∧ s.delivered.length + s.queued.length = 8) ∧
    ∃ s, Run (Restrict NvdecReader.Step NvdecReader.Displays) (.init 1) (nvdecBurst 8 ++ [.call true]) s ∧
      s.answer = some ⟨.wouldBlock, "NVIDIA GPU frame pool is full"⟩ ∧ s.callbacks.completedGpu.length = 7 :=
  ⟨⟨_, Run.restrict_of_exec rfl, rfl, rfl, rfl⟩, _, Run.restrict_of_exec rfl, rfl, rfl⟩

end MkvCodec.Gpu
