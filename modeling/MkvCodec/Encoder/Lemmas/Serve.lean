import MkvCodec.Encoder.Script
import MkvCodec.Frame.Copy

/-!
# One section of a scripted call

In a session in which nothing fails, the points that a call of a script passes, and what a section does there:
it hands over what the call asks for exactly when it leaves the part of the call that asks, and it comes nearer
to the end of the call or goes to sleep.
-/

namespace MkvCodec.Encoder

open Concurrency

variable {cfg : Config}

/-- A call asks until it has handed over its request, waits for what must come of it, and is answered. -/
inductive Phase
  | asking
  | waiting
  | answered
  deriving DecidableEq

/-- The points of a scripted call, with the phase in which it reaches them. -/
inductive Serves (cfg : Config) : Call → ClientPc → Phase → Prop
  | write {frame} : Serves cfg (.write frame) (.write frame true) .asking
  | writeCpuSync {frame} (hcap : cfg.capacity = 0) (hlay : (layoutAnswer cfg frame).result = .ok) :
      Serves cfg (.write frame) (.writeCpuSync frame) .asking
  | writeCpuSyncRecord {frame status} (hlay : (layoutAnswer cfg frame).result = .ok)
      (hok : status.result = .ok) : Serves cfg (.write frame) (.writeCpuSyncRecord status) .waiting
  | enqueueOwned {frame} (hlay : (layoutAnswer cfg frame).result = .ok) :
      Serves cfg (.write frame) (.enqueueOwned frame true) .asking
  | enqueueOwnedSpace {frame} (hlay : (layoutAnswer cfg frame).result = .ok) :
      Serves cfg (.write frame) (.enqueueOwnedSpace frame true) .asking
  | enqueueOwnedCopy {frame owned} (hlay : (layoutAnswer cfg frame).result = .ok) :
      Serves cfg (.write frame) (.enqueueOwnedCopy frame true owned) .asking
  | enqueueOwnedPush {frame owned} (hlay : (layoutAnswer cfg frame).result = .ok)
      (hpic : owned.view.picture = frame.picture) :
      Serves cfg (.write frame) (.enqueueOwnedPush frame true owned) .asking
  | flush : Serves cfg .flush .flush .asking
  | flushSync (hcap : cfg.capacity = 0) : Serves cfg .flush .flushSync .asking
  | flushSyncRecord {status} (hok : status.result = .ok) : Serves cfg .flush (.flushSyncRecord status) .waiting
  | flushSpace : Serves cfg .flush .flushSpace .asking
  | flushWait {token} : Serves cfg .flush (.flushWait token) .waiting
  | close : Serves cfg .close .close .asking
  | closeSync (hcap : cfg.capacity = 0) : Serves cfg .close .closeSync .asking
  | closeSyncRecord {status} (hcap : cfg.capacity = 0) (hok : status.result = .ok) :
      Serves cfg .close (.closeSyncRecord status) .waiting
  | closeJoin (hcap : cfg.capacity ≠ 0) : Serves cfg .close .closeJoin .waiting
  | returning {c status} (h : status.reported = c.answer cfg) : Serves cfg c (.returning status) .answered

/-- A session in which nothing has failed and no policy has been set. -/
structure Healthy (a : Impl) : Prop where
  failed : a.failed = false
  canceled : a.canceled = false
  accepting : a.accepting = !a.closeRequested
  allowed : a.prohibitsCpu = false
  mode : a.cpuLayoutMode = .allowCopy
  alignment : a.cpuRequiredAlignment = 1

/-! ## What has been asked for -/

/-- The worker has called the backend to close. -/
def WorkerPc.closeCalled : WorkerPc → Bool
  | .recordClose _ _ | .exited => true
  | _ => false

/-- What the backend has been asked for and what it is still going to be asked for. -/
def Impl.asked (a : Impl) (w : WorkerPc) : List Event :=
  a.calls.map BackendCall.event ++ (w.taken ++ a.queue).map Item.event ++
    if a.closeRequested && !w.closeCalled then [.close] else []

/-- The part of a call's request that has been handed over in a phase. -/
def Phase.given (phase : Phase) (request : List Event) : List Event :=
  match phase with
  | .asking => []
  | .waiting | .answered => request

/-! ## Progress -/

/-- An upper bound on the sections from here to the end of the call. The item that a call puts into the queue
counts for three. -/
@[simp] def ClientPc.weight : ClientPc → Nat
  | .idle => 10
  | .returning _ => 1
  | .writeCpuSyncRecord _ | .flushSyncRecord _ | .closeSyncRecord _ | .closeJoin | .flushWait _ => 2
  | .writeCpuSync _ | .flushSync | .closeSync => 3
  | .enqueueOwnedPush _ _ _ => 5
  | .enqueueOwnedCopy _ _ _ => 6
  | .enqueueOwnedSpace _ _ => 7
  | .enqueueOwned _ _ | .flushSpace => 8
  | _ => 9

/-- Twice the sections that are due, and the threads that are awake to run one more. -/
def effort (a : Impl) (pc : ClientPc) (awake : Bool) : Nat :=
  2 * (pc.weight + 3 * a.queue.length) + awake.toNat

/-- What a section of a scripted call leaves behind. -/
structure Advance (cfg : Config) (w : WorkerPc) (a : Impl) (c : Call) (pc : ClientPc) (phase : Phase)
    (o : Section) (phase' : Phase) : Prop where
  serves : Serves cfg c o.loc phase'
  later : phase ≠ .asking → phase' ≠ .asking
  healthy : Healthy o.shared
  asked : ∀ before, a.asked w = before ++ phase.given (c.asks cfg) →
    o.shared.asked w = before ++ phase'.given (c.asks cfg)
  requested : o.shared.closeRequested = true ↔
    a.closeRequested = true ∨ c = .close ∧ cfg.capacity ≠ 0 ∧ phase = .asking ∧ phase' ≠ .asking
  exited : o.shared.workerExited = a.workerExited
  joined : c = .close → cfg.capacity ≠ 0 → phase' = .answered → a.workerExited = true
  effort : effort o.shared o.loc o.sleep.isNone + (!o.notify.isEmpty).toNat < effort a pc true

namespace Advance

variable {w : WorkerPc} {a b : Impl} {c : Call} {pc pc' : ClientPc} {phase phase' : Phase}

/-- A section that changes nothing that is asked for. -/
theorem quiet {sleep : Option Cond} (hserves : Serves cfg c pc' phase')
    (hlater : phase ≠ .asking → phase' ≠ .asking) (hb : Healthy b)
    (hgiven : phase'.given (c.asks cfg) = phase.given (c.asks cfg)) (hcalls : b.calls = a.calls)
    (hqueue : b.queue = a.queue) (hreq : b.closeRequested = a.closeRequested)
    (hexit : b.workerExited = a.workerExited)
    (hclose : c = .close → phase = .asking → phase' = .asking)
    (hjoin : c = .close → cfg.capacity ≠ 0 → phase' = .answered → a.workerExited = true)
    (hweight : pc'.weight < pc.weight ∨ pc'.weight ≤ pc.weight ∧ sleep.isSome = true) :
    Advance cfg w a c pc phase ⟨b, pc', [], sleep⟩ phase' := by
  refine ⟨hserves, hlater, hb, ?_, ?_, hexit, hjoin, ?_⟩
  · intro before h
    rw [hgiven, ← h]
    simp only [Impl.asked, hcalls, hqueue, hreq]
  · simp only [hreq]
    constructor
    · exact .inl
    · rintro (h | ⟨hc, -, hask, hask'⟩)
      · exact h
      · exact absurd (hclose hc hask) hask'
  · simp only [Encoder.effort, hqueue, List.isEmpty_nil, Bool.not_true, Bool.toNat_false, Bool.toNat_true]
    rcases hweight with hlt | ⟨hle, hsl⟩
    · have := Bool.toNat_le sleep.isNone
      omega
    · obtain ⟨d, rfl⟩ := Option.isSome_iff_exists.mp hsl
      simp only [Option.isNone_some, Bool.toNat_false]
      omega

/-- A section that goes to sleep on its wait condition. -/
theorem asleep {d : Cond} (hs : Serves cfg c pc' phase) (ha : Healthy a) (hne : phase ≠ .answered)
    (hweight : pc'.weight ≤ pc.weight) : Advance cfg w a c pc phase (sleepOn a pc' d) phase :=
  quiet hs id ha rfl rfl rfl rfl rfl (fun _ h => h) (fun _ _ h => absurd h hne) (.inr ⟨hweight, rfl⟩)

/-- A section that goes on to the next point of the call, in the same phase. -/
theorem on (hs : Serves cfg c pc' phase) (hb : Healthy b) (hcalls : b.calls = a.calls)
    (hqueue : b.queue = a.queue) (hreq : b.closeRequested = a.closeRequested)
    (hexit : b.workerExited = a.workerExited) (hne : phase ≠ .answered) (hweight : pc'.weight < pc.weight) :
    Advance cfg w a c pc phase (goto b pc') phase :=
  quiet hs id hb rfl hcalls hqueue hreq hexit (fun _ h => h) (fun _ _ h => absurd h hne) (.inl hweight)

/-- A section that answers a call that has been waiting. -/
theorem answer {status : Status} (hs : status.reported = c.answer cfg) (hb : Healthy b)
    (hphase : phase = .waiting) (hcalls : b.calls = a.calls) (hqueue : b.queue = a.queue)
    (hreq : b.closeRequested = a.closeRequested) (hexit : b.workerExited = a.workerExited)
    (hjoin : c = .close → cfg.capacity ≠ 0 → a.workerExited = true) (hweight : 1 < pc.weight) :
    Advance cfg w a c pc phase (reply b status) .answered := by
  subst hphase
  exact quiet (.returning hs) (by simp) hb rfl hcalls hqueue hreq hexit (by simp) (fun hc hcap _ => hjoin hc hcap)
    (.inl hweight)

/-- A section that queues the item the call asks for. -/
theorem push {item : Item} {ns : List Cond} {sleep : Option Cond} (hserves : Serves cfg c pc' phase')
    (hb : Healthy b) (hphase : phase' ≠ .asking) (hask : c.asks cfg = [item.event]) (hc : c ≠ .close)
    (hcalls : b.calls = a.calls) (hqueue : b.queue = a.queue ++ [item]) (hopen : a.closeRequested = false)
    (hreq : b.closeRequested = false) (hexit : b.workerExited = a.workerExited)
    (hweight : pc'.weight + 3 < pc.weight) :
    Advance cfg w a c pc .asking ⟨b, pc', ns, sleep⟩ phase' := by
  refine ⟨hserves, fun _ => hphase, hb, ?_, ?_, hexit, fun h => absurd h hc, ?_⟩
  · intro before h
    have hgiven : phase'.given (c.asks cfg) = [item.event] := by
      cases phase' with
      | asking => exact absurd rfl hphase
      | waiting | answered => exact hask
    rw [hgiven]
    simp only [Impl.asked, Phase.given, hopen, Bool.false_and, Bool.false_eq_true, ↓reduceIte,
      List.append_nil] at h
    simp only [Impl.asked, hcalls, hqueue, hreq, Bool.false_and, Bool.false_eq_true, ↓reduceIte,
      List.append_nil, ← h, List.map_append, List.append_assoc, List.map_cons, List.map_nil]
  · simp [hreq, hopen, hc]
  · simp only [Encoder.effort, hqueue, List.length_append, List.length_singleton, Bool.toNat_true]
    have := Bool.toNat_le sleep.isNone
    have := Bool.toNat_le (!ns.isEmpty)
    omega

end Advance

/-! ## The sections -/

section

variable {w : WorkerPc} {a : Impl} {frame : FrameView}

@[simp] theorem reported_of_ok {status : Status} (h : status.result = .ok) : status.reported = .ok := by
  simp [Status.reported, h]

@[simp] theorem reported_of_not_ok {status : Status} (h : status.result ≠ .ok) : status.reported = status := by
  simp [Status.reported, h]

theorem layoutAnswer_ok (h : (layoutAnswer cfg frame).result = .ok) :
    layoutAnswer cfg frame = .ok ∧ frame.width = cfg.width ∧ frame.height = cfg.height := by
  obtain ⟨hw, hh, heq, -⟩ := validateCpuFrameLayout_ok h
  exact ⟨heq, hw, hh⟩

theorem answer_write (h : (layoutAnswer cfg frame).result = .ok) :
    Status.ok.reported = (Call.write frame).answer cfg := by
  simp only [Call.answer, (layoutAnswer_ok h).1]
  rfl

theorem asks_write (h : (layoutAnswer cfg frame).result = .ok) :
    (Call.write frame).asks cfg = [.write frame.picture] := by simp [Call.asks, h]

namespace Healthy

theorem layout_eq (ha : Healthy a) : a.layout cfg frame = layoutAnswer cfg frame := by
  simp [Impl.layout, layoutAnswer, ha.mode, ha.alignment]

theorem accepts (ha : Healthy a) (hopen : a.closeRequested = false) : a.accepting = true := by
  rw [ha.accepting, hopen]
  rfl

theorem write (ha : Healthy a) (hopen : a.closeRequested = false) :
    ∃ phase', Advance cfg w a (.write frame) (.write frame true) .asking (write cfg frame true a) phase' := by
  have hacc := ha.accepts hopen
  simp only [Encoder.write, ha.allowed, ha.failed, ha.canceled, hacc, ha.layout_eq, Bool.false_eq_true,
    Bool.not_true, ↓reduceIte, ne_eq, ite_not]
  by_cases hlay : (layoutAnswer cfg frame).result = .ok
  · simp only [hlay, ↓reduceIte]
    by_cases hcap : cfg.capacity = 0
    · simp only [hcap, ↓reduceIte]
      exact ⟨_, .on (.writeCpuSync hcap hlay) ha rfl rfl rfl rfl (by simp) (by simp)⟩
    · simp only [hcap, ↓reduceIte]
      exact ⟨_, .on (.enqueueOwned hlay) ha rfl rfl rfl rfl (by simp) (by simp)⟩
  · -- a rejected frame asks for nothing
    simp only [hlay, ↓reduceIte]
    have hserves : Serves cfg (.write frame) (.returning (layoutAnswer cfg frame)) .answered :=
      .returning (reported_of_not_ok hlay)
    exact ⟨.answered, .quiet hserves (by simp) ha (by simp [Phase.given, Call.asks, hlay]) rfl rfl rfl rfl (by simp)
      (by simp) (.inl (by simp))⟩

theorem enqueueOwned (ha : Healthy a) (hopen : a.closeRequested = false)
    (hlay : (layoutAnswer cfg frame).result = .ok) :
    Advance cfg w a (.write frame) (.enqueueOwned frame true) .asking (enqueueOwned cfg frame true a)
      .asking := by
  obtain ⟨-, hwd, hht⟩ := layoutAnswer_ok hlay
  have hacc := ha.accepts hopen
  simp only [Encoder.enqueueOwned, ha.failed, hacc, hwd, hht, Bool.false_eq_true, Bool.not_true, ↓reduceIte,
    ne_eq, not_true_eq_false, or_self]
  exact .on (.enqueueOwnedSpace hlay) ha rfl rfl rfl rfl (by simp) (by simp)

theorem enqueueOwnedSpace (ha : Healthy a) (hopen : a.closeRequested = false)
    (hlay : (layoutAnswer cfg frame).result = .ok) :
    Advance cfg w a (.write frame) (.enqueueOwnedSpace frame true) .asking
      (enqueueOwnedSpace cfg frame true a) .asking := by
  have hacc := ha.accepts hopen
  simp only [Encoder.enqueueOwnedSpace, ha.failed, hacc, Bool.not_true, Bool.false_and, Bool.true_and,
    Bool.or_false, Bool.false_eq_true, ↓reduceIte]
  split
  · exact .asleep (.enqueueOwnedSpace hlay) ha (by simp) (by simp)
  rename_i hready
  simp only [Bool.not_eq_true', Bool.not_eq_false, Bool.and_eq_true, List.isEmpty_eq_false_iff] at hready
  obtain ⟨hroom, hfree⟩ := hready
  simp only [hroom, Bool.not_true, Bool.false_eq_true, ↓reduceIte]
  cases hf : a.freeFrames with
  | nil => exact absurd hf hfree
  | cons owned rest =>
      refine .on (.enqueueOwnedCopy hlay) ?_ rfl rfl rfl rfl (by simp) (by simp)
      exact ⟨rfl, ha.canceled, by simp [hopen], ha.allowed, ha.mode, ha.alignment⟩

theorem enqueueOwnedCopy (ha : Healthy a) (hlay : (layoutAnswer cfg frame).result = .ok)
    (owned : OwnedFrame) :
    Advance cfg w a (.write frame) (.enqueueOwnedCopy frame true owned) .asking
      (enqueueOwnedCopy frame true owned a) .asking := by
  obtain ⟨-, hwd, -⟩ := layoutAnswer_ok hlay
  have hok := ownFrame_ok hlay owned
  obtain ⟨copy, status, hcopy⟩ : ∃ copy status, ownFrame frame owned = (copy, status) := ⟨_, _, rfl⟩
  obtain rfl : status = .ok := by rw [hcopy] at hok; exact hok
  have hpic := ownFrame_picture hcopy rfl (hwd ▸ cfg.width_le)
  simp only [Encoder.enqueueOwnedCopy, hcopy, Status.ok_result, ne_eq, not_true_eq_false, ↓reduceIte]
  exact .on (.enqueueOwnedPush hlay hpic) ha rfl rfl rfl rfl (by simp) (by simp)

theorem enqueueOwnedPush (ha : Healthy a) (hopen : a.closeRequested = false)
    (hlay : (layoutAnswer cfg frame).result = .ok) {owned : OwnedFrame}
    (hpic : owned.view.picture = frame.picture) :
    ∃ phase', Advance cfg w a (.write frame) (.enqueueOwnedPush frame true owned) .asking
      (enqueueOwnedPush cfg frame true owned a) phase' := by
  have hacc := ha.accepts hopen
  simp only [Encoder.enqueueOwnedPush, ha.failed, hacc, Bool.not_true, Bool.or_false, Bool.true_and,
    Bool.false_eq_true, ↓reduceIte]
  have hb : Healthy (a.pushFrame (.owned owned frame)) :=
    ⟨ha.failed, ha.canceled, ha.accepting, ha.allowed, ha.mode, ha.alignment⟩
  cases hroom : a.hasRoom cfg with
  | false => exact ⟨_, .asleep (.enqueueOwnedPush hlay hpic) ha (by simp) (by simp)⟩
  | true =>
      exact ⟨.answered, .push (.returning (answer_write hlay)) hb (by simp)
        (by rw [asks_write hlay, Item.event, hpic]) (by simp) rfl rfl hopen hopen rfl
        (show 1 + 3 < 5 by decide)⟩

theorem flushWait (ha : Healthy a) (token : Nat) :
    ∃ phase', Advance cfg w a .flush (.flushWait token) .waiting (flushWait token a) phase' := by
  simp only [Encoder.flushWait, ha.failed, ha.canceled, Bool.or_false, Bool.false_eq_true, ↓reduceIte]
  split
  · exact ⟨_, .asleep .flushWait ha (by simp) (by simp)⟩
  · exact ⟨_, .answer rfl ha rfl rfl rfl rfl rfl (by simp) (by simp)⟩

/-- The flush barrier of a session that accepts, pushed from either point before it. -/
theorem flushSpace (ha : Healthy a) (hopen : a.closeRequested = false) {pc : ClientPc}
    (hweight : 8 ≤ pc.weight) : ∃ phase', Advance cfg w a .flush pc .asking (flushSpace cfg a) phase' := by
  have hacc := ha.accepts hopen
  simp only [Encoder.flushSpace, ha.failed, hacc, Bool.not_true, Bool.or_false, Bool.false_eq_true,
    ↓reduceIte]
  split
  · exact ⟨_, .asleep .flushSpace ha (by simp) hweight⟩
  have hb : Healthy a.pushFlush := ⟨ha.failed, ha.canceled, ha.accepting, ha.allowed, ha.mode, ha.alignment⟩
  simp only [Encoder.flushWait, hb.failed, hb.canceled, Bool.or_false, Bool.false_eq_true, ↓reduceIte]
  split
  · refine ⟨.waiting, .push .flushWait hb (by simp) rfl (by simp) rfl rfl hopen hopen rfl ?_⟩
    exact Nat.lt_of_lt_of_le (show 2 + 3 < 8 by decide) hweight
  · refine ⟨.answered, .push (.returning rfl) hb (by simp) rfl (by simp) rfl rfl hopen hopen rfl ?_⟩
    exact Nat.lt_of_lt_of_le (show 1 + 3 < 8 by decide) hweight

theorem flush (ha : Healthy a) (hopen : a.closeRequested = false) :
    ∃ phase', Advance cfg w a .flush .flush .asking (flush cfg a) phase' := by
  simp only [Encoder.flush, ha.failed, ha.canceled, Bool.false_eq_true, ↓reduceIte]
  split
  · rename_i hcap
    exact ⟨_, .on (.flushSync hcap) ha rfl rfl rfl rfl (by simp) (by simp)⟩
  · exact ha.flushSpace hopen (by simp)

theorem close (ha : Healthy a) (hopen : a.closeRequested = false) (hcall : w.closeCalled = false) :
    ∃ phase', Advance cfg w a .close .close .asking (close cfg a) phase' := by
  simp only [Encoder.close, hopen, Bool.false_eq_true, ↓reduceIte]
  split
  · rename_i hcap
    exact ⟨_, .on (.closeSync hcap) ha rfl rfl rfl rfl (by simp) (by simp)⟩
  rename_i hcap
  refine ⟨.waiting, .closeJoin hcap, by simp, ?_, ?_, ?_, rfl, by simp, ?_⟩
  · exact ⟨ha.failed, ha.canceled, rfl, ha.allowed, ha.mode, ha.alignment⟩
  · intro before h
    simp only [Impl.asked, Phase.given, hopen, Bool.false_and, Bool.false_eq_true, ↓reduceIte,
      List.append_nil] at h
    simp only [notifying, goto, Impl.asked, hcall, Phase.given, Call.asks, Bool.not_false, Bool.and_self,
      ↓reduceIte, h]
  · simp [notifying, goto, hcap]
  · simp [notifying, goto, effort, ClientPc.weight]
    omega

theorem closeJoin (ha : Healthy a) (hexit : a.workerExited = true) :
    Advance cfg w a .close .closeJoin .waiting (closeJoin a) .answered := by
  simp only [Encoder.closeJoin, ha.failed, Bool.false_eq_true, ↓reduceIte]
  exact .answer rfl ha rfl rfl rfl rfl rfl (fun _ _ => hexit) (by simp)

theorem writeCpuSyncRecord (ha : Healthy a) (hlay : (layoutAnswer cfg frame).result = .ok) {status : Status}
    (hok : status.result = .ok) :
    Advance cfg w a (.write frame) (.writeCpuSyncRecord status) .waiting (writeCpuSyncRecord status a)
      .answered := by
  have hb : Healthy { a with acceptedFrames := a.acceptedFrames + 1, completedFrames := a.completedFrames + 1 } :=
    ⟨ha.failed, ha.canceled, ha.accepting, ha.allowed, ha.mode, ha.alignment⟩
  simp only [Encoder.writeCpuSyncRecord, hok, ↓reduceIte]
  exact .answer (answer_write hlay) hb rfl rfl rfl rfl rfl (by simp) (by simp)

end Healthy

/-- The section of a scripted call, at every point where it has one. -/
theorem Serves.section {c : Call} {pc : ClientPc} {phase : Phase} {o : Section} (hs : Serves cfg c pc phase)
    (ha : Healthy a) (hopen : phase = .asking → a.closeRequested = false)
    (hcall : a.closeRequested = false → w.closeCalled = false) (ho : clientSection cfg a pc = some o) :
    ∃ phase', Advance cfg w a c pc phase o phase' := by
  cases hs with
  | write => cases ho; exact ha.write (hopen rfl)
  | writeCpuSync | flushSync | closeSync | returning => cases ho
  | writeCpuSyncRecord hlay hok => cases ho; exact ⟨_, ha.writeCpuSyncRecord hlay hok⟩
  | enqueueOwned hlay => cases ho; exact ⟨_, ha.enqueueOwned (hopen rfl) hlay⟩
  | enqueueOwnedSpace hlay => cases ho; exact ⟨_, ha.enqueueOwnedSpace (hopen rfl) hlay⟩
  | enqueueOwnedCopy hlay => cases ho; exact ⟨_, ha.enqueueOwnedCopy hlay _⟩
  | enqueueOwnedPush hlay hpic => cases ho; exact ha.enqueueOwnedPush (hopen rfl) hlay hpic
  | flush => cases ho; exact ha.flush (hopen rfl)
  | flushSyncRecord hok =>
      cases ho
      exact ⟨_, .answer (reported_of_ok hok) ha rfl rfl rfl rfl rfl (by simp) (by simp)⟩
  | flushSpace => cases ho; exact ha.flushSpace (hopen rfl) (by simp)
  | flushWait => cases ho; exact ha.flushWait _
  | close => cases ho; exact ha.close (hopen rfl) (hcall (hopen rfl))
  | closeSyncRecord hcap hok =>
      cases ho
      exact ⟨_, .answer (reported_of_ok hok) ha rfl rfl rfl rfl rfl (fun _ h => absurd hcap h) (by simp)⟩
  | closeJoin hcap =>
      simp only [clientSection] at ho
      split at ho <;> cases ho
      rename_i hexit
      exact ⟨_, ha.closeJoin hexit⟩

/-- The return of a backend call that a client makes itself, in a session without a queue. -/
theorem Serves.backend {c : Call} {pc : ClientPc} {phase : Phase} {m : String} {ended : CallEnd} {o : Section}
    (hs : Serves cfg c pc phase) (ha : Healthy a) (hok : CallEnd.isOk ended = true)
    (hidle : cfg.capacity = 0 → w.taken ++ a.queue = [] ∧ a.closeRequested = false)
    (ho : clientBackend m ended a pc = some o) : ∃ phase', Advance cfg w a c pc phase o phase' := by
  have hcalled : ∀ {call : BackendCall} {pc' : ClientPc}, cfg.capacity = 0 → c.asks cfg = [call.event] →
      phase = .asking → Serves cfg c pc' .waiting → pc'.weight < pc.weight →
      Advance cfg w a c pc phase (goto (a.called call) pc') .waiting := by
    intro call pc' hcap hask hphase hs' hweight
    obtain ⟨hnone, hopen⟩ := hidle hcap
    subst hphase
    have hb : Healthy (a.called call) :=
      ⟨ha.failed, ha.canceled, ha.accepting, ha.allowed, ha.mode, ha.alignment⟩
    refine ⟨hs', by simp, hb, ?_, ?_, rfl, by simp, ?_⟩
    · intro before h
      simp only [Impl.asked, Phase.given, hnone, hopen, Bool.false_and, Bool.false_eq_true, ↓reduceIte,
        List.append_nil, List.map_nil] at h
      simp [goto, Impl.asked, Impl.called, Phase.given, hnone, hopen, hask, h]
    · simp [goto, Impl.called, hopen, hcap]
    · simp only [goto, Encoder.effort, Impl.called, Option.isNone_none, List.isEmpty_nil, Bool.not_true,
        Bool.toNat_false, Bool.toNat_true]
      omega
  cases ended with
  | threw what => cases hok
  | returned status =>
      have hres : status.result = .ok := by simpa [CallEnd.isOk] using hok
      cases hs with
      | writeCpuSync hcap hlay =>
          cases ho
          exact ⟨_, hcalled hcap (asks_write hlay) rfl (.writeCpuSyncRecord hlay hres) (by simp)⟩
      | flushSync hcap => cases ho; exact ⟨_, hcalled hcap rfl rfl (.flushSyncRecord hres) (by simp)⟩
      | closeSync hcap => cases ho; exact ⟨_, hcalled hcap rfl rfl (.closeSyncRecord hcap hres) (by simp)⟩
      | _ => cases ho

end

/-! ## The worker -/

/-- The worker has nothing but success to record. -/
def WorkerPc.fine : WorkerPc → Bool
  | .record _ status | .recordClose _ status => decide (status.result = .ok)
  | .unwind _ _ _ => false
  | _ => true

/-- An upper bound on the sections of a worker that finds the queue empty. -/
@[simp] def WorkerPc.weight : WorkerPc → Nat
  | .serve _ => 5
  | .record _ _ => 4
  | .loop => 3
  | .close _ => 2
  | .recordClose _ _ => 1
  | .notStarted | .unwind _ _ _ | .exited => 0

def workerEffort (a : Impl) (w : WorkerPc) (awake : Bool) : Nat :=
  2 * (w.weight + 3 * a.queue.length) + awake.toNat

/-- What a section of the worker leaves behind. -/
structure WorkerAdvance (a : Impl) (w : WorkerPc) (o : WorkerSection) : Prop where
  fine : o.loc.fine = true
  healthy : Healthy o.shared
  asked : o.shared.asked o.loc = a.asked w
  requested : o.shared.closeRequested = a.closeRequested
  exited : a.workerExited = true → o.shared.workerExited = true
  effort : workerEffort o.shared o.loc o.sleep.isNone + (!o.notify.isEmpty).toNat < workerEffort a w true

theorem WorkerEffect.advance {a : Impl} {w : WorkerPc} {e : Choice} {o : WorkerSection}
    (h : WorkerEffect a w e o) (ha : Healthy a) (hw : w.fine = true)
    (hreq : w.closing = true → a.closeRequested = true ∧ a.queue = [])
    (hok : ∀ ended, e = .backend ended → CallEnd.isOk ended = true) : WorkerAdvance a w o := by
  have hres : ∀ {status : Status}, e = .backend (.returned status) → status.result = .ok := by
    intro status he
    simpa [CallEnd.isOk] using hok _ he
  cases h with
  | asleep hopen hq => exact ⟨rfl, ha, rfl, rfl, id, by simp [workerEffort, hq]⟩
  | stop hclose hq =>
      exact ⟨rfl, ha, by simp [Impl.asked, hq, WorkerPc.taken, WorkerPc.closeCalled], rfl, id,
        by simp [workerEffort, hq]⟩
  | @pop item rest hq =>
      have hb : Healthy { a with queue := rest } :=
        ⟨ha.failed, ha.canceled, ha.accepting, ha.allowed, ha.mode, ha.alignment⟩
      refine ⟨rfl, hb, by simp [Impl.asked, hq, WorkerPc.taken, WorkerPc.closeCalled], rfl, id, ?_⟩
      simp only [workerEffort, hq, WorkerPc.weight, List.length_cons, Option.isNone_none, Bool.toNat_true,
        List.isEmpty_cons, Bool.not_false]
      omega
  | @served item status =>
      have hb : Healthy (a.called (.item item (.returned status))) :=
        ⟨ha.failed, ha.canceled, ha.accepting, ha.allowed, ha.mode, ha.alignment⟩
      refine ⟨by simp [WorkerPc.fine, hres rfl], hb, ?_, rfl, id, by simp [workerEffort, Impl.called]⟩
      simp [Impl.asked, Impl.called, WorkerPc.taken, WorkerPc.closeCalled, BackendCall.event]
  | threw => cases hok _ rfl
  | failure hne => simp [WorkerPc.fine, hne] at hw
  | @success item status hs =>
      have hsame : (recordSuccess item a).shared.calls = a.calls ∧
          (recordSuccess item a).shared.queue = a.queue ∧
          (recordSuccess item a).shared.closeRequested = a.closeRequested ∧
          (recordSuccess item a).shared.workerExited = a.workerExited ∧
          (recordSuccess item a).loc = .loop ∧ (recordSuccess item a).sleep = none ∧
          Healthy (recordSuccess item a).shared := by
        cases item <;>
          exact ⟨rfl, rfl, rfl, rfl, rfl, rfl,
            ha.failed, ha.canceled, ha.accepting, ha.allowed, ha.mode, ha.alignment⟩
      obtain ⟨hcalls, hqueue, hclose, hexit, hloc, hsleep, hb⟩ := hsame
      refine ⟨by rw [hloc]; rfl, hb, ?_, hclose, fun h => hexit.trans h, ?_⟩
      · simp [Impl.asked, hcalls, hqueue, hclose, hloc, WorkerPc.taken, WorkerPc.closeCalled]
      · have := Bool.toNat_le (!(recordSuccess item a).notify.isEmpty)
        simp only [workerEffort, hqueue, hloc, hsleep, WorkerPc.weight, Option.isNone_none, Bool.toNat_true]
        omega
  | @closed active status =>
      have hb : Healthy (a.called (.close (.returned status))) :=
        ⟨ha.failed, ha.canceled, ha.accepting, ha.allowed, ha.mode, ha.alignment⟩
      obtain ⟨hclose, hq⟩ := hreq rfl
      refine ⟨by simp [WorkerPc.fine, hres rfl], hb, ?_, rfl, id, by simp [workerEffort, Impl.called]⟩
      simp [Impl.asked, Impl.called, hclose, hq, WorkerPc.taken, WorkerPc.closeCalled, BackendCall.event]
  | closeThrew => cases hok _ rfl
  | finish hf =>
      obtain ⟨hclose, -⟩ := hreq rfl
      refine ⟨rfl, ⟨ha.failed, ha.canceled, by simp [hclose], ha.allowed, ha.mode, ha.alignment⟩, ?_, rfl,
        fun _ => rfl, by simp [workerEffort]; omega⟩
      simp [Impl.asked, WorkerPc.taken, WorkerPc.closeCalled]
  | finishFailed hf hne => simp [WorkerPc.fine, hne] at hw
  | handler => cases hw

end MkvCodec.Encoder
