import MkvCodec.Concurrency.TaskPool
import MkvCodec.Concurrency.Transition
import MkvCodec.Frame.Conversion

/-!
# Conversions on the shared workers

Calls of `convert_i420_packed` that share the worker pool of `cpu_conversion_workers.cpp`. What a call waits for is what its futures
name; an exception that leaves it waits for nothing.
-/

namespace MkvCodec

open Concurrency

/-! ## State -/

/-- The arguments of a call. -/
structure ConversionArgs where
  highway : Bool
  format : PackedFormat
  layout : PackedLayout
  width : Nat
  height : Nat
  threads : Nat

/-- Whether `worker_count` asks the pool, which may have to be created for it. -/
def ConversionArgs.asksPool (args : ConversionArgs) : Prop := 1280 * 720 ≤ args.width * args.height ∧ args.threads ≠ 1

instance (args : ConversionArgs) : Decidable args.asksPool := inferInstanceAs (Decidable (_ ∧ _))

/-- How many stripes a call converts, the caller's own first; `none` where an offset of them overflows. -/
def ConversionArgs.stripeCount (args : ConversionArgs) (hardwareThreads : Nat) : Option Nat :=
  (convertI420Packed args.highway args.format args.layout args.width args.height
    (workerCount args.width args.height args.threads hardwareThreads)).map List.length

/-- How `convert_i420_packed_stripe` ends; `result` is an `int`. -/
inductive StripeOutcome
  | returned (result : BitVec 32)
  | threw
  deriving DecidableEq

/-- A task of the pool: the call whose stripe it is, and which of its stripes. -/
structure StripeTask (ι : Type*) where
  call : ι
  index : Nat
  deriving DecidableEq

/-- Where a call stands. In the loop that submits, and in the loop over the futures, `next` is the next stripe. -/
inductive ConversionCall
  | idle
  | submitting (next : Nat)
  | collecting (next : Nat) (result : BitVec 32)
  | returned (result : BitVec 32)
  | threw
  deriving DecidableEq

def ConversionCall.Ended : ConversionCall → Prop
  | .returned _ | .threw => True
  | _ => False

/-- The pool with the calls that use it; `own` is how the caller's own stripe has ended. -/
structure Conversions (ι : Type*) where
  pool : TaskPool (StripeTask ι) StripeOutcome
  call : ι → ConversionCall
  own : ι → Option StripeOutcome

def Conversions.initial {ι : Type*} : Conversions ι := ⟨.empty, fun _ => .idle, fun _ => none⟩

/-! ## Steps -/

/-- What comes of a submission. It is `refused` by an exception before the task is queued; the task is `dropped` when `operations` cannot
grow to hold its future. -/
inductive Submission
  | accepted
  | refused
  | dropped
  deriving DecidableEq

/-- `ready` unless the pool cannot be created. -/
inductive ConversionLabel (ι : Type*)
  | start (call : ι) (ready : Bool)
  | submit (call : ι) (submission : Submission)
  | convert (call : ι) (outcome : StripeOutcome)
  | collect (call : ι)
  | take
  | finish (task : StripeTask ι) (outcome : StripeOutcome)

variable {ι : Type*}

section

variable [DecidableEq ι]

def Conversions.goto (s : Conversions ι) (i : ι) (call : ConversionCall) : Conversions ι :=
  { s with call := Function.update s.call i call }

/-- The stripes of a call are numbered below `n`; its own is the first. -/
def Conversions.submit (s : Conversions ι) (i : ι) (next n : Nat) (submission : Submission) : Option (Conversions ι) :=
  if next < n then
    match submission with
    | .accepted => some { s.goto i (.submitting (next + 1)) with pool := s.pool.submit ⟨i, next⟩ }
    | .refused => some (s.goto i .threw)
    | .dropped => some { s.goto i .threw with pool := s.pool.submit ⟨i, next⟩ }
  else none

def Conversions.convert (s : Conversions ι) (i : ι) (next n : Nat) (outcome : StripeOutcome) : Option (Conversions ι) :=
  if next = n then
    match outcome with
    | .returned result => some { s.goto i (.collecting 1 result) with own := Function.update s.own i (some outcome) }
    | .threw => some { s.goto i .threw with own := Function.update s.own i (some outcome) }
  else none

/-- `get` waits for the result of the stripe. -/
def Conversions.collect (s : Conversions ι) (i : ι) (next n : Nat) (result : BitVec 32) : Option (Conversions ι) :=
  if next < n then
    match s.pool.result ⟨i, next⟩ with
    | none => none
    | some (.returned value) => some (s.goto i (.collecting (next + 1) (result ||| value)))
    | some .threw => some (s.goto i .threw)
  else some (s.goto i (.returned result))

def Conversions.step (args : ι → ConversionArgs) (hardwareThreads : Nat) (s : Conversions ι) :
    ConversionLabel ι → Option (Conversions ι)
  | .start i ready =>
      match s.call i with
      | .idle =>
          if ready then ((args i).stripeCount hardwareThreads).map fun _ => s.goto i (.submitting 1)
          else if (args i).asksPool then some (s.goto i .threw)
          else none
      | _ => none
  | .submit i submission =>
      match s.call i with
      | .submitting next => ((args i).stripeCount hardwareThreads).bind fun n => s.submit i next n submission
      | _ => none
  | .convert i outcome =>
      match s.call i with
      | .submitting next => ((args i).stripeCount hardwareThreads).bind fun n => s.convert i next n outcome
      | _ => none
  | .collect i =>
      match s.call i with
      | .collecting next result => ((args i).stripeCount hardwareThreads).bind fun n => s.collect i next n result
      | _ => none
  | .take => (s.pool.take (conversionWorkers hardwareThreads)).map fun pool => { s with pool }
  | .finish task outcome => (s.pool.finish task outcome).map fun pool => { s with pool }

abbrev ConversionStep (args : ι → ConversionArgs) (hardwareThreads : Nat) (s : Conversions ι) (l : ConversionLabel ι)
    (t : Conversions ι) : Prop := s.step args hardwareThreads l = some t

end

/-! ## What has to hold of the exceptions -/

/-- No exception leaves the call behind a stripe that may be unfinished: none of a submission behind the first, none when a future is
stored, none of the caller's own stripe where there are others, and none of a submitted stripe but the last. -/
def Tame (args : ι → ConversionArgs) (hardwareThreads : Nat) (s : Conversions ι) : ConversionLabel ι → Prop
  | .submit i .refused => s.call i = .submitting 1
  | .submit _ .dropped => False
  | .convert i .threw => s.call i = .submitting 1
  | .finish task .threw => (args task.call).stripeCount hardwareThreads = some (task.index + 1)
  | _ => True

instance (args : ι → ConversionArgs) (hardwareThreads : Nat) (s : Conversions ι) :
    (l : ConversionLabel ι) → Decidable (Tame args hardwareThreads s l)
  | .submit i .refused => inferInstanceAs (Decidable (s.call i = .submitting 1))
  | .submit _ .dropped => inferInstanceAs (Decidable False)
  | .convert i .threw => inferInstanceAs (Decidable (s.call i = .submitting 1))
  | .finish task .threw => inferInstanceAs (Decidable ((args task.call).stripeCount hardwareThreads = some (task.index + 1)))
  | .start _ _ | .submit _ .accepted | .convert _ (.returned _) | .collect _ | .take | .finish _ (.returned _) =>
      inferInstanceAs (Decidable True)

/-- A call that has ended left no stripe behind, and where it reports success every stripe has been a success. -/
structure Contained (args : ι → ConversionArgs) (hardwareThreads : Nat) (s : Conversions ι) : Prop where
  finished : ∀ i, (s.call i).Ended → ∀ task ∈ s.pool.live, task.call ≠ i
  succeeded : ∀ i, s.call i = .returned 0 → s.own i = some (.returned 0) ∧
    ∀ n, (args i).stripeCount hardwareThreads = some n → ∀ k, 1 ≤ k → k < n → s.pool.result ⟨i, k⟩ = some (.returned 0)

/-! ## What is known of a call -/

variable {args : ι → ConversionArgs} {hardwareThreads n next : Nat} {s t : Conversions ι} {i j : ι} {l : ConversionLabel ι}
  {result : BitVec 32} {submission : Submission} {outcome : StripeOutcome} {task : StripeTask ι}

/-- The tasks of a call that have been submitted are those below `n`. -/
def Conversions.Covers (s : Conversions ι) (i : ι) (n : Nat) : Prop := ∀ k, s.pool.Known ⟨i, k⟩ ↔ 1 ≤ k ∧ k < n

/-- The results of a call below `next` are in, and `result` is 0 only if they are. -/
structure Conversions.Collected (s : Conversions ι) (i : ι) (next : Nat) (result : BitVec 32) : Prop where
  own : ∃ v, s.own i = some (.returned v) ∧ (result = 0 → v = 0)
  rest : ∀ k, 1 ≤ k → k < next → ∃ v, s.pool.result ⟨i, k⟩ = some (.returned v) ∧ (result = 0 → v = 0)

/-- What a call knows of its `n` stripes. -/
def Conversions.Knows (s : Conversions ι) (i : ι) (n : Nat) : ConversionCall → Prop
  | .idle => s.Covers i 1
  | .submitting next => s.Covers i next ∧ 1 ≤ next ∧ next ≤ n
  | .collecting next result => s.Covers i n ∧ next ≤ n ∧ 1 ≤ next ∧ s.Collected i next result
  | .returned result => s.Covers i n ∧ s.Collected i n result
  | .threw => True

structure Conversions.Sound (args : ι → ConversionArgs) (hardwareThreads : Nat) (s : Conversions ι) : Prop where
  pool : s.pool.Sound
  knows : ∀ i, s.Knows i (((args i).stripeCount hardwareThreads).getD 1) (s.call i)

/-- Nothing that is known of a call gets lost. -/
structure Conversions.Keeps (s t : Conversions ι) (j : ι) : Prop where
  known : ∀ k, t.pool.Known ⟨j, k⟩ ↔ s.pool.Known ⟨j, k⟩
  result : ∀ k v, s.pool.result ⟨j, k⟩ = some v → t.pool.result ⟨j, k⟩ = some v
  own : t.own j = s.own j

namespace Conversions

theorem Covers.not_live (h : s.Covers i 1) : ∀ task ∈ s.pool.live, task.call ≠ i := by
  rintro ⟨_, k⟩ hlive rfl
  have := (h k).mp (.inl hlive)
  omega

theorem Covers.not_known {k : Nat} (h : s.Covers i n) (hk : n ≤ k) : ¬ s.pool.Known ⟨i, k⟩ := fun hknown =>
  Nat.not_lt_of_le hk ((h k).mp hknown).2

theorem Keeps.covers (h : s.Keeps t j) (hs : s.Covers j n) : t.Covers j n := fun k => (h.known k).trans (hs k)

theorem Keeps.collected (h : s.Keeps t j) (hs : s.Collected j next result) : t.Collected j next result where
  own := by
    rw [h.own]
    exact hs.own
  rest k hk hlt := by
    obtain ⟨v, hv, hzero⟩ := hs.rest k hk hlt
    exact ⟨v, h.result k _ hv, hzero⟩

theorem Keeps.knows (h : s.Keeps t j) {c : ConversionCall} (hs : s.Knows j n c) : t.Knows j n c := by
  cases c with
  | idle => exact h.covers hs
  | submitting => exact ⟨h.covers hs.1, hs.2⟩
  | collecting => exact ⟨h.covers hs.1, hs.2.1, hs.2.2.1, h.collected hs.2.2.2⟩
  | returned => exact ⟨h.covers hs.1, h.collected hs.2⟩
  | threw => trivial

theorem keeps_of_pool (hpool : t.pool = s.pool) (hown : t.own j = s.own j) : s.Keeps t j where
  known k := by rw [hpool]
  result k v hv := by rw [hpool, hv]
  own := hown

theorem keeps_of_submit {k : Nat} (hne : j ≠ i) (hpool : t.pool = s.pool.submit ⟨i, k⟩) (hown : t.own = s.own) : s.Keeps t j where
  known k' := by simp [hpool, TaskPool.known_submit, hne]
  result k' v hv := by rw [hpool, TaskPool.result_submit, hv]
  own := by rw [hown]

theorem Covers.submit (h : s.Covers i next) (hpos : 1 ≤ next) (hpool : t.pool = s.pool.submit ⟨i, next⟩) : t.Covers i (next + 1) := by
  intro k
  rw [hpool, TaskPool.known_submit, h k, StripeTask.mk.injEq]
  constructor
  · rintro (⟨-, rfl⟩ | ⟨hk, hlt⟩) <;> omega
  · intro hk
    by_cases heq : k = next
    · exact .inl ⟨rfl, heq⟩
    · exact .inr (by omega)

theorem keeps_take {pool : TaskPool (StripeTask ι) StripeOutcome} {workers : Nat} (hpool : s.pool.take workers = some pool) (j : ι) :
    s.Keeps { s with pool } j where
  known _ := TaskPool.known_take hpool
  result k v hv := by
    show pool.result _ = _
    rw [(TaskPool.take_perm hpool).2, hv]
  own := rfl

theorem Collected.snoc {value : BitVec 32} (h : s.Collected i next result) (hvalue : s.pool.result ⟨i, next⟩ = some (.returned value)) :
    s.Collected i (next + 1) (result ||| value) where
  own := by
    obtain ⟨v, hv, hzero⟩ := h.own
    exact ⟨v, hv, fun hor => hzero (BitVec.or_eq_zero_iff.mp hor).1⟩
  rest k hk hlt := by
    rcases Nat.lt_succ_iff_lt_or_eq.mp hlt with hlt | rfl
    · obtain ⟨v, hv, hzero⟩ := h.rest k hk hlt
      exact ⟨v, hv, fun hor => hzero (BitVec.or_eq_zero_iff.mp hor).1⟩
    · exact ⟨value, hvalue, fun hor => (BitVec.or_eq_zero_iff.mp hor).2⟩

/-- A call has at least its own stripe. -/
theorem stripeCount_pos (hn : (args i).stripeCount hardwareThreads = some n) : 1 ≤ n := by
  obtain ⟨stripes, hstripes, rfl⟩ := Option.map_eq_some_iff.mp hn
  refine List.length_pos_iff.mpr fun hnil => ?_
  subst hnil
  simp only [convertI420Packed, Option.bind_eq_bind, Option.bind_eq_some_iff] at hstripes
  obtain ⟨_, _, h⟩ := hstripes
  split at h
  case isTrue => cases h
  case isFalse =>
      simp only [Option.bind_eq_some_iff] at h
      obtain ⟨_, _, _, _, h⟩ := h
      cases h

theorem sound_initial : (initial : Conversions ι).Sound args hardwareThreads where
  pool := .empty
  knows i k := by
    simp only [initial, TaskPool.not_known_empty, false_iff]
    omega

/-- The results of a call below `n` are in, so none of its tasks is left. -/
theorem Collected.not_live (h : s.pool.Sound) (hcovers : s.Covers i n) (hcollected : s.Collected i n result) :
    ∀ task ∈ s.pool.live, task.call ≠ i := by
  rintro ⟨_, k⟩ hlive rfl
  obtain ⟨hpos, hlt⟩ := (hcovers k).mp (.inl hlive)
  obtain ⟨v, hv, -⟩ := hcollected.rest k hpos hlt
  exact TaskPool.not_live_of_result h hv hlive

/-- In every run, a call that returns has left no stripe behind, and 0 stands for a success of all. -/
theorem Sound.returned (h : s.Sound args hardwareThreads) (hcall : s.call i = .returned result) :
    (∀ task ∈ s.pool.live, task.call ≠ i) ∧ (result = 0 → s.own i = some (.returned 0) ∧
      ∀ n, (args i).stripeCount hardwareThreads = some n → ∀ k, 1 ≤ k → k < n → s.pool.result ⟨i, k⟩ = some (.returned 0)) := by
  have hknows := h.knows i
  rw [hcall] at hknows
  obtain ⟨hcovers, hcollected⟩ := hknows
  refine ⟨hcollected.not_live h.pool hcovers, fun hzero => ⟨?_, fun n hn k hpos hlt => ?_⟩⟩
  · obtain ⟨v, hv, hv0⟩ := hcollected.own
    rw [hv, hv0 hzero]
  · rw [hn] at hcollected
    obtain ⟨v, hv, hv0⟩ := hcollected.rest k hpos hlt
    rw [hv, hv0 hzero]

theorem Sound.at (h : s.Sound args hardwareThreads) {c : ConversionCall} (hcall : s.call i = c)
    (hn : (args i).stripeCount hardwareThreads = some n) : s.Knows i n c := by
  have hknows := h.knows i
  rw [hcall, hn] at hknows
  exact hknows

theorem Sound.idle (h : s.Sound args hardwareThreads) (hidle : s.call i = .idle) : s.Covers i 1 := by
  have hknows := h.knows i
  rw [hidle] at hknows
  exact hknows

/-- What holds besides where the exceptions are tame. -/
structure Quiet (args : ι → ConversionArgs) (hardwareThreads : Nat) (s : Conversions ι) : Prop where
  sound : s.Sound args hardwareThreads
  threw : ∀ i, s.call i = .threw → ∀ task ∈ s.pool.live, task.call ≠ i
  last : ∀ task, s.pool.result task = some .threw → (args task.call).stripeCount hardwareThreads = some (task.index + 1)

theorem Quiet.contained (h : s.Quiet args hardwareThreads) : Contained args hardwareThreads s where
  finished i hended := by
    cases hcall : s.call i with
    | returned result => exact (h.sound.returned hcall).1
    | threw => exact h.threw i hcall
    | idle | submitting | collecting =>
        rw [hcall] at hended
        exact hended.elim
  succeeded i hcall := (h.sound.returned hcall).2 rfl

variable [DecidableEq ι]

/-- A step of one call. -/
theorem Sound.after (h : s.Sound args hardwareThreads) {c : ConversionCall} (hpool : t.pool.Sound)
    (hcall : t.call = Function.update s.call i c) (hothers : ∀ j, j ≠ i → s.Keeps t j)
    (hknows : t.Knows i (((args i).stripeCount hardwareThreads).getD 1) c) : t.Sound args hardwareThreads where
  pool := hpool
  knows j := by
    rw [hcall]
    by_cases hj : j = i
    · rw [hj, Function.update_self]
      exact hknows
    · rw [Function.update_of_ne hj]
      exact (hothers j hj).knows (h.knows j)

theorem Sound.goto (h : s.Sound args hardwareThreads) {c : ConversionCall}
    (hknows : s.Knows i (((args i).stripeCount hardwareThreads).getD 1) c) : (s.goto i c).Sound args hardwareThreads :=
  h.after h.pool rfl (fun _ _ => keeps_of_pool rfl rfl) ((keeps_of_pool rfl rfl : s.Keeps (s.goto i c) i).knows hknows)

theorem keeps_finish {pool : TaskPool (StripeTask ι) StripeOutcome} (h : s.pool.Sound) (hpool : s.pool.finish task outcome = some pool)
    (j : ι) : s.Keeps { s with pool } j where
  known _ := TaskPool.known_finish hpool
  result _ _ hv := TaskPool.result_finish h hpool hv
  own := rfl

/-! ## One step -/

/-- What a step does, with what it finds. -/
inductive Move (args : ι → ConversionArgs) (hardwareThreads : Nat) (s : Conversions ι) : ConversionLabel ι → Conversions ι → Prop
  | ready {i : ι} {n : Nat} : s.call i = .idle → (args i).stripeCount hardwareThreads = some n →
      Move args hardwareThreads s (.start i true) (s.goto i (.submitting 1))
  | unready {i : ι} : s.call i = .idle → Move args hardwareThreads s (.start i false) (s.goto i .threw)
  | accepted {i : ι} {n next : Nat} : s.call i = .submitting next → (args i).stripeCount hardwareThreads = some n → next < n →
      Move args hardwareThreads s (.submit i .accepted)
        { s.goto i (.submitting (next + 1)) with pool := s.pool.submit ⟨i, next⟩ }
  | refused {i : ι} {n next : Nat} : s.call i = .submitting next → (args i).stripeCount hardwareThreads = some n → next < n →
      Move args hardwareThreads s (.submit i .refused) (s.goto i .threw)
  | dropped {i : ι} {n next : Nat} : s.call i = .submitting next → (args i).stripeCount hardwareThreads = some n → next < n →
      Move args hardwareThreads s (.submit i .dropped) { s.goto i .threw with pool := s.pool.submit ⟨i, next⟩ }
  | converted {i : ι} {n : Nat} {result : BitVec 32} : s.call i = .submitting n → (args i).stripeCount hardwareThreads = some n →
      Move args hardwareThreads s (.convert i (.returned result))
        { s.goto i (.collecting 1 result) with own := Function.update s.own i (some (.returned result)) }
  | convertThrew {i : ι} {n : Nat} : s.call i = .submitting n → (args i).stripeCount hardwareThreads = some n →
      Move args hardwareThreads s (.convert i .threw) { s.goto i .threw with own := Function.update s.own i (some .threw) }
  | collected {i : ι} {n next : Nat} {result value : BitVec 32} : s.call i = .collecting next result →
      (args i).stripeCount hardwareThreads = some n → next < n → s.pool.result ⟨i, next⟩ = some (.returned value) →
      Move args hardwareThreads s (.collect i) (s.goto i (.collecting (next + 1) (result ||| value)))
  | rethrown {i : ι} {n next : Nat} {result : BitVec 32} : s.call i = .collecting next result →
      (args i).stripeCount hardwareThreads = some n → next < n → s.pool.result ⟨i, next⟩ = some .threw →
      Move args hardwareThreads s (.collect i) (s.goto i .threw)
  | returned {i : ι} {n next : Nat} {result : BitVec 32} : s.call i = .collecting next result →
      (args i).stripeCount hardwareThreads = some n → n ≤ next →
      Move args hardwareThreads s (.collect i) (s.goto i (.returned result))
  | take {pool : TaskPool (StripeTask ι) StripeOutcome} : s.pool.take (conversionWorkers hardwareThreads) = some pool →
      Move args hardwareThreads s .take { s with pool }
  | finish {task : StripeTask ι} {outcome : StripeOutcome} {pool : TaskPool (StripeTask ι) StripeOutcome} :
      s.pool.finish task outcome = some pool → Move args hardwareThreads s (.finish task outcome) { s with pool }

theorem step_move (hst : ConversionStep args hardwareThreads s l t) : s.Move args hardwareThreads l t := by
  cases l with
  | start i ready =>
      rw [ConversionStep, step] at hst
      split at hst
      case h_2 => cases hst
      case h_1 hidle =>
          cases ready with
          | true =>
              obtain ⟨n, hn, rfl⟩ := Option.map_eq_some_iff.mp hst
              exact .ready hidle hn
          | false =>
              rw [if_neg Bool.false_ne_true] at hst
              split at hst <;> cases hst
              exact .unready hidle
  | submit i submission =>
      rw [ConversionStep, step] at hst
      split at hst
      case h_2 => cases hst
      case h_1 next hcall =>
          obtain ⟨n, hn, hst⟩ := Option.bind_eq_some_iff.mp hst
          unfold Conversions.submit at hst
          split at hst
          case isFalse => cases hst
          case isTrue hlt =>
              cases submission <;> cases hst
              · exact .accepted hcall hn hlt
              · exact .refused hcall hn hlt
              · exact .dropped hcall hn hlt
  | convert i outcome =>
      rw [ConversionStep, step] at hst
      split at hst
      case h_2 => cases hst
      case h_1 next hcall =>
          obtain ⟨n, hn, hst⟩ := Option.bind_eq_some_iff.mp hst
          unfold Conversions.convert at hst
          split at hst
          case isFalse => cases hst
          case isTrue heq =>
              subst heq
              cases outcome <;> cases hst
              · exact .converted hcall hn
              · exact .convertThrew hcall hn
  | collect i =>
      rw [ConversionStep, step] at hst
      split at hst
      case h_2 => cases hst
      case h_1 next result hcall =>
          obtain ⟨n, hn, hst⟩ := Option.bind_eq_some_iff.mp hst
          unfold Conversions.collect at hst
          split at hst
          case isTrue hlt =>
              split at hst <;> cases hst
              case h_2 value hvalue => exact .collected hcall hn hlt hvalue
              case h_3 hthrew => exact .rethrown hcall hn hlt hthrew
          case isFalse hge =>
              cases hst
              exact .returned hcall hn (Nat.le_of_not_lt hge)
  | take =>
      obtain ⟨pool, hpool, rfl⟩ := Option.map_eq_some_iff.mp hst
      exact .take hpool
  | finish task outcome =>
      obtain ⟨pool, hpool, rfl⟩ := Option.map_eq_some_iff.mp hst
      exact .finish hpool

theorem Sound.step (h : s.Sound args hardwareThreads) (hst : s.Move args hardwareThreads l t) : t.Sound args hardwareThreads := by
  cases hst with
  | ready hidle hn =>
      refine h.goto ?_
      rw [hn]
      exact ⟨h.idle hidle, Nat.le_refl 1, stripeCount_pos hn⟩
  | unready | refused | rethrown => exact h.goto trivial
  | @accepted i n next hcall hn hlt =>
      obtain ⟨hcovers, hpos, -⟩ := h.at hcall hn
      refine h.after (h.pool.submit (hcovers.not_known (Nat.le_refl next))) rfl (fun j hj => keeps_of_submit hj rfl rfl) ?_
      exact ⟨hcovers.submit hpos rfl, Nat.le_add_left .., by rwa [hn]⟩
  | @dropped i n next hcall hn hlt =>
      obtain ⟨hcovers, -⟩ := h.at hcall hn
      exact h.after (h.pool.submit (hcovers.not_known (Nat.le_refl next))) rfl (fun j hj => keeps_of_submit hj rfl rfl) trivial
  | @converted i n result hcall hn =>
      obtain ⟨hcovers, hpos, -⟩ := h.at hcall hn
      refine h.after h.pool rfl (fun j hj => keeps_of_pool rfl (Function.update_of_ne hj ..)) ?_
      rw [hn]
      refine ⟨hcovers, hpos, Nat.le_refl 1, ⟨result, Function.update_self .., id⟩, ?_⟩
      intro k hk hlt
      omega
  | convertThrew => exact h.after h.pool rfl (fun j hj => keeps_of_pool rfl (Function.update_of_ne hj ..)) trivial
  | collected hcall hn hlt hvalue =>
      obtain ⟨hcovers, hle, hpos, hcollected⟩ := h.at hcall hn
      refine h.goto ?_
      rw [hn]
      exact ⟨hcovers, hlt, Nat.le_add_left .., hcollected.snoc hvalue⟩
  | @returned i n next result hcall hn hge =>
      obtain ⟨hcovers, hle, hpos, hcollected⟩ := h.at hcall hn
      obtain rfl : next = n := Nat.le_antisymm hle hge
      refine h.goto ?_
      rw [hn]
      exact ⟨hcovers, hcollected⟩
  | take hpool => exact ⟨h.pool.take hpool, fun j => (keeps_take hpool j).knows (h.knows j)⟩
  | finish hpool => exact ⟨h.pool.finish hpool, fun j => (keeps_finish h.pool hpool j).knows (h.knows j)⟩

/-! ## Exceptions -/

theorem Quiet.goto (h : s.Quiet args hardwareThreads) {c : ConversionCall} (hsound : t.Sound args hardwareThreads)
    (hpool : t.pool = s.pool) (hcall : t.call = Function.update s.call i c) (hc : c = .threw → ∀ task ∈ s.pool.live, task.call ≠ i) :
    t.Quiet args hardwareThreads where
  sound := hsound
  threw j hj := by
    rw [hcall] at hj
    rw [hpool]
    by_cases hji : j = i
    · subst hji
      rw [Function.update_self] at hj
      exact hc hj
    · rw [Function.update_of_ne hji] at hj
      exact h.threw j hj
  last task hthrew := by
    rw [hpool] at hthrew
    exact h.last task hthrew

theorem Quiet.step (h : s.Quiet args hardwareThreads) (hst : s.Move args hardwareThreads l t) (htame : Tame args hardwareThreads s l) :
    t.Quiet args hardwareThreads := by
  have hsound := h.sound.step hst
  cases hst with
  | ready => exact h.goto hsound rfl rfl nofun
  | unready hidle => exact h.goto hsound rfl rfl fun _ => (h.sound.idle hidle).not_live
  | @accepted i n next hcall hn hlt =>
      refine ⟨hsound, fun j hj task hlive => ?_, h.last⟩
      have hji : j ≠ i := fun heq => by simp [heq, Conversions.goto] at hj
      simp only [Conversions.goto, Function.update_of_ne hji] at hj
      rcases TaskPool.mem_live_submit.mp hlive with rfl | hlive
      · exact hji.symm
      · exact h.threw j hj task hlive
  | refused hcall hn =>
      have hone : s.call _ = .submitting 1 := htame
      exact h.goto hsound rfl rfl fun _ => (h.sound.at hone hn).1.not_live
  | dropped => exact htame.elim
  | converted => exact h.goto hsound rfl rfl nofun
  | convertThrew hcall hn =>
      have hone : s.call _ = .submitting 1 := htame
      exact h.goto hsound rfl rfl fun _ => (h.sound.at hone hn).1.not_live
  | collected => exact h.goto hsound rfl rfl nofun
  | @rethrown i n next result hcall hn hlt hthrew =>
      refine h.goto hsound rfl rfl fun _ => ?_
      obtain ⟨hcovers, hle, hpos, hcollected⟩ := h.sound.at hcall hn
      obtain rfl : n = next + 1 := Option.some.inj (hn.symm.trans (h.last _ hthrew))
      rintro ⟨_, k⟩ hlive rfl
      obtain ⟨hk, hk'⟩ := (hcovers k).mp (.inl hlive)
      rcases Nat.lt_succ_iff_lt_or_eq.mp hk' with hk' | rfl
      · obtain ⟨v, hv, -⟩ := hcollected.rest k hk hk'
        exact TaskPool.not_live_of_result h.sound.pool hv hlive
      · exact TaskPool.not_live_of_result h.sound.pool hthrew hlive
  | returned => exact h.goto hsound rfl rfl nofun
  | @take pool hpool =>
      refine ⟨hsound, fun i hi task hlive => h.threw i hi task ((TaskPool.mem_live_take hpool).mp hlive), fun task hthrew => ?_⟩
      refine h.last task ?_
      rw [← (TaskPool.take_perm hpool).2]
      exact hthrew
  | @finish task outcome pool hpool =>
      refine ⟨hsound, fun i hi u hlive => h.threw i hi u (TaskPool.mem_live_of_finish hpool hlive), fun u hthrew => ?_⟩
      by_cases heq : u = task
      · subst heq
        obtain rfl : outcome = .threw := Option.some.inj ((TaskPool.result_of_finish hpool).symm.trans hthrew)
        exact htame
      · refine h.last u ?_
        change pool.result u = _ at hthrew
        rwa [(TaskPool.finish_perm hpool).2, Function.update_of_ne heq] at hthrew

end Conversions

variable [DecidableEq ι]

/-- In every run whose exceptions are tame, calls that have ended are contained. -/
theorem contained_of_tame {ls : List (ConversionLabel ι)}
    (hrun : Run (Restrict (ConversionStep args hardwareThreads) (Tame args hardwareThreads)) Conversions.initial ls s) :
    Contained args hardwareThreads s := by
  have hquiet : s.Quiet args hardwareThreads := by
    refine hrun.invariant ⟨Conversions.sound_initial, ?_, ?_⟩ fun h hst => h.step (Conversions.step_move hst.1) hst.2
    · intro i hi
      cases hi
    · intro task hthrew
      cases hthrew
  exact hquiet.contained

/-- A frame of 1280 by 720 pixels. -/
def smallConversion : ConversionArgs where
  highway := true
  format := .bgr24
  layout := ⟨0, 1280, 921600, 640, 1152000, 640, 0, 3840⟩
  width := 1280
  height := 720
  threads := 0

/-- The submitted stripe throws, behind the caller's own; so does the call, with nothing left. -/
theorem contained_small : ∃ ls s,
    Run (Restrict (ConversionStep (fun _ : Unit => smallConversion) 2) (Tame (fun _ => smallConversion) 2)) .initial ls s ∧
      s.call () = .threw ∧ Contained (fun _ => smallConversion) 2 s := by
  have hexec : (exec (fun s l => if Tame (fun _ => smallConversion) 2 s l then s.step (fun _ => smallConversion) 2 l else none)
      (.initial : Conversions Unit) [.start () true, .submit () .accepted, .take, .convert () (.returned 0), .finish ⟨(), 1⟩ .threw,
        .collect ()]).map (fun s => s.call ()) = some .threw := by decide +kernel
  obtain ⟨s, hs, hcall⟩ := Option.map_eq_some_iff.mp hexec
  have hrun := Run.restrict_of_exec hs
  exact ⟨_, s, hrun, hcall, contained_of_tame hrun⟩

/-- The caller's own stripe throws while a worker converts the other, and the call leaves it behind. -/
theorem stripe_outlives : ∃ ls s, Run (ConversionStep (fun _ : Unit => smallConversion) 2) .initial ls s ∧
    ¬ Contained (fun _ => smallConversion) 2 s := by
  have hexec : (exec (fun s l => s.step (fun _ => smallConversion) 2 l) (.initial : Conversions Unit)
      [.start () true, .submit () .accepted, .take, .convert () .threw]).map (fun s => (s.call (), s.pool.live)) =
        some (.threw, [⟨(), 1⟩]) := by decide +kernel
  obtain ⟨s, hs, hleft⟩ := Option.map_eq_some_iff.mp hexec
  obtain ⟨hcall, hlive⟩ := Prod.mk.inj hleft
  refine ⟨_, s, Run.of_exec hs, fun h => h.finished () ?_ ⟨(), 1⟩ ?_ rfl⟩
  · rw [hcall]
    trivial
  · rw [hlive]
    exact List.mem_cons_self

end MkvCodec
