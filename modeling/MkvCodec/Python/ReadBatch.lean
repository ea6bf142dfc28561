import Mathlib.Data.List.Basic

/-!
# Batches of frames

`VideoCapture.read_batch` of `api/capture.py` over the reads of single frames. What those give and what the clock shows is
decided outside.
-/

namespace MkvCodec.Python

/-- What a read of a single frame gives. -/
inductive ReadOutcome (α E : Type*)
  | frame (f : α)
  | endOfStream
  | raises (e : E)

inductive BatchError (E : Type*)
  | valueError (message : String)
  | reader (e : E)

/-- The arguments of a call; a number is `none` when it is not an `int`. -/
structure BatchCall where
  maxSize : Option Int
  timeoutMs : Option Int
  format : String

/-- The outcomes of the reads and the values of `time.monotonic()` in their order, and milliseconds in units of the clock. -/
structure Capture (α E τ : Type*) where
  outcome : Nat → ReadOutcome α E
  clock : Nat → τ
  budget : Nat → τ

/-- How many reads and how many looks at the clock there have been. -/
structure Position where
  reads : Nat
  ticks : Nat

def batchFormats : List String := ["bgr", "rgb", "bgra", "i420", "nv12", "surface"]

/-- The checks of the arguments. -/
def BatchCall.check (c : BatchCall) : Except String (Nat × Nat) :=
  match c.maxSize, c.timeoutMs with
  | none, _ => .error "max_size must be a positive integer"
  | some n, timeoutMs =>
      if n ≤ 0 then .error "max_size must be a positive integer"
      else
        match timeoutMs with
        | none => .error "timeout_ms must be a non-negative integer"
        | some t =>
            if t < 0 then .error "timeout_ms must be a non-negative integer"
            else if c.format ∉ batchFormats then .error "unsupported batch format"
            else .ok (n.toNat, t.toNat)

namespace Capture

variable {α E τ : Type*} [Add τ] [LE τ] [DecidableLE τ] (K : Capture α E τ)

/-- The deadline is over at a look at the clock. -/
def late (deadline : Option τ) (tick : Nat) : Bool := deadline.any fun d => decide (d ≤ K.clock tick)

/-- The clock is looked at when there are frames and a deadline. -/
def look (frames : List α) (deadline : Option τ) (p : Position) : Position :=
  if !frames.isEmpty && deadline.isSome then { p with ticks := p.ticks + 1 } else p

/-- The loop of `read_batch`; `remaining` is `max_size - len(frames)`. -/
def assemble (deadline : Option τ) : Nat → List α → Position → Except (BatchError E) (List α) × Position
  | 0, frames, p => (.ok frames, p)
  | remaining + 1, frames, p =>
      let q := look frames deadline p
      if !frames.isEmpty && K.late deadline p.ticks then (.ok frames, q)
      else
        match K.outcome q.reads with
        | .frame f => assemble deadline remaining (frames ++ [f]) { q with reads := q.reads + 1 }
        | .endOfStream => (.ok frames, { q with reads := q.reads + 1 })
        | .raises e => (.error (.reader e), { q with reads := q.reads + 1 })

/-- The deadline of a call, and the position behind it. -/
def start (p : Position) (timeoutMs : Nat) : Option τ × Position :=
  if 0 < timeoutMs then (some (K.clock p.ticks + K.budget timeoutMs), { p with ticks := p.ticks + 1 }) else (none, p)

/-- `VideoCapture.read_batch`. -/
def readBatch (p : Position) (c : BatchCall) : Except (BatchError E) (List α) × Position :=
  match c.check with
  | .error message => (.error (.valueError message), p)
  | .ok (maxSize, timeoutMs) => K.assemble (K.start p timeoutMs).1 maxSize [] (K.start p timeoutMs).2

/-- A call that has ended. -/
structure Record (α E : Type*) where
  call : BatchCall
  before : Position
  result : Except (BatchError E) (List α)
  after : Position

/-- Calls one behind the other. -/
def readBatches : Position → List BatchCall → List (Record α E) × Position
  | p, [] => ([], p)
  | p, c :: calls =>
      let (result, q) := K.readBatch p c
      (⟨c, p, result, q⟩ :: (readBatches q calls).1, (readBatches q calls).2)

/-! ## What is delivered -/

def frameOf : ReadOutcome α E → Option α
  | .frame f => some f
  | _ => none

/-- The frames that the first reads have given. -/
def delivered (reads : Nat) : List α := (List.range reads).filterMap fun i => frameOf (K.outcome i)

def batch : Except (BatchError E) (List α) → List α
  | .ok frames => frames
  | .error _ => []

omit [Add τ] [LE τ] [DecidableLE τ] in
theorem delivered_succ (reads : Nat) :
    K.delivered (reads + 1) = K.delivered reads ++ (frameOf (K.outcome reads)).toList := by
  rw [delivered, List.range_succ, List.filterMap_append]
  cases h : frameOf (K.outcome reads) <;> simp [h, delivered]

omit [Add τ] [LE τ] [DecidableLE τ] in
theorem look_reads (frames : List α) (deadline : Option τ) (p : Position) : (look frames deadline p).reads = p.reads := by
  unfold look
  split <;> rfl

omit [Add τ] in
/-- What the loop has collected behind `frames`: the frames of its reads. They are returned, or a read has raised. -/
theorem assemble_collects (deadline : Option τ) (remaining : Nat) (frames : List α) (p : Position) :
    ∃ new, K.delivered (K.assemble deadline remaining frames p).2.reads = K.delivered p.reads ++ new ∧
      new.length ≤ remaining ∧
      ((K.assemble deadline remaining frames p).1 = .ok (frames ++ new) ∨
        ∃ e, (K.assemble deadline remaining frames p).1 = .error (.reader e)) := by
  induction remaining generalizing frames p with
  | zero => exact ⟨[], (List.append_nil _).symm, Nat.le_refl _, .inl (by rw [assemble, List.append_nil])⟩
  | succ remaining ih =>
      simp only [assemble]
      split
      · exact ⟨[], by rw [look_reads, List.append_nil], Nat.zero_le _, .inl (by rw [List.append_nil])⟩
      rw [look_reads]
      have hnext := K.delivered_succ p.reads
      cases houtcome : K.outcome p.reads with
      | frame f =>
          rw [houtcome] at hnext
          obtain ⟨new, hnew, hlength, hresult⟩ :=
            ih (frames ++ [f]) { look frames deadline p with reads := p.reads + 1 }
          refine ⟨f :: new, ?_, Nat.succ_le_succ hlength, ?_⟩
          · rw [hnew, hnext, List.append_assoc]
            rfl
          · rw [List.append_assoc] at hresult
            exact hresult
      | endOfStream =>
          rw [houtcome] at hnext
          exact ⟨[], hnext, Nat.zero_le _, .inl (by rw [List.append_nil])⟩
      | raises e =>
          rw [houtcome] at hnext
          exact ⟨[], hnext, Nat.zero_le _, .inr ⟨e, rfl⟩⟩

/-! ## Reads that raise behind a frame -/

/-- From read `r` on, `k` reads give frames and the next one raises. -/
def RaisesBehind (r k : Nat) : Prop :=
  (∀ j < k, (frameOf (K.outcome (r + j))).isSome) ∧ ∃ e, K.outcome (r + k) = .raises e

/-- A read raises behind a frame of the same call, and neither the size nor the deadline of the call stops it before. -/
def Interrupted (p : Position) (c : BatchCall) : Prop :=
  ∃ maxSize timeoutMs, c.check = .ok (maxSize, timeoutMs) ∧ ∃ k, 0 < k ∧ k < maxSize ∧ K.RaisesBehind p.reads k ∧
    ∀ j < k, K.late (K.start p timeoutMs).1 ((K.start p timeoutMs).2.ticks + j) = false

omit [Add τ] [LE τ] [DecidableLE τ] in
theorem raisesBehind_succ {r k : Nat} {f : α} (h : K.outcome r = .frame f) :
    K.RaisesBehind r (k + 1) ↔ K.RaisesBehind (r + 1) k := by
  have hshift : ∀ j, r + 1 + j = r + (j + 1) := fun j => by omega
  unfold RaisesBehind
  simp only [hshift]
  refine and_congr_left' ⟨fun hall j hj => hall (j + 1) (by omega), fun hall j hj => ?_⟩
  cases j with
  | zero => simp [h, frameOf]
  | succ j => exact hall j (by omega)

omit [Add τ] [LE τ] [DecidableLE τ] in
theorem raisesBehind_of_ne {r k : Nat} (h : frameOf (K.outcome r) = none) (hraises : K.RaisesBehind r k) : k = 0 := by
  rcases Nat.eq_zero_or_pos k with hk | hk
  · exact hk
  · have := hraises.1 0 hk
    rw [Nat.add_zero, h] at this
    cases this

omit [Add τ] in
/-- The loop raises behind frames of its own when a read does, before the size or the deadline stops it. -/
theorem assemble_raises (deadline : Option τ) (remaining : Nat) (frames : List α) (p : Position) (hframes : frames ≠ []) :
    (∃ e, (K.assemble deadline remaining frames p).1 = .error e) ↔
      ∃ k < remaining, K.RaisesBehind p.reads k ∧ ∀ j ≤ k, K.late deadline (p.ticks + j) = false := by
  induction remaining generalizing frames p with
  | zero => simp [assemble]
  | succ remaining ih =>
      have hempty : frames.isEmpty = false := List.isEmpty_eq_false_iff.mpr hframes
      simp only [assemble, hempty, Bool.not_false, Bool.true_and]
      cases hlate : K.late deadline p.ticks with
      | true =>
          simp only [if_true, reduceCtorEq, exists_false, false_iff]
          rintro ⟨k, -, -, hk⟩
          have := hk 0 (Nat.zero_le k)
          rw [Nat.add_zero, hlate] at this
          cases this
      | false =>
          have hticks : ∀ j, K.late deadline ((look frames deadline p).ticks + j) = K.late deadline (p.ticks + (j + 1)) := by
            intro j
            cases deadline with
            | none => rfl
            | some d =>
                simp only [look, hempty, Option.isSome_some, Bool.not_false, Bool.and_self, if_true]
                rw [Nat.add_assoc, Nat.add_comm 1 j]
          simp only [Bool.false_eq_true, if_false, look_reads]
          cases houtcome : K.outcome p.reads with
          | frame f =>
              rw [ih _ _ (by simp)]
              constructor
              · rintro ⟨k, hk, hraises, hall⟩
                refine ⟨k + 1, by omega, (K.raisesBehind_succ houtcome).mpr hraises, fun j hj => ?_⟩
                cases j with
                | zero => exact hlate
                | succ j => exact (hticks j).symm.trans (hall j (by omega))
              · rintro ⟨k, hk, hraises, hall⟩
                cases k with
                | zero =>
                    obtain ⟨e, he⟩ := hraises.2
                    cases houtcome.symm.trans he
                | succ k =>
                    exact ⟨k, by omega, (K.raisesBehind_succ houtcome).mp hraises,
                      fun j hj => (hticks j).trans (hall (j + 1) (by omega))⟩
          | endOfStream =>
              simp only [reduceCtorEq, exists_false, false_iff]
              rintro ⟨k, -, hraises, -⟩
              obtain rfl := K.raisesBehind_of_ne (by rw [houtcome]; rfl) hraises
              obtain ⟨e, he⟩ := hraises.2
              cases houtcome.symm.trans he
          | raises e =>
              refine iff_of_true ⟨_, rfl⟩ ⟨0, Nat.zero_lt_succ _, ⟨nofun, e, houtcome⟩, fun j hj => ?_⟩
              obtain rfl := Nat.le_zero.mp hj
              exact hlate

omit [LE τ] [DecidableLE τ] in
theorem start_reads (p : Position) (timeoutMs : Nat) : (K.start p timeoutMs).2.reads = p.reads := by
  unfold start
  split <;> rfl

/-- A call raises behind a frame of its own exactly when it is interrupted. -/
theorem readBatch_raises (p : Position) (c : BatchCall) :
    ((∃ e, (K.readBatch p c).1 = .error e) ∧ K.delivered (K.readBatch p c).2.reads ≠ K.delivered p.reads) ↔
      K.Interrupted p c := by
  unfold readBatch Interrupted
  cases hcheck : c.check with
  | error message => simp
  | ok arguments =>
    obtain ⟨maxSize, timeoutMs⟩ := arguments
    simp only [Except.ok.injEq, Prod.mk.injEq]
    have hreads := K.start_reads p timeoutMs
    have hnone : frameOf (K.outcome p.reads) = none →
        ¬ ∃ m t, (maxSize = m ∧ timeoutMs = t) ∧ ∃ k, 0 < k ∧ k < m ∧ K.RaisesBehind p.reads k ∧
          ∀ j < k, K.late (K.start p t).1 ((K.start p t).2.ticks + j) = false := by
      rintro h ⟨m, t, -, k, hk, -, hraises, -⟩
      obtain rfl := K.raisesBehind_of_ne h hraises
      exact Nat.lt_irrefl 0 hk
    have hnext := K.delivered_succ p.reads
    cases maxSize with
    | zero =>
        refine iff_of_false ?_ ?_
        · rintro ⟨⟨e, he⟩, -⟩
          cases he
        · rintro ⟨m, t, ⟨rfl, -⟩, k, -, hk, -⟩
          exact Nat.not_lt_zero k hk
    | succ n =>
        simp only [assemble, List.isEmpty_nil, Bool.not_true, Bool.false_and, Bool.false_eq_true, if_false, look_reads,
          hreads]
        cases houtcome : K.outcome p.reads with
        | frame f =>
            rw [houtcome] at hnext
            generalize hq : ({ look [] (K.start p timeoutMs).1 (K.start p timeoutMs).2 with reads := p.reads + 1 } :
              Position) = q
            have hqreads : q.reads = p.reads + 1 := by rw [← hq]
            have hqticks : q.ticks = (K.start p timeoutMs).2.ticks := by rw [← hq]; rfl
            obtain ⟨new, hnew, -, -⟩ := K.assemble_collects (K.start p timeoutMs).1 n ([] ++ [f]) q
            have hcollects : K.delivered (K.assemble (K.start p timeoutMs).1 n ([] ++ [f]) q).2.reads ≠
                K.delivered p.reads := by
              rw [hnew, hqreads, hnext, List.append_assoc]
              intro h
              have := congrArg List.length h
              simp [frameOf] at this
            dsimp only
            rw [and_iff_left hcollects, K.assemble_raises _ _ _ _ (by simp), hqreads, hqticks]
            constructor
            · rintro ⟨k, hk, hraises, hall⟩
              exact ⟨_, _, ⟨rfl, rfl⟩, k + 1, Nat.succ_pos k, Nat.succ_lt_succ hk,
                (K.raisesBehind_succ houtcome).mpr hraises, fun j hj => hall j (Nat.lt_succ_iff.mp hj)⟩
            · rintro ⟨m, t, ⟨rfl, rfl⟩, k, hpos, hk, hraises, hall⟩
              cases k with
              | zero => exact absurd hpos (Nat.lt_irrefl 0)
              | succ k =>
                  exact ⟨k, Nat.lt_of_succ_lt_succ hk, (K.raisesBehind_succ houtcome).mp hraises,
                    fun j hj => hall j (Nat.lt_succ_of_le hj)⟩
        | endOfStream =>
            refine iff_of_false ?_ (hnone (by rw [houtcome]; rfl))
            rintro ⟨⟨e, he⟩, -⟩
            cases he
        | raises e =>
            rw [houtcome] at hnext
            exact iff_of_false (fun h => h.2 (hnext.trans (List.append_nil _))) (hnone (by rw [houtcome]; rfl))

/-! ## Runs of calls -/

/-- The batches are the frames that were delivered, in order and none beyond its size, and a call that raises has got
none. -/
structure LosesNone (records : List (Record α E)) (p : Position) : Prop where
  returned : (records.map fun r => batch r.result).flatten = K.delivered p.reads
  size : ∀ r ∈ records, ∀ frames, r.result = .ok frames → ∃ n, r.call.maxSize = some n ∧ (frames.length : Int) ≤ n
  raised : ∀ r ∈ records, (∃ e, r.result = .error e) → K.delivered r.after.reads = K.delivered r.before.reads

theorem check_ok {c : BatchCall} {maxSize timeoutMs : Nat} (h : c.check = .ok (maxSize, timeoutMs)) :
    c.maxSize = some (maxSize : Int) := by
  unfold BatchCall.check at h
  split at h
  · cases h
  · rename_i n hn
    split at h
    · cases h
    · rename_i hpos
      rw [hn, Option.some.injEq]
      split at h
      · cases h
      split at h
      · cases h
      split at h
      · cases h
      cases h
      omega

/-- What one call returns and delivers. -/
theorem readBatch_collects (p : Position) (c : BatchCall) :
    ∃ new, K.delivered (K.readBatch p c).2.reads = K.delivered p.reads ++ new ∧
      (((K.readBatch p c).1 = .ok new ∧ ∃ n, c.maxSize = some n ∧ (new.length : Int) ≤ n) ∨
        ∃ e, (K.readBatch p c).1 = .error e) := by
  unfold readBatch
  cases hcheck : c.check with
  | error message => exact ⟨[], (List.append_nil _).symm, .inr ⟨_, rfl⟩⟩
  | ok arguments =>
      obtain ⟨maxSize, timeoutMs⟩ := arguments
      obtain ⟨new, hnew, hlength, hresult⟩ :=
        K.assemble_collects (K.start p timeoutMs).1 maxSize [] (K.start p timeoutMs).2
      rw [start_reads] at hnew
      refine ⟨new, hnew, ?_⟩
      rcases hresult with hresult | ⟨e, hresult⟩
      · exact .inl ⟨hresult, maxSize, check_ok hcheck, by exact_mod_cast hlength⟩
      · exact .inr ⟨_, hresult⟩

/-- A call that is not interrupted returns what it delivers. -/
theorem readBatch_returns {p : Position} {c : BatchCall} (h : ¬ K.Interrupted p c) :
    K.delivered (K.readBatch p c).2.reads = K.delivered p.reads ++ batch (K.readBatch p c).1 := by
  obtain ⟨new, hnew, ⟨hresult, -⟩ | ⟨e, hresult⟩⟩ := K.readBatch_collects p c
  · rw [hnew, hresult]
    rfl
  · have hsame : K.delivered (K.readBatch p c).2.reads = K.delivered p.reads := by
      by_contra hne
      exact h ((K.readBatch_raises p c).mp ⟨⟨e, hresult⟩, hne⟩)
    rw [hsame, hresult]
    exact (List.append_nil _).symm

/-- A record is one of a call. -/
theorem mem_readBatches {p : Position} {calls : List BatchCall} {r : Record α E} (h : r ∈ (K.readBatches p calls).1) :
    K.readBatch r.before r.call = (r.result, r.after) := by
  induction calls generalizing p with
  | nil => cases h
  | cons c calls ih =>
      rcases List.mem_cons.mp h with rfl | h
      · rfl
      · exact ih h

theorem readBatches_returns {p : Position} {calls : List BatchCall}
    (h : ∀ r ∈ (K.readBatches p calls).1, ¬ K.Interrupted r.before r.call) :
    K.delivered (K.readBatches p calls).2.reads =
      K.delivered p.reads ++ ((K.readBatches p calls).1.map fun r => batch r.result).flatten := by
  induction calls generalizing p with
  | nil => exact (List.append_nil _).symm
  | cons c calls ih =>
      have hfirst : ¬ K.Interrupted p c :=
        h ⟨c, p, (K.readBatch p c).1, (K.readBatch p c).2⟩ List.mem_cons_self
      have hrest := ih (p := (K.readBatch p c).2) fun r hr => h r (List.mem_cons_of_mem _ hr)
      simp only [readBatches, List.map_cons, List.flatten_cons]
      rw [hrest, K.readBatch_returns hfirst, List.append_assoc]

/-- Calls with any arguments, over any outcomes and any clock, lose no frame exactly when none of them is interrupted. -/
theorem read_batch_loses_none_iff (calls : List BatchCall) :
    K.LosesNone (K.readBatches ⟨0, 0⟩ calls).1 (K.readBatches ⟨0, 0⟩ calls).2 ↔
      ∀ r ∈ (K.readBatches ⟨0, 0⟩ calls).1, ¬ K.Interrupted r.before r.call := by
  constructor
  · intro h r hr hinterrupted
    obtain ⟨⟨e, he⟩, hne⟩ := (K.readBatch_raises r.before r.call).mpr hinterrupted
    rw [K.mem_readBatches hr] at he hne
    exact hne (h.raised r hr ⟨e, he⟩)
  · intro h
    refine ⟨(K.readBatches_returns h).symm, fun r hr frames hframes => ?_, fun r hr hraised => ?_⟩
    · obtain ⟨new, -, ⟨hresult, hsize⟩ | ⟨e, hresult⟩⟩ := K.readBatch_collects r.before r.call
      · rw [K.mem_readBatches hr] at hresult
        cases hresult.symm.trans hframes
        exact hsize
      · rw [K.mem_readBatches hr] at hresult
        cases hresult.symm.trans hframes
    · by_contra hne
      refine h r hr ((K.readBatch_raises r.before r.call).mp ?_)
      rw [K.mem_readBatches hr]
      exact ⟨hraised, hne⟩

/-- A frame, then a pool without a free surface, then the next frame. -/
def wouldBlock : Capture Nat Unit Nat :=
  ⟨fun i => match i with
    | 0 => .frame 1
    | 1 => .raises ()
    | 2 => .frame 2
    | _ => .endOfStream, fun _ => 0, fun t => t⟩

/-- Two calls for two surfaces. -/
def twoSurfaces : List BatchCall := [⟨some 2, some 0, "surface"⟩, ⟨some 2, some 0, "surface"⟩]

/-- They return the second frame only. -/
theorem collected_frame_lost :
    ((wouldBlock.readBatches ⟨0, 0⟩ twoSurfaces).1.map fun r => batch r.result) = [[], [2]] ∧
      wouldBlock.delivered (wouldBlock.readBatches ⟨0, 0⟩ twoSurfaces).2.reads = [1, 2] ∧
      ¬ wouldBlock.LosesNone (wouldBlock.readBatches ⟨0, 0⟩ twoSurfaces).1
        (wouldBlock.readBatches ⟨0, 0⟩ twoSurfaces).2 :=
  ⟨by decide, by decide, fun h => absurd h.returned (by decide)⟩

end Capture

end MkvCodec.Python
