import MkvCodec.Encoder.Barrier
import MkvCodec.Encoder.Lemmas.Serve
import MkvCodec.Encoder.Slots

/-!
# Asynchronous sessions refine synchronous ones

A session of any capacity that runs a script asks the backend for what the script asks for, in its order, and
answers as the script does. A session with a queue therefore makes the same requests as one without.
-/

namespace MkvCodec.Encoder

open Concurrency

variable {cfg : Config} {ops : List Op}

/-- The script has been closed: its last call, the close, has reached a phase that satisfies `p`. -/
def Closed (ops : List Op) (n : Nat) (p : Prop) : Prop := ops.length < n ∨ ops.length = n ∧ p

/-- Where the client stands in its script. -/
def Client.Serving (cfg : Config) (ops : List Op) (k : Client) (phase : Phase) : Prop :=
  match k.current with
  | none => k.pc = .idle ∧ phase = .asking
  | some c => (script ops)[k.history.length]? = some c ∧ Serves cfg c k.pc phase

/-- What the calls that have returned have asked for, and the current call so far. -/
def Client.told (cfg : Config) (ops : List Op) (k : Client) (phase : Phase) : List Event :=
  ((script ops).take k.history.length).flatMap (Call.asks cfg) ++
    match k.current with
    | none => []
    | some c => phase.given (c.asks cfg)

/-- The invariant of a scripted session. -/
structure Told (cfg : Config) (ops : List Op) (a : Impl) (w : WorkerPc) (k : Client) (phase : Phase) :
    Prop where
  healthy : Healthy a
  fine : w.fine = true
  serving : k.Serving cfg ops phase
  asked : a.asked w = k.told cfg ops phase
  replies : (k.history.map fun p => (p.1, p.2.reported)) =
    ((script ops).take k.history.length).map fun c => (c, c.answer cfg)
  requested : a.closeRequested = true ↔ cfg.capacity ≠ 0 ∧ Closed ops k.history.length (phase ≠ .asking)
  joined : cfg.capacity ≠ 0 → Closed ops k.history.length (phase = .answered) → a.workerExited = true

/-! ## One action of the client -/

theorem take_script {n : Nat} {c : Call} (h : (script ops)[n]? = some c) :
    (script ops).take (n + 1) = (script ops).take n ++ [c] := by
  rw [List.take_add_one, h]
  rfl

/-- The request of the session to close is made by the close of the script and by nothing before it. -/
theorem Told.open_of_asking {a : Impl} {w : WorkerPc} {k : Client} {phase : Phase} {c : Call}
    (h : Told cfg ops a w k phase) (hc : (script ops)[k.history.length]? = some c) (hphase : phase = .asking) :
    a.closeRequested = false := by
  by_contra hreq
  obtain ⟨-, hclosed⟩ := h.requested.mp (by simpa using hreq)
  have hlt := script_lt hc
  rw [script_length] at hlt
  rcases hclosed with hlt' | ⟨-, hne⟩
  · omega
  · exact hne hphase

/-- The rest of the invariant follows the section that the client runs. -/
theorem Told.advance {a : Impl} {w : WorkerPc} {k : Client} {phase phase' : Phase} {c : Call} {o : Section}
    (h : Told cfg ops a w k phase) (hcur : k.current = some c)
    (hc : (script ops)[k.history.length]? = some c) (ho : Advance cfg w a c k.pc phase o phase') :
    Told cfg ops o.shared w { k with pc := o.loc } phase' := by
  refine ⟨ho.healthy, h.fine, ?_, ?_, h.replies, ?_, ?_⟩
  · simp only [Client.Serving, hcur]
    exact ⟨hc, ho.serves⟩
  · have hasked := h.asked
    simp only [Client.told, hcur] at hasked ⊢
    exact ho.asked _ hasked
  · rw [ho.requested, h.requested]
    simp only [Closed]
    rcases script_get hc with ⟨hlt, hcall⟩ | ⟨heq, rfl⟩
    · have hne : c ≠ .close := by
        rcases hcall with rfl | ⟨frame, rfl⟩ <;> simp
      constructor
      · rintro (⟨hcap, hcl⟩ | ⟨hcl, -⟩)
        · rcases hcl with hcl | ⟨hcl, -⟩ <;> omega
        · exact absurd hcl hne
      · rintro ⟨-, hcl⟩
        rcases hcl with hcl | ⟨hcl, -⟩ <;> omega
    · constructor
      · rintro (⟨hcap, hcl⟩ | ⟨-, hcap, -, hne⟩)
        · rcases hcl with hcl | ⟨-, hne⟩
          · omega
          · exact ⟨hcap, .inr ⟨heq.symm, ho.later hne⟩⟩
        · exact ⟨hcap, .inr ⟨heq.symm, hne⟩⟩
      · rintro ⟨hcap, hcl⟩
        have hne : phase' ≠ .asking := by
          rcases hcl with hcl | ⟨-, hne⟩
          · omega
          · exact hne
        by_cases hask : phase = .asking
        · exact .inr ⟨rfl, hcap, hask, hne⟩
        · exact .inl ⟨hcap, .inr ⟨heq.symm, hask⟩⟩
  · intro hcap hcl
    rw [ho.exited]
    rcases script_get hc with ⟨hlt, -⟩ | ⟨heq, rfl⟩
    · rcases hcl with hcl | ⟨hcl, -⟩ <;> simp only at hcl <;> omega
    · rcases hcl with hcl | ⟨-, hans⟩
      · simp only at hcl; omega
      · exact ho.joined rfl hcap hans

/-- A new call has asked for nothing yet. -/
theorem Told.start {a : Impl} {w : WorkerPc} {k : Client} {phase : Phase} {c : Call}
    (h : Told cfg ops a w k phase) (hpc : k.pc = .idle) (hc : (script ops)[k.history.length]? = some c) :
    k.current = none ∧ Told cfg ops a w { k with pc := c.entry, current := some c } .asking := by
  have hserving := h.serving
  have hcur : k.current = none := by
    cases hk : k.current with
    | none => rfl
    | some d =>
        simp only [Client.Serving, hk, hpc] at hserving
        cases hserving.2
  simp only [Client.Serving, hcur] at hserving
  obtain ⟨-, rfl⟩ := hserving
  refine ⟨hcur, h.healthy, h.fine, ?_, ?_, h.replies, h.requested, ?_⟩
  · refine ⟨hc, ?_⟩
    rcases script_get hc with ⟨-, rfl | ⟨frame, rfl⟩⟩ | ⟨-, rfl⟩
    · exact .flush
    · exact .write
    · exact .close
  · have hasked := h.asked
    simp only [Client.told, hcur, Phase.given] at hasked ⊢
    exact hasked
  · intro hcap hcl
    exact h.joined hcap hcl

/-- A call that returns has been answered. -/
theorem Told.finish {a : Impl} {w : WorkerPc} {k : Client} {phase : Phase} {c : Call} {status : Status}
    (h : Told cfg ops a w k phase) (hpc : k.pc = .returning status) (hcur : k.current = some c) :
    k.history.length < (script ops).length ∧
      Told cfg ops a w { pc := .idle, current := none, history := k.history ++ [(c, status)] } .asking := by
  have hserving := h.serving
  simp only [Client.Serving, hcur, hpc] at hserving
  obtain ⟨hc, hs⟩ := hserving
  have hlt := script_lt hc
  refine ⟨hlt, h.healthy, h.fine, ⟨rfl, rfl⟩, ?_, ?_, ?_, ?_⟩
  · have hasked := h.asked
    cases hs
    simp only [Client.told, hcur, Phase.given] at hasked
    simp only [Client.told, List.length_append, List.length_singleton, take_script hc, List.flatMap_append,
      List.flatMap_singleton, List.append_nil]
    exact hasked
  · cases hs with
    | returning hrep =>
        simp only [List.map_append, List.length_append, List.length_singleton, take_script hc, h.replies,
          List.map_cons, List.map_nil, hrep]
  · rw [h.requested]
    cases hs
    simp only [Closed, List.length_append, List.length_singleton]
    constructor
    · rintro ⟨hcap, hcl⟩
      exact ⟨hcap, .inl (by omega)⟩
    · rintro ⟨hcap, hcl | ⟨-, hne⟩⟩
      · by_cases heq : ops.length = k.history.length
        · exact ⟨hcap, .inr ⟨heq, by simp⟩⟩
        · exact ⟨hcap, .inl (by omega)⟩
      · exact absurd rfl hne
  · intro hcap hcl
    cases hs
    refine h.joined hcap ?_
    simp only [Closed, List.length_append, List.length_singleton] at hcl
    rcases hcl with hcl | ⟨-, hne⟩
    · by_cases heq : ops.length = k.history.length
      · exact .inr ⟨heq, rfl⟩
      · exact .inl (by omega)
    · cases hne

/-! ## Runs -/

theorem Effect.workerExited_eq {a : Impl} {pc : ClientPc} {e : Choice} {o : Section}
    (h : Effect cfg a pc e o) : o.shared.workerExited = a.workerExited := by
  cases h <;> rfl

theorem WorkerEffect.workerExited_iff {a : Impl} {w : WorkerPc} {e : Choice} {o : WorkerSection}
    (h : WorkerEffect a w e o) (hw : a.workerExited = true ↔ w = .exited) :
    o.shared.workerExited = true ↔ o.loc = .exited := by
  cases h with
  | asleep | stop | pop | served | threw | closed | closeThrew => simpa [Impl.called] using hw
  | failure => simpa [recordFailure, Impl.recycle] using hw
  | @success item status hok => cases item <;> simpa [recordSuccess, Impl.recycle] using hw
  | finish | finishFailed | handler => exact iff_of_true rfl rfl

theorem session_exited {ι : Type*} [DecidableEq ι] {ls : List (SessionLabel ι)} {s : SessionState ι}
    (h : SessionRun cfg ls s) : s.shared.workerExited = true ↔ s.worker = .exited := by
  refine session_invariant (I := fun a w => a.workerExited = true ↔ w = .exited) h ?_ ?_ ?_
  · split <;> simp [Impl.init]
  · intro _ _ _ _ _ hw he
    exact he.workerExited_iff hw
  · intro _ _ _ _ _ _ hw he
    rw [he.workerExited_eq]
    exact hw

/-- The sections that are due, twice, and the threads that are awake. -/
def SessionState.effort (ops : List Op) (s : SessionState Unit) : Nat :=
  20 * ((script ops).length - (s.client ()).history.length) +
    Encoder.effort s.shared (s.client ()).pc (s.sleep ()).isNone +
    2 * s.worker.weight + s.workerSleep.isNone.toNat

theorem stillAsleep_awake (ns : List Cond) (o : Option Cond) :
    (stillAsleep ns o).isNone.toNat ≤ o.isNone.toNat + (!ns.isEmpty).toNat := by
  cases ns with
  | nil => rw [stillAsleep_nil]; exact Nat.le_add_right _ _
  | cons c ns =>
      have := Bool.toNat_le (stillAsleep (c :: ns) o).isNone
      simp only [List.isEmpty_cons, Bool.not_false, Bool.toNat_true]
      omega

/-- What is left to do for a section, and for a spurious wake-up. -/
def Spends (ops : List Op) (s : SessionState Unit) (l : SessionLabel Unit) (t : SessionState Unit) : Prop :=
  if isSection l = true then t.effort ops < s.effort ops else t.effort ops ≤ s.effort ops + 1

theorem Told.closing {ls : List (SessionLabel Unit)} {s : SessionState Unit} {phase : Phase}
    (h : Told cfg ops s.shared s.worker (s.client ()) phase) (hrun : SessionRun cfg ls s)
    (hw : s.worker.closing = true) : s.shared.closeRequested = true ∧ s.shared.queue = [] := by
  obtain ⟨hacc, hq⟩ := (session_stops hrun).closing hw
  refine ⟨by simpa [h.healthy.accepting] using hacc, ?_⟩
  rcases hq with hq | hf
  · exact hq
  · rw [h.healthy.failed] at hf; cases hf

theorem WorkerPc.closing_of_closeCalled {w : WorkerPc} (h : w.closeCalled = true) : w.closing = true := by
  cases w with
  | recordClose | exited => rfl
  | _ => cases h

/-- A session without a queue has nothing on the way to the backend. -/
theorem Told.idle {ls : List (SessionLabel Unit)} {s : SessionState Unit} {phase : Phase}
    (h : Told cfg ops s.shared s.worker (s.client ()) phase) (hrun : SessionRun cfg ls s)
    (hcap : cfg.capacity = 0) : s.worker.taken ++ s.shared.queue = [] ∧ s.shared.closeRequested = false := by
  have hw := (session_notStarted hrun).mpr hcap
  have hlen := (queue_bound hrun).1
  rw [hcap] at hlen
  refine ⟨by simp [hw, WorkerPc.taken, List.length_eq_zero_iff.mp (Nat.le_zero.mp hlen)], ?_⟩
  cases hreq : s.shared.closeRequested with
  | false => rfl
  | true => exact absurd hcap (h.requested.mp hreq).1

theorem Told.worker_step {ls : List (SessionLabel Unit)} {s t : SessionState Unit} {phase : Phase} {e : Choice}
    (h : Told cfg ops s.shared s.worker (s.client ()) phase) (hrun : SessionRun cfg ls s)
    (hst : ScriptStep cfg ops s (.worker e) t) :
    Told cfg ops t.shared t.worker (t.client ()) phase ∧ t.effort ops < s.effort ops := by
  obtain ⟨hstep, hfollows⟩ := hst
  obtain ⟨hawake, o, ho, rfl⟩ := hstep.worker_inv
  have hok : ∀ ended, e = .backend ended → CallEnd.isOk ended = true := by
    rintro ended rfl
    exact hfollows
  have hadv := (workerAct_effect ho).advance h.healthy h.fine (h.closing hrun) hok
  refine ⟨⟨hadv.healthy, hadv.fine, h.serving, hadv.asked.trans h.asked, h.replies, ?_, ?_⟩, ?_⟩
  · simp only [hadv.requested]
    exact h.requested
  · intro hcap hcl
    exact hadv.exited (h.joined hcap hcl)
  · have heffort := hadv.effort
    have hsl := stillAsleep_awake o.notify (s.sleep ())
    simp only [workerEffort, Bool.toNat_true] at heffort
    simp only [SessionState.effort, Encoder.effort, hawake, Option.isNone_none, Bool.toNat_true]
    omega

theorem Told.client_step {ls : List (SessionLabel Unit)} {s t : SessionState Unit} {phase : Phase} {e : Choice}
    (h : Told cfg ops s.shared s.worker (s.client ()) phase) (hrun : SessionRun cfg ls s)
    (hst : ScriptStep cfg ops s (.client () e) t) :
    ∃ phase', Told cfg ops t.shared t.worker (t.client ()) phase' ∧ t.effort ops < s.effort ops := by
  obtain ⟨hstep, hfollows⟩ := hst
  obtain ⟨hawake, o, ho, rfl⟩ := hstep.client_inv
  simp only [Function.update_self]
  have hserving := h.serving
  have hbudget : ∀ {c : Call} {sec : Section} {phase' : Phase},
      Advance cfg s.worker s.shared c (s.client ()).pc phase sec phase' →
      o = ⟨sec.shared, { s.client () with pc := sec.loc }, sec.notify, sec.sleep⟩ →
      SessionState.effort ops
        { shared := o.shared, worker := s.worker, client := Function.update s.client () o.loc,
          workerSleep := stillAsleep o.notify s.workerSleep,
          sleep := Function.update (fun j => stillAsleep o.notify (s.sleep j)) () o.sleep } < s.effort ops := by
    rintro c sec phase' hadv rfl
    have heffort := hadv.effort
    have hsl := stillAsleep_awake sec.notify s.workerSleep
    simp only [SessionState.effort, Function.update_self, hawake, Option.isNone_none]
    omega
  cases clientAct_action ho with
  | @start c hpc =>
      obtain ⟨hcur, htold⟩ := h.start hpc hfollows
      refine ⟨_, htold, ?_⟩
      have hweight : c.entry.weight ≤ 9 := by cases c <;> simp [Call.entry]
      have hidle : (s.client ()).pc.weight = 10 := by rw [hpc]; rfl
      simp only [SessionState.effort, Encoder.effort, Function.update_self, hawake, stillAsleep_nil, hidle]
      omega
  | finish hpc hcur =>
      obtain ⟨hlt, htold⟩ := h.finish hpc hcur
      refine ⟨_, htold, ?_⟩
      simp only [SessionState.effort, Encoder.effort, Function.update_self, hawake, stillAsleep_nil, hpc,
        ClientPc.weight, List.length_append, List.length_singleton]
      omega
  | act hs =>
      rcases Option.eq_none_or_eq_some (s.client ()).current with hcur | ⟨c, hcur⟩
      · simp only [Client.Serving, hcur] at hserving
        rw [hserving.1] at hs
        cases hs
      · simp only [Client.Serving, hcur] at hserving
        obtain ⟨hc, hserves⟩ := hserving
        have hcall : s.shared.closeRequested = false → s.worker.closeCalled = false := by
          intro hopen
          by_contra hcc
          have hreq := (h.closing hrun (WorkerPc.closing_of_closeCalled (by simpa using hcc))).1
          rw [hopen] at hreq
          cases hreq
        obtain ⟨phase', hadv⟩ := hserves.section h.healthy (h.open_of_asking hc) hcall hs
        exact ⟨phase', h.advance hcur hc hadv, hbudget hadv rfl⟩
  | threw hpc hcur => exact hfollows.elim
  | backend hcur hs =>
      simp only [Client.Serving, hcur] at hserving
      obtain ⟨hc, hserves⟩ := hserving
      obtain ⟨phase', hadv⟩ := hserves.backend h.healthy hfollows (h.idle hrun) hs
      exact ⟨phase', h.advance hcur hc hadv, hbudget hadv rfl⟩

theorem Told.step {ls : List (SessionLabel Unit)} {s t : SessionState Unit} {l : SessionLabel Unit}
    {phase : Phase} (h : Told cfg ops s.shared s.worker (s.client ()) phase) (hrun : SessionRun cfg ls s)
    (hst : ScriptStep cfg ops s l t) :
    ∃ phase', Told cfg ops t.shared t.worker (t.client ()) phase' ∧ Spends ops s l t := by
  cases l with
  | worker e => exact ⟨phase, h.worker_step hrun hst⟩
  | client i e => exact h.client_step hrun hst
  | wakeWorker =>
      have ht := hst.1.wakeWorker_inv
      subst ht
      refine ⟨phase, h, ?_⟩
      simp only [Spends, isSection, SessionState.effort, Bool.false_eq_true, ↓reduceIte, Option.isNone_none,
        Bool.toNat_true]
      omega
  | wake i =>
      have ht := hst.1.wake_inv
      subst ht
      refine ⟨phase, h, ?_⟩
      simp only [Spends, isSection, SessionState.effort, Encoder.effort, Bool.false_eq_true, ↓reduceIte,
        Function.update_self, Option.isNone_none, Bool.toNat_true]
      omega

theorem script_told {ls : List (SessionLabel Unit)} {s : SessionState Unit} (h : ScriptRun cfg ops ls s) :
    ∃ phase, Told cfg ops s.shared s.worker (s.client ()) phase := by
  induction h with
  | nil =>
      refine ⟨.asking, ⟨rfl, rfl, rfl, rfl, rfl, rfl⟩, ?_, ⟨rfl, rfl⟩, ?_, rfl, ?_, ?_⟩
      · simp only [SessionState.init]
        split <;> rfl
      · simp only [SessionState.init]
        split <;> rfl
      · simp [SessionState.init, Impl.init, Client.init, Closed]
      · intro _ hcl
        simp [SessionState.init, Client.init, Closed] at hcl
  | snoc hrun hst ih =>
      obtain ⟨phase, hphase⟩ := ih
      obtain ⟨phase', hphase', -⟩ := hphase.step hrun.of_restrict hst
      exact ⟨phase', hphase'⟩

/-! ## Every run ends -/

theorem script_effort {ls : List (SessionLabel Unit)} {s : SessionState Unit} (h : ScriptRun cfg ops ls s) :
    ls.countP isSection + s.effort ops ≤
      (SessionState.init cfg : SessionState Unit).effort ops + ls.countP fun l => !isSection l := by
  induction h with
  | nil => simp
  | @snoc ls s l t hrun hst ih =>
      obtain ⟨phase, hphase⟩ := script_told hrun
      obtain ⟨-, -, hspend⟩ := hphase.step hrun.of_restrict hst
      simp only [Spends] at hspend
      cases hl : isSection l with
      | true =>
          simp only [hl, ↓reduceIte] at hspend
          simp only [List.countP_append, List.countP_singleton, hl, Bool.not_true, Bool.false_eq_true,
            ↓reduceIte]
          omega
      | false =>
          simp only [hl, Bool.false_eq_true, ↓reduceIte] at hspend
          simp only [List.countP_append, List.countP_singleton, hl, Bool.not_false, Bool.false_eq_true,
            ↓reduceIte]
          omega

theorem script_lost {ls : List (SessionLabel Unit)} {s : SessionState Unit} (h : ScriptRun cfg ops ls s) :
    lostSlots ls = 0 := by
  induction h with
  | nil => rfl
  | @snoc ls s l t hrun hst ih =>
      have hl : losesSlot l = false := by
        obtain ⟨-, hfollows⟩ := hst
        cases l with
        | client i e =>
            cases e with
            | copyThrows what => exact hfollows.elim
            | _ => rfl
        | _ => rfl
      have hone := lostSlots_singleton l
      rw [hl] at hone
      simp only [lostSlots, List.countP_append] at ih hone ⊢
      rw [ih, hone]
      rfl

section

variable {ls : List (SessionLabel Unit)} {s : SessionState Unit} {phase : Phase}

theorem scripted_worker (hrun : SessionRun cfg ls s) (hcap : cfg.capacity ≠ 0)
    (hrunning : s.worker ≠ .exited)
    (hbusy : s.worker = .loop → s.shared.closeRequested = true ∨ s.shared.queue ≠ []) :
    ∃ l t, isSection l = true ∧ ScriptStep cfg ops s l t := by
  obtain ⟨e, t, he, hst⟩ := worker_can_step hcap hrun hrunning hbusy
  refine ⟨.worker e, t, rfl, hst, ?_⟩
  rcases he with rfl | rfl <;> trivial

theorem Told.not_exited (h : Told cfg ops s.shared s.worker (s.client ()) phase) (hrun : SessionRun cfg ls s)
    (hq : s.shared.queue ≠ []) : s.worker ≠ .exited := by
  intro hw
  exact hq (h.closing hrun (by rw [hw]; rfl)).2

/-- A client that finds no room leaves the worker with something to do. -/
theorem Told.full (h : Told cfg ops s.shared s.worker (s.client ()) phase) (hrun : SessionRun cfg ls s)
    (hcap : cfg.capacity ≠ 0) (hroom : s.shared.hasRoom cfg = false) :
    ∃ l t, isSection l = true ∧ ScriptStep cfg ops s l t := by
  have hq : s.shared.queue ≠ [] := by
    intro hq
    simp only [Impl.hasRoom, hq, List.length_nil, decide_eq_false_iff_not] at hroom
    omega
  exact scripted_worker hrun hcap (h.not_exited hrun hq) fun _ => .inr hq

/-- So does a client that finds no free frame: the frames are in the queue or with the worker. -/
theorem Told.noFrame (h : Told cfg ops s.shared s.worker (s.client ()) phase) (hrun : ScriptRun cfg ops ls s)
    (hcap : cfg.capacity ≠ 0) (hfree : s.shared.freeFrames = []) (hslots : (s.client ()).pc.slots = 0) :
    ∃ l t, isSection l = true ∧ ScriptStep cfg ops s l t := by
  have hsum := slots_add_lost hrun.of_restrict h.healthy.failed
  simp only [script_lost hrun, SessionState.slots, hfree, List.length_nil, Finset.univ_unique,
    Finset.sum_singleton, hslots, Nat.zero_add, Nat.add_zero] at hsum
  have hloop : s.worker = .loop ∨ s.worker = .exited → s.shared.queue ≠ [] := by
    intro hw hq
    have hws : s.worker.slots = 0 := by rcases hw with hw | hw <;> rw [hw] <;> rfl
    simp only [hq, itemSlots_nil, hws] at hsum
    omega
  refine scripted_worker hrun.of_restrict hcap (fun hw => ?_) fun hw => .inr (hloop (.inl hw))
  exact h.not_exited hrun.of_restrict (hloop (.inr hw)) hw

/-- A client that sleeps leaves the worker with something to do. -/
theorem Told.sleeping (h : Told cfg ops s.shared s.worker (s.client ()) phase) (hrun : ScriptRun cfg ops ls s)
    {d : Cond} (hd : s.sleep () = some d) : ∃ l t, isSection l = true ∧ ScriptStep cfg ops s l t := by
  have hsession := hrun.of_restrict
  have hnr := (session_awaits hsession).2 () d hd
  have hplaced := session_placed hsession ()
  have hserving := h.serving
  rcases Option.eq_none_or_eq_some (s.client ()).current with hcur | ⟨c, hcur⟩
  · simp only [Client.Serving, hcur] at hserving
    simp only [ClientReady, hserving.1, ready] at hnr
    cases d <;> exact absurd trivial hnr
  simp only [Client.Serving, hcur] at hserving
  simp only [Client.Placed, hcur] at hplaced
  obtain ⟨hc, hs⟩ := hserving
  cases hpc : (s.client ()).pc with
  | enqueueOwnedSpace frame block =>
      simp only [hpc] at hplaced
      cases d with
      | hasSpace =>
          simp only [ClientReady, hpc, ready, Bool.or_eq_true, Bool.and_eq_true, not_or, not_and,
            Bool.not_eq_true] at hnr
          cases hroom : s.shared.hasRoom cfg with
          | false => exact h.full hsession hplaced.1 hroom
          | true =>
              have hfree := hnr.1.1 hroom
              simp only [Bool.not_eq_false', List.isEmpty_iff] at hfree
              exact h.noFrame hrun hplaced.1 hfree (by rw [hpc]; rfl)
      | _ => simp [ClientReady, hpc, ready] at hnr
  | enqueueOwnedPush frame block owned =>
      simp only [hpc] at hplaced
      cases d with
      | hasSpace =>
          simp only [ClientReady, hpc, ready, Bool.or_eq_true, not_or, Bool.not_eq_true] at hnr
          exact h.full hsession hplaced.1 hnr.1.1
      | _ => simp [ClientReady, hpc, ready] at hnr
  | flushSpace =>
      simp only [hpc] at hplaced
      cases d with
      | hasSpace =>
          simp only [ClientReady, hpc, ready, Bool.or_eq_true, not_or, Bool.not_eq_true] at hnr
          exact h.full hsession hplaced.1 hnr.1.1
      | _ => simp [ClientReady, hpc, ready] at hnr
  | flushWait token =>
      simp only [hpc] at hplaced
      obtain ⟨-, hrunning, hbusy⟩ := sleeping_token hsession hpc (by rw [hd]; simp)
      exact scripted_worker hsession hplaced.1 hrunning fun hw => .inr (hbusy hw)
  | enqueueBorrowedSpace frame => rw [hpc] at hs; cases hs
  | _ => cases d <;> simp [ClientReady, hpc, ready] at hnr

theorem clientAct_run {a : Impl} {k : Client} {o : Section} (ho : clientSection cfg a k.pc = some o) :
    clientAct cfg .run a k = some ⟨o.shared, { k with pc := o.loc }, o.notify, o.sleep⟩ := by
  obtain ⟨pc, current, history⟩ := k
  cases pc with
  | returning => cases ho
  | _ => simp only [clientAct, ho, Option.map_some]

theorem clientAct_returning {a : Impl} {k : Client} {status : Status} {c : Call}
    (hpc : k.pc = .returning status) (hcur : k.current = some c) :
    clientAct cfg .run a k =
      some ⟨a, { pc := .idle, current := none, history := k.history ++ [(c, status)] }, [], none⟩ := by
  simp only [clientAct, hpc, hcur]

/-- A client that is awake goes on, or joins a worker that does. -/
theorem Told.awake (h : Told cfg ops s.shared s.worker (s.client ()) phase) (hrun : ScriptRun cfg ops ls s)
    (hnf : ¬ Finished ops s) (hd : s.sleep () = none) :
    ∃ l t, isSection l = true ∧ ScriptStep cfg ops s l t := by
  have hclient : ∀ {e : Choice} {o : Outcome Impl Client Cond}, Follows ops s (.client () e) →
      clientAct cfg e s.shared (s.client ()) = some o →
      ∃ l t, isSection l = true ∧ ScriptStep cfg ops s l t := by
    intro e o hf ho
    obtain ⟨t, ht⟩ := Program.exists_client_step (p := program cfg) hd ho
    exact ⟨.client () e, t, rfl, ht, hf⟩
  have hserving := h.serving
  rcases Option.eq_none_or_eq_some (s.client ()).current with hcur | ⟨c, hcur⟩
  · simp only [Client.Serving, hcur] at hserving
    have hle : (s.client ()).history.length ≤ (script ops).length := by
      have hlen := congrArg List.length h.replies
      simp only [List.length_map, List.length_take] at hlen
      omega
    have hlt : (s.client ()).history.length < (script ops).length := Nat.lt_of_le_of_ne hle hnf
    obtain ⟨c, hc⟩ : ∃ c, (script ops)[(s.client ()).history.length]? = some c :=
      ⟨_, List.getElem?_eq_getElem hlt⟩
    have hstart : clientAct cfg (.call c) s.shared (s.client ()) =
        some ⟨s.shared, { s.client () with pc := c.entry, current := some c }, [], none⟩ := by
      simp only [clientAct, hserving.1]
    exact hclient (e := .call c) hc hstart
  · simp only [Client.Serving, hcur] at hserving
    obtain ⟨hc, hs⟩ := hserving
    have hsection : ∀ {o : Section}, clientSection cfg s.shared (s.client ()).pc = some o →
        ∃ l t, isSection l = true ∧ ScriptStep cfg ops s l t := by
      intro o ho
      exact hclient (e := .run) trivial (clientAct_run ho)
    have hbackend : ∀ {o : Section},
        clientBackend c.unknownMessage (.returned .ok) s.shared (s.client ()).pc = some o →
        ∃ l t, isSection l = true ∧ ScriptStep cfg ops s l t := by
      intro o ho
      have hact : clientAct cfg (.backend (.returned .ok)) s.shared (s.client ()) =
          some ⟨o.shared, { s.client () with pc := o.loc }, o.notify, o.sleep⟩ := by
        simp only [clientAct, hcur, ho, Option.map_some]
      exact hclient (e := .backend (.returned .ok)) rfl hact
    generalize hpc : (s.client ()).pc = pc at hs hsection hbackend
    cases hs with
    | writeCpuSync | flushSync | closeSync => exact hbackend rfl
    | returning =>
        have hreturn : clientAct cfg .run s.shared (s.client ()) = _ := clientAct_returning hpc hcur
        exact hclient (e := .run) trivial hreturn
    | closeJoin hcap =>
        by_cases hexit : s.shared.workerExited = true
        · exact hsection (o := closeJoin s.shared) (by simp only [clientSection, hexit, ↓reduceIte])
        · have hclosed : s.shared.closeRequested = true := by
            rcases script_get hc with ⟨-, hcall⟩ | ⟨heq, -⟩
            · rcases hcall with hcall | ⟨frame, hcall⟩ <;> cases hcall
            · exact h.requested.mpr ⟨hcap, .inr ⟨heq.symm, by simp⟩⟩
          have hrunning : s.worker ≠ .exited := fun hw => hexit ((session_exited hrun.of_restrict).mpr hw)
          exact scripted_worker hrun.of_restrict hcap hrunning fun _ => .inl hclosed
    | _ => exact hsection rfl

end

theorem script_terminates (cfg : Config) (ops : List Op) : Terminates cfg ops := by
  refine ⟨fun ls s hrun hnf => ?_, (SessionState.init cfg : SessionState Unit).effort ops, fun ls s hrun => ?_⟩
  · obtain ⟨phase, h⟩ := script_told hrun
    cases hd : s.sleep () with
    | none => exact h.awake hrun hnf hd
    | some d => exact h.sleeping hrun hd
  · have := script_effort hrun
    omega

/-! ## What a finished run has done -/

theorem script_finished {ls : List (SessionLabel Unit)} {s : SessionState Unit} (hrun : ScriptRun cfg ops ls s)
    (hfin : Finished ops s) :
    events s = (script ops).flatMap (Call.asks cfg) ∧
      replies s = (script ops).map fun c => (c, c.answer cfg) := by
  obtain ⟨phase, h⟩ := script_told hrun
  have hcur : (s.client ()).current = none := by
    rcases Option.eq_none_or_eq_some (s.client ()).current with hcur | ⟨c, hcur⟩
    · exact hcur
    · have hserving := h.serving
      simp only [Client.Serving, hcur] at hserving
      exact absurd hfin (Nat.ne_of_lt (script_lt hserving.1))
  have hall : (script ops).take (s.client ()).history.length = script ops := by
    rw [hfin]
    exact List.take_length
  refine ⟨?_, ?_⟩
  · have hasked := h.asked
    simp only [Client.told, hall, hcur, List.append_nil] at hasked
    rw [← hasked, events, Impl.asked]
    have hlast : ops.length < (s.client ()).history.length := by
      rw [hfin, script_length]
      exact Nat.lt_succ_self _
    by_cases hcap : cfg.capacity = 0
    · obtain ⟨hidle, hopen⟩ := h.idle hrun.of_restrict hcap
      simp [hidle, hopen]
    · -- the worker has exited, with nothing left to do
      have hw := (session_exited hrun.of_restrict).mp (h.joined hcap (.inl hlast))
      have hq := (h.closing hrun.of_restrict (by rw [hw]; rfl)).2
      simp [hw, hq, WorkerPc.taken, WorkerPc.closeCalled]
  · have hreplies := h.replies
    rw [hall] at hreplies
    exact hreplies

/-- A script that runs in a session with a queue and in one without: both runs end, with the same requests to
the backend, each write with the same picture, and with the same answers to the client. -/
theorem async_refines_sync (cfg : Config) (ops : List Op) :
    Terminates cfg ops ∧ Terminates cfg.sync ops ∧
      ∀ {ls ls' : List (SessionLabel Unit)} {s t : SessionState Unit},
        ScriptRun cfg ops ls s → ScriptRun cfg.sync ops ls' t → Finished ops s → Finished ops t →
        events s = events t ∧ replies s = replies t := by
  refine ⟨script_terminates cfg ops, script_terminates cfg.sync ops, ?_⟩
  intro ls ls' s t hs ht hfs hft
  obtain ⟨hes, hrs⟩ := script_finished hs hfs
  obtain ⟨het, hrt⟩ := script_finished ht hft
  exact ⟨hes.trans het.symm, hrs.trans hrt.symm⟩

/-- One frame and one flush. -/
def smallScript : List Op := [.write (smallFrame 0), .flush]

/-- The script in a session with room for one item. The client waits for the flush. -/
def queuedRun : List (SessionLabel Unit) :=
  [.client () (.call (.write (smallFrame 0))), .client () .run, .client () .run, .client () .run,
    .client () .run, .client () .run, .client () .run, .worker .run, .worker (.backend (.returned .ok)),
    .worker .run, .client () (.call .flush), .client () .run, .worker .run,
    .worker (.backend (.returned .ok)), .worker .run, .client () .run, .client () .run,
    .client () (.call .close), .client () .run, .worker .run, .worker (.backend (.returned .ok)),
    .worker .run, .client () .run, .client () .run]

/-- The script in a session without a queue. -/
def directRun : List (SessionLabel Unit) :=
  [.client () (.call (.write (smallFrame 0))), .client () .run, .client () (.backend (.returned .ok)),
    .client () .run, .client () .run, .client () (.call .flush), .client () .run,
    .client () (.backend (.returned .ok)), .client () .run, .client () .run, .client () (.call .close),
    .client () .run, .client () (.backend (.returned .ok)), .client () .run, .client () .run]

theorem async_refines_sync_small :
    ∃ s t : SessionState Unit, Finished smallScript s ∧ Finished smallScript t ∧ (events s).length = 3 ∧
      events s = events t ∧ replies s = replies t := by
  have hs : ScriptRun (.small 1 (by decide)) smallScript queuedRun _ :=
    Program.restrict_of_along rfl (by repeat' first | exact rfl | exact trivial | constructor)
  have ht : ScriptRun (Config.sync (.small 1 (by decide))) smallScript directRun _ :=
    Program.restrict_of_along rfl (by repeat' first | exact rfl | exact trivial | constructor)
  obtain ⟨-, -, hsame⟩ := async_refines_sync (.small 1 (by decide)) smallScript
  obtain ⟨hevents, hreplies⟩ := hsame hs ht rfl rfl
  refine ⟨_, _, ?_, ?_, ?_, hevents, hreplies⟩
  all_goals rfl

end MkvCodec.Encoder
