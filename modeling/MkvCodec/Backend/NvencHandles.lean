import MkvCodec.Backend.NvencLive
import MkvCodec.Gpu.NvencOwnership

/-!
# The handles of an NVIDIA encoder

The encoder keeps the handles that the driver gives to it, and the session of `Gpu.NvencSession` numbers them. Both go
through the same calls, and so what the encoder has created is destroyed as it is there.
-/

namespace MkvCodec.Backend

open Concurrency Resources

/-- What a call into CUDA or NVENC destroys. -/
inductive NvencHandle
  | context
  | encoder
  | input
  | output
  deriving DecidableEq

def NvencCall.destroyed : NvencCall → Option NvencHandle
  | .destroyContext => some .context
  | .destroyEncoder => some .encoder
  | .destroyInput => some .input
  | .destroyOutput => some .output
  | _ => none

theorem Within.destroyed {session : NvencSession} {calls : List NvencCall} (h : Within session calls) :
    calls.filterMap NvencCall.destroyed = [] := by
  rw [List.filterMap_eq_nil_iff]
  intro c hc
  have hsession := h c hc
  cases c with
  | destroyContext | destroyEncoder | destroyInput | destroyOutput => cases hsession
  | _ => rfl

def handle : Gpu.NvencResource Nat → NvencHandle
  | .context _ => .context
  | .encoder _ => .encoder
  | .input _ => .input
  | .output _ => .output

/-- What has been destroyed, in this order. The events come with the latest first. -/
def destroyed : List (Event (Gpu.NvencResource Nat)) → List NvencHandle
  | [] => []
  | .create _ :: events => destroyed events
  | .destroy r :: events => destroyed events ++ [handle r]

@[simp] theorem destroyed_create (r : Gpu.NvencResource Nat) (events : List (Event (Gpu.NvencResource Nat))) :
    destroyed (.create r :: events) = destroyed events := rfl

@[simp] theorem destroyed_destroy (r : Gpu.NvencResource Nat) (events : List (Event (Gpu.NvencResource Nat))) :
    destroyed (.destroy r :: events) = destroyed events ++ [handle r] := rfl

/-! ## The session -/

def NvencOpen.asked : NvencOpen → Gpu.OpenAnswer
  | .opened _ => .opened
  | .failed (some _) => .failedWithHandle
  | .failed none => .failed

/-- The same answers without the handles. -/
def NvencInit.asked (answer : NvencInit) : Gpu.InitializeAnswer :=
  ⟨true, true, answer.context.isSome, answer.opened.asked, answer.preset, answer.initialized, answer.input.isSome,
    answer.output.isSome⟩

/-- The same fields are filled, and an external context is the same. -/
structure NvencSession.Like (s : NvencSession) (t : Gpu.NvencSession Nat) : Prop where
  context : s.context.isSome = t.context.isSome
  external : ∀ context, t.context = some (.external context) → s.context = some context
  owns : s.ownsContext = t.ownsContext
  encoder : s.encoder.isSome = t.encoder.isSome
  input : s.input.isSome = t.input.isSome
  output : s.output.isSome = t.output.isSome

theorem NvencSession.like_empty : NvencSession.empty.Like Gpu.Nvenc.empty := ⟨rfl, nofun, rfl, rfl, rfl, rfl⟩

theorem NvencSession.Like.eq_empty {t : Gpu.NvencSession Nat} (h : NvencSession.empty.Like t) : t = Gpu.Nvenc.empty := by
  obtain ⟨context, ownsContext, encoder, input, output⟩ := t
  obtain ⟨hcontext, -, howns, hencoder, hinput, houtput⟩ := h
  simp [NvencSession.empty] at hcontext howns hencoder hinput houtput
  simp [Gpu.Nvenc.empty, hcontext, howns, hencoder, hinput, houtput]

/-- A call has done the same to both sessions. -/
structure SessionMatches (a : Gpu.Nvenc Nat) (made : Status × NvencSession × List NvencCall)
    (out : Gpu.Nvenc Nat × Status) : Prop where
  status : out.2 = made.1
  session : made.2.1.Like out.1.session
  destroyed : destroyed out.1.events = destroyed a.events ++ made.2.2.filterMap NvencCall.destroyed

variable {s : NvencSession} {a : Gpu.Nvenc Nat}

/-- Behind calls that destroy nothing. -/
theorem SessionMatches.of_created {made : Status × NvencSession × List NvencCall} {out : Gpu.Nvenc Nat × Status}
    (hstatus : out.2 = made.1) (hsession : made.2.1.Like out.1.session)
    (hevents : Backend.destroyed out.1.events = Backend.destroyed a.events)
    (hcalls : made.2.2.filterMap NvencCall.destroyed = []) : SessionMatches a made out :=
  ⟨hstatus, hsession, by rw [hevents, hcalls, List.append_nil]⟩

theorem openNvencSession_matches (h : s.Like a.session) (hencoder : s.encoder = none) (answer : NvencInit) :
    SessionMatches a (openNvencSession s answer) (a.openEncoder answer.asked) := by
  obtain ⟨hcontext, hexternal, howns, hhandle, hinput, houtput⟩ := h
  obtain ⟨context, opened, preset, initialized, input, output⟩ := answer
  cases opened with
  | failed encoder =>
      cases encoder with
      | none =>
          rw [hencoder] at hhandle
          exact .of_created rfl ⟨hcontext, hexternal, howns, hhandle, hinput, houtput⟩ rfl rfl
      | some encoder => exact .of_created rfl ⟨hcontext, hexternal, howns, rfl, hinput, houtput⟩ rfl rfl
  | opened encoder =>
      cases preset with
      | false => exact .of_created rfl ⟨hcontext, hexternal, howns, rfl, hinput, houtput⟩ rfl rfl
      | true =>
          cases initialized with
          | false => exact .of_created rfl ⟨hcontext, hexternal, howns, rfl, hinput, houtput⟩ rfl rfl
          | true =>
              cases input with
              | none => exact .of_created rfl ⟨hcontext, hexternal, howns, rfl, hinput, houtput⟩ rfl rfl
              | some input =>
                  cases output with
                  | none => exact .of_created rfl ⟨hcontext, hexternal, howns, rfl, rfl, houtput⟩ rfl rfl
                  | some output => exact .of_created rfl ⟨hcontext, hexternal, howns, rfl, rfl, rfl⟩ rfl rfl

theorem initializeNvencSession_matches (h : s.Like a.session) (externalContext : Option Nat) (answer : NvencInit) :
    SessionMatches a (initializeNvencSession externalContext s answer)
      (a.initializeSession externalContext answer.asked) := by
  unfold initializeNvencSession Gpu.Nvenc.initializeSession
  rw [h.context, h.encoder, h.input, h.output]
  split
  · exact .of_created rfl h rfl rfl
  · rename_i hempty
    simp only [Bool.or_eq_true, not_or, Option.not_isSome_iff_eq_none] at hempty
    have hencoder : s.encoder = none := by
      have hsome := h.encoder
      rw [hempty.1.1.2] at hsome
      exact Option.not_isSome_iff_eq_none.mp (by rw [hsome]; exact nofun)
    cases externalContext with
    | some context =>
        obtain ⟨hstatus, hsession, hdestroyed⟩ :=
          openNvencSession_matches (s := { s with context := some context, ownsContext := false })
            (a := { a with session := { a.session with context := some (.external context), ownsContext := false } })
            ⟨rfl, fun _ heq => by cases heq; rfl, rfl, h.encoder, h.input, h.output⟩ hencoder answer
        exact ⟨hstatus, hsession, hdestroyed⟩
    | none =>
        cases hcontext : answer.context with
        | none =>
            have hasked : answer.asked.contextCreate = false := by rw [NvencInit.asked, hcontext]; rfl
            simp only [hasked, Bool.and_false, Bool.not_false, ↓reduceIte]
            exact .of_created rfl h rfl rfl
        | some context =>
            have hasked : (answer.asked.cuInit && answer.asked.deviceGet && answer.asked.contextCreate) = true := by
              rw [NvencInit.asked, hcontext]
              rfl
            simp only [hasked, Bool.not_true, Bool.false_eq_true, ↓reduceIte]
            obtain ⟨hstatus, hsession, hdestroyed⟩ :=
              openNvencSession_matches (s := { s with context := some context, ownsContext := true })
                (a := { a.create fun n => .context (.own n) with
                  session := { a.session with context := some (.own a.next), ownsContext := true } })
                ⟨rfl, nofun, rfl, h.encoder, h.input, h.output⟩ hencoder answer
            exact ⟨hstatus, hsession, hdestroyed⟩

theorem destroyNvencSession_matches (h : s.Like a.session) :
    destroyed a.destroySession.events = destroyed a.events ++ (destroyNvencSession s).filterMap NvencCall.destroyed := by
  unfold destroyNvencSession
  rw [h.context, h.encoder, h.input, h.output, h.owns]
  obtain ⟨⟨context, ownsContext, encoder, input, output⟩, next, events⟩ := a
  cases context <;> cases ownsContext <;> cases encoder <;> cases input <;> cases output <;>
    simp [Gpu.Nvenc.destroySession, Gpu.Nvenc.destroyEncoder, Gpu.Nvenc.log, NvencCall.destroyed, handle]

/-! ## The manager -/

namespace NvencSessionManager

structure Follows (m : NvencSessionManager) (n : Gpu.NvencManager Nat Nat) : Prop where
  session : m.session.Like n.nvenc.session
  external : m.externalContext = n.externalContext
  owner : m.contextOwner = n.contextOwner

/-- A call has done the same to both managers. -/
structure Matches (n : Gpu.NvencManager Nat Nat) (made : Status × NvencSessionManager × List NvencCall)
    (out : Gpu.NvencManager Nat Nat × Status) : Prop where
  status : out.2 = made.1
  follows : made.2.1.Follows out.1
  destroyed : destroyed out.1.nvenc.events = destroyed n.nvenc.events ++ made.2.2.filterMap NvencCall.destroyed

variable {m : NvencSessionManager} {n : Gpu.NvencManager Nat Nat}

/-- A call that is refused. -/
theorem Follows.refused (h : m.Follows n) (status : Status) : Matches n (status, m, []) (n, status) :=
  ⟨rfl, h, (List.append_nil _).symm⟩

/-- Behind a manager that has been destroyed. -/
theorem Matches.behind_destroy {n' : Gpu.NvencManager Nat Nat} {status : Status} {calls : List NvencCall}
    {out : Gpu.NvencManager Nat Nat × Status} (h : m.Follows n) (hevents : n'.nvenc = n.nvenc.destroySession)
    {m' : NvencSessionManager} (hmade : Matches n' (status, m', calls) out) :
    Matches n (status, m', destroyNvencSession m.session ++ calls) out := by
  refine ⟨hmade.status, hmade.follows, ?_⟩
  rw [hmade.destroyed, hevents, destroyNvencSession_matches h.session, List.filterMap_append, List.append_assoc]

theorem initializeSession_matches (h : m.Follows n) (externalContext : Option Nat) (answer : NvencInit) :
    Matches n (m.initializeSession externalContext answer) (n.start externalContext answer.asked) := by
  obtain ⟨hstatus, hsession, hdestroyed⟩ := initializeNvencSession_matches h.session externalContext answer
  unfold initializeSession Gpu.NvencManager.start
  dsimp only
  rw [hstatus]
  split
  · refine ⟨rfl, ⟨NvencSession.like_empty, h.external, h.owner⟩, ?_⟩
    rw [destroyNvencSession_matches hsession, hdestroyed, List.filterMap_append, List.append_assoc]
  · exact ⟨rfl, ⟨hsession, h.external, h.owner⟩, hdestroyed⟩

theorem initializeCpu_matches (h : m.Follows n) (answer : NvencInit) :
    Matches n (m.initializeCpu answer) (n.initializeCpu answer.asked) := by
  unfold initializeCpu Gpu.NvencManager.initializeCpu
  rw [h.session.context, h.session.encoder]
  split
  · exact h.refused _
  · exact initializeSession_matches h none answer

theorem restartCpu_matches (h : m.Follows n) (answer : NvencInit) :
    Matches n (m.restartCpu answer) (n.restartCpu answer.asked) := by
  have hstart := initializeSession_matches (m := ⟨none, .empty, none⟩) (n := n.destroy)
    ⟨NvencSession.like_empty, rfl, rfl⟩ none answer
  exact hstart.behind_destroy h rfl

theorem destroy_matches (h : m.Follows n) : Matches n (.ok, m.destroy) (n.destroy, .ok) :=
  ⟨rfl, ⟨NvencSession.like_empty, rfl, rfl⟩, destroyNvencSession_matches h.session⟩

theorem bindCudaContext_matches (h : m.Follows n) (context contextOwner : Option Nat) (submittedFrames : Nat)
    (answer : NvencInit) :
    Matches n (m.bindCudaContext context contextOwner submittedFrames answer)
      (n.bindCudaContext context contextOwner submittedFrames answer.asked) := by
  cases context with
  | none => exact h.refused _
  | some context =>
      cases contextOwner with
      | none => exact h.refused _
      | some contextOwner =>
          unfold bindCudaContext Gpu.NvencManager.bindCudaContext
          rw [h.external]
          cases hexternal : n.externalContext with
          | some external =>
              by_cases hsame : external = context
              · simp [hsame, h.refused]
              · simp [hsame, h.refused]
          | none =>
              simp only [Option.isNone_some, Bool.or_self, Bool.false_eq_true, Option.isSome_none, ↓reduceIte]
              by_cases hframes : submittedFrames = 0
              · have hstart := initializeSession_matches (m := ⟨some context, .empty, some contextOwner⟩)
                  (n := ⟨n.nvenc.destroySession, some context, some contextOwner⟩)
                  ⟨NvencSession.like_empty, rfl, rfl⟩ (some context) answer
                simp only [hframes, ne_eq, not_true_eq_false, ↓reduceIte]
                cases hbound : initializeSession ⟨some context, .empty, some contextOwner⟩ (some context) answer with
                | mk status more =>
                  obtain ⟨bound, calls⟩ := more
                  rw [hbound] at hstart
                  obtain ⟨hstatus, hfollows, hdestroyed⟩ := hstart.behind_destroy h rfl
                  simp only [hstatus]
                  split
                  · exact ⟨rfl, ⟨hfollows.session, rfl, rfl⟩, hdestroyed⟩
                  · exact ⟨rfl, hfollows, hdestroyed⟩
              · simp [hframes, h.refused]

end NvencSessionManager

/-! ## The encoder -/

namespace NvidiaWebmEncoder

variable {e e' : NvidiaWebmEncoder} {n : Gpu.NvencManager Nat Nat}

/-- The manager of the encoder is like `n`, and the same has been destroyed. A closed encoder has no session. -/
structure Owns (e : NvidiaWebmEncoder) (n : Gpu.NvencManager Nat Nat) : Prop where
  follows : e.sessionManager.Follows n
  destroyed : destroyed n.nvenc.events = e.calls.filterMap NvencCall.destroyed
  closed : e.closed = true → e.sessionManager.session = .empty

/-- The encoder goes on without its manager. -/
theorem Owns.kept (h : e.Owns n) {calls : List NvencCall} (hcalls : e'.calls = e.calls ++ calls)
    (hnone : calls.filterMap NvencCall.destroyed = []) (hmanager : e'.sessionManager = e.sessionManager)
    (hclosed : e'.closed = e.closed) : e'.Owns n := by
  constructor
  · rw [hmanager]
    exact h.follows
  · rw [hcalls, List.filterMap_append, hnone, List.append_nil]
    exact h.destroyed
  · rw [hclosed, hmanager]
    exact h.closed

/-- Behind a call of the manager. -/
theorem Owns.called (h : e.Owns n) {status : Status} {m : NvencSessionManager} {calls : List NvencCall}
    {out : Gpu.NvencManager Nat Nat × Status} (hmatches : NvencSessionManager.Matches n (status, m, calls) out)
    (hmanager : e'.sessionManager = m)
    (hcalls : e'.calls.filterMap NvencCall.destroyed = (e.calls ++ calls).filterMap NvencCall.destroyed)
    (hclosed : e'.closed = true → m.session = .empty) : e'.Owns out.1 := by
  constructor
  · rw [hmanager]
    exact hmatches.follows
  · rw [hmatches.destroyed, hcalls, List.filterMap_append, h.destroyed]
  · rw [hmanager]
    exact hclosed

theorem write_owns (h : e.Owns n) (frame : FrameView) (answer : NvencCpuAnswer) : (e.write frame answer).2.Owns n := by
  by_cases hadmits : e.Admits frame answer
  · obtain ⟨⟨calls, hcalls, hwithin⟩, hmanager, hclosed⟩ := write_admitted hadmits
    exact h.kept hcalls hwithin.destroyed hmanager hclosed
  · obtain ⟨status, hrun, -⟩ := write_rejected hadmits
    rw [hrun]
    exact h

/-- A frame from the GPU comes to the manager when it gets past its checks. -/
theorem writeGpu_owns (h : e.Owns n) (frame : Option CudaFrame) (answer : NvencGpuAnswer) :
    (e.writeGpu frame answer).2.Owns n ∨
      ∃ context contextOwner, (e.writeGpu frame answer).2.Owns
        (n.bindCudaContext (some context) contextOwner e.frameIndex answer.init.asked).1 := by
  unfold writeGpu
  split
  · exact .inl h
  · rename_i hopened
    split
    · exact .inl h
    · rename_i input hprepare
      right
      refine ⟨input.contextHandle, frame.map CudaFrame.frame, ?_⟩
      have hmatches := NvencSessionManager.bindCudaContext_matches h.follows (some input.contextHandle)
        (frame.map CudaFrame.frame) e.frameIndex answer.init
      cases hbind : e.sessionManager.bindCudaContext (some input.contextHandle) (frame.map CudaFrame.frame) e.frameIndex
          answer.init with
      | mk bound more =>
        obtain ⟨m, calls⟩ := more
        rw [hbind] at hmatches
        have hbound : Owns { e.call calls with sessionManager := m } _ :=
          h.called hmatches rfl rfl fun hclosed => absurd hclosed hopened
        dsimp only
        split
        · exact hbound
        · obtain ⟨⟨more, hmore, hwithin⟩, hmanager, hclosed⟩ :=
            cudaSubmission_within { e.call calls with sessionManager := m }
              (selectPictureTiming { e.call calls with sessionManager := m } input.ptsNs) answer
          exact hbound.kept hmore hwithin.destroyed hmanager hclosed

theorem flush_owns (h : e.Owns n) (answer : NvencFlushAnswer) :
    (e.flush answer).2.Owns n ∨ (e.flush answer).2.Owns (n.restartCpu answer.init.asked).1 := by
  unfold flush
  split
  · exact .inl h
  · rename_i hactive
    have hopened : e.closed = false := by simp_all
    have heos : Owns (e.drainNvencSession answer.eos).2 n := h.kept rfl rfl rfl rfl
    dsimp only
    split
    · exact .inl heos
    · have hmatches := NvencSessionManager.restartCpu_matches heos.follows answer.init
      cases hrestart : (e.drainNvencSession answer.eos).2.sessionManager.restartCpu answer.init with
      | mk status more =>
        obtain ⟨m, calls⟩ := more
        rw [hrestart] at hmatches
        exact .inr (heos.called hmatches rfl rfl fun hclosed => absurd hclosed (by simp [drainNvencSession, call, hopened]))

theorem close_owns (h : e.Owns n) (answer : NvencCloseAnswer) :
    (e.close answer).2.Owns n ∨ (e.close answer).2.Owns n.destroy := by
  unfold close
  split
  · exact .inl h
  · right
    split
    rename_i drained e₁ hdrain
    have hdrained : e₁.Owns n := by
      split at hdrain
      · cases hdrain
        exact h.kept rfl rfl rfl rfl
      · cases hdrain
        exact h
    have hmatches := NvencSessionManager.destroy_matches hdrained.follows
    dsimp only
    split
    · exact hdrained.called hmatches rfl rfl fun _ => rfl
    · exact hdrained.called hmatches rfl rfl fun _ => rfl

def Step (e : NvidiaWebmEncoder) (op : NvencOp) (e' : NvidiaWebmEncoder) : Prop := (e.run op).2 = e'

/-- An operation makes at most one call of the manager. -/
theorem Owns.step (h : e.Owns n) {op : NvencOp} (hst : e.Step op e') :
    e'.Owns n ∨ ∃ c, e'.Owns (n.call c).1 := by
  subst hst
  cases op with
  | write frame answer => exact .inl (write_owns h frame answer)
  | writeGpu frame answer =>
      apply (writeGpu_owns h frame answer).imp_right
      rintro ⟨context, contextOwner, howns⟩
      exact ⟨.bind (some context) contextOwner e.frameIndex answer.init.asked, howns⟩
  | flush answer => exact (flush_owns h answer).imp_right fun howns => ⟨.restartCpu answer.init.asked, howns⟩
  | close answer => exact (close_owns h answer).imp_right fun howns => ⟨.destroy, howns⟩

theorem create_owns {config : Config} {av1Encode : Bool} {api : Option String} {init : NvencInit}
    {muxer : Option String} (h : create config av1Encode api init muxer = .ok e) :
    e.Owns ((Gpu.NvencManager.new : Gpu.NvencManager Nat Nat).initializeCpu init.asked).1 := by
  have hmatches := NvencSessionManager.initializeCpu_matches (m := ⟨none, .empty, none⟩)
    (n := Gpu.NvencManager.new) ⟨NvencSession.like_empty, rfl, rfl⟩ init
  unfold create at h
  split at h
  · cases h
  · cases api with
    | some error => cases h
    | none =>
        dsimp only at h
        cases hinit : NvencSessionManager.initializeCpu ⟨none, .empty, none⟩ init with
        | mk status more =>
          obtain ⟨m, calls⟩ := more
          rw [hinit] at h hmatches
          dsimp only at h
          split at h
          · cases h
          · cases muxer with
            | some error => cases h
            | none =>
                cases h
                exact ⟨hmatches.follows, hmatches.destroyed, nofun⟩

/-- In every run the encoder holds what the session of its manager holds and has destroyed what that one has destroyed.
Behind `close` each handle that CUDA and NVENC have created for it was destroyed exactly once. -/
theorem run_owns {config : Config} {av1Encode : Bool} {api : Option String} {init : NvencInit} {muxer : Option String}
    (hcreate : create config av1Encode api init muxer = .ok e) {ops : List NvencOp} (h : Run Step e ops e') :
    ∃ cs n, Run Gpu.NvencManager.Step .new cs n ∧ e'.Owns n ∧
      (∀ r, .create r ∈ n.nvenc.events →
        r ∈ n.nvenc.session.owned ∧ n.nvenc.events.count (.destroy r) = 0 ∨
          r ∉ n.nvenc.session.owned ∧ n.nvenc.events.count (.destroy r) = 1) ∧
      (e'.closed = true → ∀ r, .create r ∈ n.nvenc.events → n.nvenc.events.count (.destroy r) = 1) := by
  have hrun : ∃ cs n, Run Gpu.NvencManager.Step .new cs n ∧ e'.Owns n := by
    refine h.invariant (I := fun e => ∃ cs n, Run Gpu.NvencManager.Step .new cs n ∧ e.Owns n)
      ⟨[.initializeCpu init.asked], _, .cons rfl .nil, create_owns hcreate⟩ ?_
    rintro e op e' ⟨cs, n, hcs, howns⟩ hst
    obtain howns | ⟨c, howns⟩ := howns.step hst
    · exact ⟨cs, n, hcs, howns⟩
    · exact ⟨cs ++ [c], _, hcs.snoc rfl, howns⟩
  obtain ⟨cs, n, hcs, howns⟩ := hrun
  have hsound : n.Sound := hcs.invariant Gpu.NvencManager.sound_new fun hs hst => hs.step hst
  refine ⟨cs, n, hcs, howns, fun r => hsound.nvenc.holds.owned_or_destroyed, fun hclosed r hr => ?_⟩
  have hempty : n.nvenc.session = Gpu.Nvenc.empty := by
    have hlike := howns.follows.session
    rw [howns.closed hclosed] at hlike
    exact hlike.eq_empty
  rcases hsound.nvenc.holds.owned_or_destroyed hr with ⟨hmem, -⟩ | ⟨-, honce⟩
  · rw [hempty] at hmem
    cases hmem
  · exact honce

end NvidiaWebmEncoder

end MkvCodec.Backend
