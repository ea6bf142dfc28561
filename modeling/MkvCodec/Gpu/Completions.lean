import MkvCodec.Concurrency.Transition
import MkvCodec.Gpu.Frame

/-!
# The kinds of completions

`ManualCompletion` and `CallbackCompletion` of `gpu_frame.cpp`, with the queries that the caller of an import, `va_completion.cpp`,
`d3d11_completion.cpp` and `cuda_completion.cpp` put behind the latter. VA surfaces and fences remember their first final answer; the
others answer whatever is replied.
-/

namespace MkvCodec.Gpu

open Concurrency

deriving instance DecidableEq for CompletionState

/-! ## Queries -/

/-- What the query callback of an import replies. -/
inductive CallerReply
  | returned (result : Result) (value : Nat)
  | threw
  deriving DecidableEq

def callerQuery : CallerReply → CompletionState
  | .returned result value =>
      if h : result ≠ .ok then .failed ⟨result, "external GPU producer query failed"⟩ h
      else if value ≠ 0 then .complete
      else .pending
  | .threw => .failed ⟨.errorInternal, "external GPU producer query threw"⟩ (by decide)

/-- What `cuEventQuery` returns. -/
inductive CuResult
  | success
  | errorNotReady
  | error
  deriving DecidableEq

/-- The CUDA driver's replies to one query: whether the context could be pushed, the state of the event, and whether the context
could be popped again. -/
structure CudaReply where
  pushed : Bool
  queried : CuResult
  popped : Bool
  deriving DecidableEq

/-- `valid` when no handle and no function is null. -/
def cudaEventQuery (valid : Bool) (reply : CudaReply) : CompletionState :=
  if !valid then .failed ⟨.errorInvalidArgument, "invalid CUDA event completion"⟩ (by decide)
  else if !reply.pushed then .failed ⟨.errorCodec, "failed to activate CUDA context for event query"⟩ (by decide)
  else if !reply.popped then .failed ⟨.errorCodec, "failed to release CUDA context after event query"⟩ (by decide)
  else
    match reply.queried with
    | .success => .complete
    | .errorNotReady => .pending
    | .error => .failed ⟨.errorCodec, "CUDA event query failed"⟩ (by decide)

def kVaSuccess : Int := 0
def kVaUnimplemented : Int := 0x14
def kVaTimedOut : Int := 0x26

/-- `status` is what `vaSyncSurface2` returns; `valid` when no argument of it is invalid. -/
def vaSurfaceQuery (valid : Bool) (status : Int) : CompletionState :=
  if !valid then .failed ⟨.errorInvalidArgument, "invalid VA surface synchronization arguments"⟩ (by decide)
  else if status = kVaTimedOut then .pending
  else if status ≠ kVaSuccess then
    let error := "vaSyncSurface2 failed with status " ++ toString status
    if status = kVaUnimplemented then .failed ⟨.errorNotSupported, error⟩ Result.errorNotSupported_ne_ok
    else .failed ⟨.errorCodec, error⟩ Result.errorCodec_ne_ok
  else .complete

/-- `valid` when there is a query; the values of a fence are `uint64_t`. -/
def d3d11FenceQuery (valid : Bool) (target value : Nat) : CompletionState :=
  if !valid || decide (target = 0) || decide (target = 2 ^ 64 - 1) then
    .failed ⟨.errorInvalidArgument, "invalid D3D11 fence target or query"⟩ (by decide)
  else if value = 2 ^ 64 - 1 then .failed ⟨.errorCodec, "D3D11 fence device was removed"⟩ (by decide)
  else if value < target then .pending
  else .complete

/-! ## Completions -/

/-- A completion with the state that it keeps. -/
inductive NativeCompletion
  | manual (status : CompletionState)
  | callback
  | vaSurface (valid : Bool) (terminal : Option CompletionState)
  | d3d11Fence (valid : Bool) (target : Nat) (terminal : Option CompletionState)
  | cudaEvent (valid : Bool)
  deriving DecidableEq

/-- A reply to a completion of a kind; a manual completion asks nobody. -/
inductive CompletionReply
  | manual
  | caller (reply : CallerReply)
  | va (status : Int)
  | fence (value : Nat)
  | cuda (reply : CudaReply)
  deriving DecidableEq

/-- What is remembered behind an answer. -/
def remember (state : CompletionState) : Option CompletionState := if state.isPending then none else some state

/-- One look at a completion: its answer, and the completion behind it. -/
def NativeCompletion.look : NativeCompletion → CompletionReply → Option (CompletionState × NativeCompletion)
  | .manual status, .manual => some (status, .manual status)
  | .callback, .caller reply => some (callerQuery reply, .callback)
  | .vaSurface valid terminal, .va status =>
      let state := terminal.getD (vaSurfaceQuery valid status)
      some (state, .vaSurface valid (remember state))
  | .d3d11Fence valid target terminal, .fence value =>
      let state := terminal.getD (d3d11FenceQuery valid target value)
      some (state, .d3d11Fence valid target (remember state))
  | .cudaEvent valid, .cuda reply => some (cudaEventQuery valid reply, .cudaEvent valid)
  | _, _ => none

/-- A call of `query`, a turn of the loop in `wait`, or a call of `complete` or `fail`. Waits of several threads are told apart by
nothing: between two turns a wait keeps no state but its deadline, which has `expired` or not. -/
inductive CompletionLabel
  | query (reply : CompletionReply)
  | wait (reply : CompletionReply) (expired : Bool)
  | complete
  | fail (error : String)
  deriving DecidableEq

def failure (error : String) : CompletionState := .failed ⟨.errorCodec, error⟩ Result.errorCodec_ne_ok

def NativeCompletion.step (c : NativeCompletion) : CompletionLabel → Option NativeCompletion
  | .query reply | .wait reply _ => (c.look reply).map Prod.snd
  | .complete =>
      match c with
      | .manual _ => some (.manual .complete)
      | _ => none
  | .fail error =>
      match c with
      | .manual _ => some (.manual (failure error))
      | _ => none

/-- What a step answers. A pending answer of a `wait` is `MKVC_ERROR_TIMEOUT`; before its deadline it goes on. -/
def NativeCompletion.answer (c : NativeCompletion) : CompletionLabel → Option CompletionState
  | .query reply => (c.look reply).map Prod.fst
  | .wait reply expired => (c.look reply).bind fun looked => if looked.1.isPending && !expired then none else some looked.1
  | .complete | .fail _ => none

/-- The answers so far, the last first. -/
def NativeCompletion.record (c : NativeCompletion) (l : CompletionLabel) (answers : List CompletionState) : List CompletionState :=
  match c.answer l with
  | some state => state :: answers
  | none => answers

/-- A completion and the answers that it has given. -/
abbrev CompletionStep : NativeCompletion × List CompletionState → CompletionLabel → NativeCompletion × List CompletionState → Prop :=
  Watch (fun c l c' => c.step l = some c') NativeCompletion.record

/-- Behind an answer that is final all answers are the same. -/
def SameBehindFinal : List CompletionState → Prop
  | [] => True
  | last :: answers => (∀ a ∈ answers, a.isPending = false → last = a) ∧ SameBehindFinal answers

/-! ## What has to hold of the replies -/

/-- A reply that comes to `state` is answered: by a query, or by a wait unless it has to go on. -/
def CompletionLabel.Answers (l : CompletionLabel) (reply : CompletionReply) (state : CompletionState) : Prop :=
  l = .query reply ∨ ∃ expired, l = .wait reply expired ∧ (state.isPending = true → expired = true)

/-- Behind a final answer a callback and the CUDA driver repeat it in every reply that is answered, and a manual completion is not
completed or failed otherwise. Nothing is asked of VA surfaces and fences. -/
def Steady (s : NativeCompletion × List CompletionState) (l : CompletionLabel) : Prop :=
  ∀ a ∈ s.2, a.isPending = false →
    match s.1 with
    | .manual _ => (l = .complete → a = .complete) ∧ ∀ error, l = .fail error → a = failure error
    | .callback => ∀ reply, l.Answers (.caller reply) (callerQuery reply) → callerQuery reply = a
    | .cudaEvent valid => ∀ reply, l.Answers (.cuda reply) (cudaEventQuery valid reply) → cudaEventQuery valid reply = a
    | .vaSurface _ _ | .d3d11Fence _ _ _ => True

/-- A completion that remembers has kept a final answer. -/
def NativeCompletion.Keeps (c : NativeCompletion) (a : CompletionState) : Prop :=
  match c with
  | .manual status => status = a
  | .vaSurface _ terminal | .d3d11Fence _ _ terminal => terminal = some a
  | .callback | .cudaEvent _ => True

/-! ## One step -/

variable {c c' : NativeCompletion} {l : CompletionLabel} {a state : CompletionState} {answers : List CompletionState} {reply : CompletionReply}

theorem remember_final (h : a.isPending = false) : remember a = some a := by
  rw [remember, h]
  rfl

/-- A look at a completion that has kept an answer gives it again, and keeps it. -/
theorem look_of_keeps (h : c.Keeps a) (ha : a.isPending = false) (hlook : c.look reply = some (state, c')) :
    c'.Keeps a ∧ (c ≠ .callback → (∀ valid, c ≠ .cudaEvent valid) → state = a) := by
  cases c with
  | manual status =>
      cases reply <;> cases hlook
      exact ⟨h, fun _ _ => h⟩
  | callback =>
      cases reply <;> cases hlook
      exact ⟨trivial, fun hne => absurd rfl hne⟩
  | vaSurface valid terminal =>
      obtain rfl : terminal = some a := h
      cases reply <;> cases hlook
      exact ⟨remember_final ha, fun _ _ => rfl⟩
  | d3d11Fence valid target terminal =>
      obtain rfl : terminal = some a := h
      cases reply <;> cases hlook
      exact ⟨remember_final ha, fun _ _ => rfl⟩
  | cudaEvent valid =>
      cases reply <;> cases hlook
      exact ⟨trivial, fun _ hne => absurd rfl (hne valid)⟩

/-- A final answer is kept from the look that gives it on. -/
theorem keeps_of_look (hlook : c.look reply = some (a, c')) (ha : a.isPending = false) : c'.Keeps a := by
  cases c with
  | manual status =>
      cases reply <;> cases hlook
      rfl
  | callback | cudaEvent =>
      cases reply <;> cases hlook
      exact trivial
  | vaSurface | d3d11Fence =>
      cases reply <;> cases hlook
      exact remember_final ha

theorem answer_some (h : c.answer l = some state) : ∃ reply c', l.Answers reply state ∧ c.look reply = some (state, c') ∧
    c.step l = some c' := by
  cases l with
  | query reply =>
      obtain ⟨⟨state', c'⟩, hlook, rfl⟩ := Option.map_eq_some_iff.mp h
      exact ⟨reply, c', .inl rfl, hlook, by rw [NativeCompletion.step, hlook]; rfl⟩
  | wait reply expired =>
      obtain ⟨⟨state', c'⟩, hlook, hstate⟩ := Option.bind_eq_some_iff.mp h
      split at hstate
      case isTrue => cases hstate
      case isFalse hgoes =>
          cases hstate
          refine ⟨reply, c', .inr ⟨expired, rfl, fun hpending => ?_⟩, hlook, by rw [NativeCompletion.step, hlook]; rfl⟩
          rw [hpending] at hgoes
          simpa using hgoes
  | complete => cases h
  | fail error => cases h

/-- Behind a final answer a steady step answers the same. -/
theorem Steady.answer (h : Steady (c, answers) l) (hkeeps : ∀ a ∈ answers, a.isPending = false → c.Keeps a)
    (hanswer : c.answer l = some state) (ha : a ∈ answers) (hfinal : a.isPending = false) : state = a := by
  obtain ⟨reply, c', hanswers, hlook, -⟩ := answer_some hanswer
  have hsteady := h a ha hfinal
  obtain ⟨-, hsame⟩ := look_of_keeps (hkeeps a ha hfinal) hfinal hlook
  cases c with
  | manual | vaSurface | d3d11Fence => exact hsame (by simp) (by simp)
  | callback =>
      cases reply <;> cases hlook
      exact hsteady _ hanswers
  | cudaEvent valid =>
      cases reply <;> cases hlook
      exact hsteady _ hanswers

/-- What has been kept stays. -/
theorem Steady.keeps (h : Steady (c, answers) l) (hstep : c.step l = some c') (ha : a ∈ answers) (hfinal : a.isPending = false)
    (hkeeps : c.Keeps a) : c'.Keeps a := by
  have hsteady := h a ha hfinal
  cases l with
  | query reply | wait reply _ =>
      obtain ⟨⟨state, c''⟩, hlook, rfl⟩ := Option.map_eq_some_iff.mp hstep
      exact (look_of_keeps hkeeps hfinal hlook).1
  | complete =>
      cases c <;> cases hstep
      exact (hsteady.1 rfl).symm
  | fail error =>
      cases c <;> cases hstep
      exact (hsteady.2 error rfl).symm

/-! ## Runs -/

/-- The answers agree, and the completion has kept the final ones. -/
structure Settled (s : NativeCompletion × List CompletionState) : Prop where
  sticky : SameBehindFinal s.2
  keeps : ∀ a ∈ s.2, a.isPending = false → s.1.Keeps a

theorem Settled.step {s t : NativeCompletion × List CompletionState} (h : Settled s) (hst : Restrict CompletionStep Steady s l t) :
    Settled t := by
  obtain ⟨c, answers⟩ := s
  obtain ⟨c', answers'⟩ := t
  obtain ⟨⟨hstep, hrecord⟩, hsteady⟩ := hst
  have hkeeps : ∀ a ∈ answers, a.isPending = false → c'.Keeps a :=
    fun a ha hfinal => hsteady.keeps hstep ha hfinal (h.keeps a ha hfinal)
  change answers' = c.record l answers at hrecord
  cases hanswer : c.answer l with
  | none =>
      rw [NativeCompletion.record, hanswer] at hrecord
      subst hrecord
      exact ⟨h.sticky, hkeeps⟩
  | some state =>
      rw [NativeCompletion.record, hanswer] at hrecord
      subst hrecord
      refine ⟨⟨fun a ha hfinal => hsteady.answer h.keeps hanswer ha hfinal, h.sticky⟩, fun a ha hfinal => ?_⟩
      rcases List.mem_cons.mp ha with rfl | ha
      · obtain ⟨reply, c'', -, hlook, hstep'⟩ := answer_some hanswer
        obtain rfl : c' = c'' := Option.some.inj (hstep.symm.trans hstep')
        exact keeps_of_look hlook hfinal
      · exact hkeeps a ha hfinal

/-- In every run whose replies are steady the answers behind a final one are all the same. -/
theorem sticky_of_steady {c : NativeCompletion} {ls : List CompletionLabel} {s : NativeCompletion × List CompletionState}
    (hrun : Run (Restrict CompletionStep Steady) (c, []) ls s) : SameBehindFinal s.2 :=
  (hrun.invariant (I := Settled) ⟨trivial, fun _ ha => absurd ha List.not_mem_nil⟩ fun h hst => h.step hst).sticky

/-- A VA surface that is done, and then reported with an error. -/
theorem sticky_vaSurface : SameBehindFinal [CompletionState.complete, .complete, .pending] := by
  have busy : Restrict CompletionStep Steady (.vaSurface true none, []) (.query (.va kVaTimedOut)) (.vaSurface true none, [.pending]) :=
    ⟨⟨rfl, rfl⟩, fun _ _ _ => trivial⟩
  have done : Restrict CompletionStep Steady (.vaSurface true none, [.pending]) (.query (.va kVaSuccess))
      (.vaSurface true (some .complete), [.complete, .pending]) := ⟨⟨rfl, rfl⟩, fun _ _ _ => trivial⟩
  have error : Restrict CompletionStep Steady (.vaSurface true (some .complete), [.complete, .pending]) (.wait (.va 1) true)
      (.vaSurface true (some .complete), [.complete, .complete, .pending]) := ⟨⟨rfl, rfl⟩, fun _ _ _ => trivial⟩
  exact sticky_of_steady (.snoc (.snoc (.snoc .nil busy) done) error)

theorem not_sticky_pending : ¬ SameBehindFinal [CompletionState.pending, .complete] := fun h =>
  absurd (h.1 .complete List.mem_cons_self rfl) (by decide)

/-- A callback and a CUDA event that are done and then not done are reported so, and a manual completion that has failed can be
completed. -/
theorem answers_flip :
    (∃ ls s, Run CompletionStep (.callback, []) ls s ∧ ¬ SameBehindFinal s.2) ∧
    (∃ ls s, Run CompletionStep (.cudaEvent true, []) ls s ∧ ¬ SameBehindFinal s.2) ∧
    ∃ ls s, Run CompletionStep (.manual .pending, []) ls s ∧ ¬ SameBehindFinal s.2 := by
  have callback₁ : CompletionStep (.callback, []) (.query (.caller (.returned .ok 1))) (.callback, [.complete]) := ⟨rfl, rfl⟩
  have callback₂ : CompletionStep (.callback, [.complete]) (.query (.caller (.returned .ok 0))) (.callback, [.pending, .complete]) :=
    ⟨rfl, rfl⟩
  have event₁ : CompletionStep (.cudaEvent true, []) (.query (.cuda ⟨true, .success, true⟩)) (.cudaEvent true, [.complete]) := ⟨rfl, rfl⟩
  have event₂ : CompletionStep (.cudaEvent true, [.complete]) (.wait (.cuda ⟨true, .errorNotReady, true⟩) true)
      (.cudaEvent true, [.pending, .complete]) := ⟨rfl, rfl⟩
  have manual₁ : CompletionStep (.manual .pending, []) (.fail "stopped") (.manual (failure "stopped"), []) := ⟨rfl, rfl⟩
  have manual₂ : CompletionStep (.manual (failure "stopped"), []) (.query .manual) (.manual (failure "stopped"), [failure "stopped"]) :=
    ⟨rfl, rfl⟩
  have manual₃ : CompletionStep (.manual (failure "stopped"), [failure "stopped"]) .complete
      (.manual .complete, [failure "stopped"]) := ⟨rfl, rfl⟩
  have manual₄ : CompletionStep (.manual .complete, [failure "stopped"]) (.wait .manual false)
      (.manual .complete, [.complete, failure "stopped"]) := ⟨rfl, rfl⟩
  refine ⟨⟨_, _, .snoc (.snoc .nil callback₁) callback₂, not_sticky_pending⟩,
    ⟨_, _, .snoc (.snoc .nil event₁) event₂, not_sticky_pending⟩,
    _, _, .snoc (.snoc (.snoc (.snoc .nil manual₁) manual₂) manual₃) manual₄, fun h => ?_⟩
  exact absurd (h.1 (failure "stopped") List.mem_cons_self rfl) nofun

end MkvCodec.Gpu
