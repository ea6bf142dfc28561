import Mathlib.Data.List.Induction
import MkvCodec.Data.Resources

/-!
# Submissions to OpenCL

`IntelOpenClRuntime.submit` and `OpenClCompletion.close` of `intel_opencl_runtime.py`. What the OpenCL calls and the source
answer is decided outside. A log says what was created and released, and whether commands were pending then.
-/

namespace MkvCodec.Python

/-! ## What a submission holds -/

/-- The shared images, numbered as they are created, the event and the lease of the source. -/
inductive ClResource
  | image (k : Nat)
  | event
  | sourceOwner
  deriving DecidableEq

/-- Enqueued commands read the images and the source. -/
def ClResource.read : ClResource → Bool
  | .event => false
  | .image _ | .sourceOwner => true

/-- `pending` says that commands of the submission are enqueued and may not have ended, and `early` that an image or the lease
was let go then. -/
structure ClLog where
  events : List (Resources.Event ClResource)
  pending : Bool
  early : Bool
  deriving DecidableEq

namespace ClLog

def empty : ClLog := ⟨[], false, false⟩

def create (log : ClLog) (r : ClResource) : ClLog := { log with events := .create r :: log.events }

def destroy (log : ClLog) (r : ClResource) : ClLog :=
  { log with events := .destroy r :: log.events, early := log.early || (log.pending && r.read) }

def enqueued (log : ClLog) : ClLog := { log with pending := true }

def drained (log : ClLog) : ClLog := { log with pending := false }

/-- `release_mem` of each image, from the last to the first. -/
def destroyImages (log : ClLog) (images : List Nat) : ClLog :=
  images.reverse.foldl (fun log k => log.destroy (.image k)) log

end ClLog

inductive OpenClError
  | runtimeError (message : String)
  | valueError (message : String)
  | raised
  deriving DecidableEq

/-- `_check`. -/
def checkResult (result : Int) (operation : String) : Option OpenClError :=
  if result ≠ 0 then some (.runtimeError s!"{operation} failed: {result}") else none

/-! ## Completions -/

/-- `OpenClCompletion`: whether its event is set, its images, and whether it has the lease of the source. -/
structure OpenClCompletion where
  event : Bool
  images : List Nat
  sourceOwner : Bool
  closed : Bool
  deriving DecidableEq

/-- What the calls of `OpenClCompletion.close` answer. The wait is `clWaitForEvents`. -/
structure ClCloseAnswer where
  wait : Int
  releaseEvent : Int
  releaseMem : Nat → Int
  ownerRaises : Bool

namespace OpenClCompletion

/-- The failures of a close behind its wait, in their order. -/
def closeFailures (c : OpenClCompletion) (answer : ClCloseAnswer) : List (Option OpenClError) :=
  checkResult answer.releaseEvent "OpenCL event release" ::
    c.images.reverse.map (fun k => checkResult (answer.releaseMem k) "OpenCL shared image release") ++
    [if answer.ownerRaises then some .raised else none]

/-- `close`, which `__del__` calls too. The first failure is raised when everything is let go. -/
def close (c : OpenClCompletion) (log : ClLog) (answer : ClCloseAnswer) :
    Option OpenClError × OpenClCompletion × ClLog :=
  if c.closed then (none, c, log)
  else
    match checkResult answer.wait "OpenCL completion wait" with
    | some error => (some error, c, log)
    | none =>
        ((c.closeFailures answer).findSome? id, ⟨false, [], false, true⟩,
          ((log.drained.destroy .event).destroyImages c.images).destroy .sourceOwner)

/-- One call of `close` after the other. -/
def closes (c : OpenClCompletion) (log : ClLog) : List ClCloseAnswer → OpenClCompletion × ClLog
  | [] => (c, log)
  | answer :: answers => (c.close log answer).2.1.closes (c.close log answer).2.2 answers

end OpenClCompletion

/-! ## Submission -/

/-- What `create_image` answers. Without an image its error code may be zero all the same. -/
inductive CreateAnswer
  | image
  | null (error : Int)
  deriving DecidableEq

/-- What the calls of `submit` answer, those of its handler included. Images and arguments are numbered. -/
structure SubmitAnswer where
  handle : Bool
  retains : Bool
  createImage : Nat → CreateAnswer
  setArgument : Nat → Int
  acquire : Int
  enqueue : Int
  release : Int
  flush : Int
  finish : Int
  ownerRaises : Bool

/-- The variables of `submit` that its handler reads. -/
structure Submission where
  images : List Nat
  acquired : Bool
  sourceOwner : Bool
  log : ClLog

abbrev Submit := EStateM OpenClError Submission

namespace Submit

def check (result : Int) (operation : String) : Submit Unit :=
  match checkResult result operation with
  | some error => throw error
  | none => pure ()

/-- `_image`, with the assignment behind it. -/
def image (k : Nat) : CreateAnswer → Submit Unit
  | .null error => do
      check error "OpenCL VA image sharing"
      throw (.runtimeError "OpenCL returned a null shared image")
  | .image => modify fun s => { s with images := s.images ++ [k], log := s.log.create (.image k) }

def images (a : SubmitAnswer) : Submit Unit := do
  image 0 (a.createImage 0)
  image 1 (a.createImage 1)
  image 2 (a.createImage 2)

def setArguments (a : SubmitAnswer) (operation : String) : List Nat → Submit Unit
  | [] => pure ()
  | index :: rest => do
      check (a.setArgument index) operation
      setArguments a operation rest

def checkCoefficients (coefficients : List Float) : Submit Unit :=
  if coefficients.length ≠ 6 then throw (.valueError "RGB conversion requires six coefficients") else pure ()

def arguments (coefficients : List Float) (a : SubmitAnswer) : Submit Unit := do
  setArguments a "OpenCL image argument" [0, 1, 2]
  checkCoefficients coefficients
  setArguments a "OpenCL coefficient argument" [3, 4, 5, 6, 7, 8]
  check (a.setArgument 9) "OpenCL channel-order argument"
  check (a.setArgument 10) "OpenCL channel-count argument"

def commands (a : SubmitAnswer) : Submit OpenClCompletion := do
  check a.acquire "OpenCL VA image acquire"
  modify fun s => { s with acquired := true, log := s.log.enqueued }
  check a.enqueue "OpenCL fused RGB enqueue"
  check a.release "OpenCL VA image release enqueue"
  modify fun s => { s with acquired := false, log := s.log.create .event }
  check a.flush "OpenCL queue flush"
  let s ← get
  set { s with sourceOwner := false }
  return ⟨true, s.images, s.sourceOwner, false⟩

/-- The body of the `try`. -/
def body (coefficients : List Float) (a : SubmitAnswer) : Submit OpenClCompletion := do
  images a
  arguments coefficients a
  commands a

/-- The handler. The results of its OpenCL calls are not read. -/
def unwind (a : SubmitAnswer) (error : OpenClError) (s : Submission) : OpenClError × ClLog :=
  let log := if s.acquired && decide (a.finish = 0) then s.log.drained else s.log
  let log := log.destroyImages s.images
  if s.sourceOwner then (if a.ownerRaises then .raised else error, log.destroy .sourceOwner) else (error, log)

end Submit

/-- The variables behind `source.retain()`. -/
def Submission.start : Submission := ⟨[], false, true, ClLog.empty.create .sourceOwner⟩

/-- `IntelOpenClRuntime.submit`. -/
def submit (closed : Bool) (coefficients : List Float) (a : SubmitAnswer) : Except OpenClError OpenClCompletion × ClLog :=
  if closed then (.error (.runtimeError "Intel OpenCL runtime is closed"), .empty)
  else if !a.handle || !a.retains then (.error .raised, .empty)
  else
    match (Submit.body coefficients a).run .start with
    | .ok completion s => (.ok completion, s.log)
    | .error error s => (.error (Submit.unwind a error s).1, (Submit.unwind a error s).2)

/-! ## What is expected -/

/-- Whatever was created once is owned, or was released once. -/
def ClLog.Accounted (log : ClLog) (owns : ClResource → Bool) : Prop :=
  ∀ r, log.events.count (.create r) ≤ 1 ∧ log.events.count (.destroy r) + (owns r).toNat = log.events.count (.create r)

def OpenClCompletion.owns (c : OpenClCompletion) : ClResource → Bool
  | .image k => c.images.contains k
  | .event => c.event
  | .sourceOwner => c.sourceOwner

/-- What some calls of `close` leave: the completion owns what it has owned, up to the first close that gets behind its wait,
and that one releases it. -/
structure OpenClCompletion.Closes (c : OpenClCompletion) (answers : List ClCloseAnswer) (out : OpenClCompletion × ClLog) :
    Prop where
  accounted : out.2.Accounted out.1.owns
  calm : out.2.early = false
  owns : ∀ r, out.1.owns r = (c.owns r && answers.all fun answer => decide (answer.wait ≠ 0))

/-- A failed submission has released everything. Behind one that has returned the completion owns everything, and
its closes release it. Nothing is let go while commands are pending. -/
inductive Straight : Except OpenClError OpenClCompletion × ClLog → Prop
  | failed {error : OpenClError} {log : ClLog} : log.Accounted (fun _ => false) → log.early = false →
      Straight (.error error, log)
  | returned {c : OpenClCompletion} {log : ClLog} : log.Accounted c.owns →
      (∀ r, .create r ∈ log.events → c.owns r = true) → log.early = false → (∀ answers, c.Closes answers (c.closes log answers)) →
      Straight (.ok c, log)

/-- The calls in front of the first command succeed. -/
def SubmitAnswer.Ready (a : SubmitAnswer) (closed : Bool) (coefficients : List Float) : Prop :=
  closed = false ∧ a.handle = true ∧ a.retains = true ∧ (∀ k < 3, a.createImage k = .image) ∧
    (∀ index < 11, a.setArgument index = 0) ∧ coefficients.length = 6

/-! ## The log -/

section

open Resources

def Independent (_ _ : ClResource) : Prop := False

variable {log : ClLog} {owned : List ClResource} {images : List Nat}

theorem accounted_of_holds {owns : ClResource → Bool} (h : Holds Independent log.events owned)
    (howns : ∀ r, owns r = true ↔ r ∈ owned) : log.Accounted owns := by
  intro r
  have hnodup : log.events.Nodup := h.legal.nodup fun _ _ hallowed => hallowed.new
  refine ⟨List.nodup_iff_count_le_one.mp hnodup _, ?_⟩
  by_cases hr : .create r ∈ log.events
  · rw [List.count_eq_one_of_mem hnodup hr]
    rcases h.owned_or_destroyed hr with ⟨hmem, hcount⟩ | ⟨hmem, hcount⟩
    · rw [hcount, (howns r).mpr hmem]
      rfl
    · rw [hcount, Bool.eq_false_iff.mpr (mt (howns r).mp hmem)]
      rfl
  · have hout := not_or.mp (mt (h.created_iff r).mpr hr)
    rw [List.count_eq_zero.mpr hr, List.count_eq_zero.mpr hout.2, Bool.eq_false_iff.mpr (mt (howns r).mp hout.1)]
    rfl

@[simp] theorem ClLog.destroyImages_nil : log.destroyImages [] = log := rfl

theorem ClLog.destroyImages_append (k : Nat) :
    log.destroyImages (images ++ [k]) = (log.destroy (.image k)).destroyImages images := by
  simp [destroyImages]

theorem ClLog.destroyImages_pending : (log.destroyImages images).pending = log.pending := by
  induction images using List.reverseRecOn generalizing log with
  | nil => rfl
  | append_singleton images k ih => rw [destroyImages_append, ih]; rfl

theorem ClLog.destroyImages_early :
    (log.destroyImages images).early = (log.early || (log.pending && !images.isEmpty)) := by
  induction images using List.reverseRecOn generalizing log with
  | nil => simp
  | append_singleton images k ih =>
      rw [destroyImages_append, ih]
      cases hearly : log.early <;> cases hpending : log.pending <;> simp [destroy, ClResource.read, hearly, hpending]

theorem ClLog.destroyImages_holds (h : Holds Independent log.events (images.map .image ++ owned)) :
    Holds Independent (log.destroyImages images).events owned := by
  induction images using List.reverseRecOn generalizing log with
  | nil => exact h
  | append_singleton images k ih =>
      rw [destroyImages_append]
      refine ih (Holds.destroy (h.perm ?_) (fun _ _ => id) id)
      simp [List.perm_middle]

end

/-! ## Completions -/

namespace OpenClCompletion

open Resources

variable {c : OpenClCompletion} {log : ClLog} {answer : ClCloseAnswer}

theorem close_of_closed (h : c.closed = true) : c.close log answer = (none, c, log) := by rw [close, if_pos h]

theorem close_waits (h : c.closed = false) (hwait : answer.wait ≠ 0) : (c.close log answer).2 = (c, log) := by
  rw [close, h, checkResult, if_pos hwait]
  rfl

/-- A close behind its wait lets everything go. -/
theorem close_lets_go (h : c.closed = false) (hwait : answer.wait = 0) : (c.close log answer).2 =
    (⟨false, [], false, true⟩, ((log.drained.destroy .event).destroyImages c.images).destroy .sourceOwner) := by
  rw [close, h, checkResult, hwait]
  rfl

/-- Nothing is left for the calls behind the close that lets everything go. -/
theorem closes_released {c : OpenClCompletion} {log : ClLog} (hclosed : c.closed = true) (answers : List ClCloseAnswer) :
    c.closes log answers = (c, log) := by
  induction answers with
  | nil => rfl
  | cons answer answers ih => rw [closes, close_of_closed hclosed, ih]

theorem closes_held {images : List Nat} {log : ClLog} {answers : List ClCloseAnswer}
    (hheld : Holds Independent log.events (.event :: (images.map .image ++ [.sourceOwner]))) (hearly : log.early = false) :
    (OpenClCompletion.mk true images true false).Closes answers
      ((OpenClCompletion.mk true images true false).closes log answers) := by
  induction answers with
  | nil =>
      refine ⟨accounted_of_holds hheld ?_, hearly, by simp [closes]⟩
      intro r
      cases r <;> simp [closes, owns]
  | cons answer answers ih =>
      by_cases hwait : answer.wait = 0
      · rw [closes, close_lets_go rfl hwait, closes_released rfl]
        have hevent : Holds Independent (log.drained.destroy .event).events (images.map .image ++ [.sourceOwner]) :=
          hheld.destroy (fun _ _ => id) id
        have himages := (ClLog.destroyImages_holds hevent).destroy (fun _ _ => id) id
        refine ⟨accounted_of_holds himages ?_, ?_, ?_⟩
        · intro r
          cases r <;> simp [owns]
        · simp [ClLog.destroy, ClLog.destroyImages_early, ClLog.destroyImages_pending, ClLog.drained, hearly]
        · intro r
          cases r <;> simp [owns, hwait]
      · rw [closes, close_waits rfl hwait]
        obtain ⟨haccounted, hcalm, howns⟩ := ih
        exact ⟨haccounted, hcalm, by simpa [hwait] using howns⟩

end OpenClCompletion

/-! ## Submissions -/

/-- `submit` behind `k` images. -/
def Submission.created : Nat → Submission
  | 0 => .start
  | k + 1 => { created k with images := (created k).images ++ [k], log := (created k).log.create (.image k) }

namespace Submit

variable {α β : Type} {m : Submit α} {f : α → Submit β} {x : α} {error : OpenClError} {s s' : Submission}
  {a : SubmitAnswer} {coefficients : List Float}

theorem run_bind_ok (h : m.run s = .ok x s') : (m >>= f).run s = (f x).run s' := by
  simp only [EStateM.run] at h
  simp only [EStateM.run, bind, EStateM.bind, h]

theorem run_bind_error (h : m.run s = .error error s') : (m >>= f).run s = .error error s' := by
  simp only [EStateM.run] at h
  simp only [EStateM.run, bind, EStateM.bind, h]

/-- A program that goes through under a condition and raises otherwise, and changes nothing. -/
def Checks (m : Submit Unit) (p : Prop) : Prop :=
  ∀ s, p ∧ m.run s = .ok () s ∨ ¬ p ∧ ∃ error, m.run s = .error error s

theorem Checks.bind {m m' : Submit Unit} {p p' : Prop} (h : Checks m p) (h' : Checks m' p') :
    Checks (do m; m') (p ∧ p') := by
  intro s
  rcases h s with ⟨hp, hrun⟩ | ⟨hp, error, hrun⟩
  · rw [run_bind_ok hrun]
    rcases h' s with ⟨hp', hrun'⟩ | ⟨hp', herror⟩
    · exact .inl ⟨⟨hp, hp'⟩, hrun'⟩
    · exact .inr ⟨fun h => hp' h.2, herror⟩
  · exact .inr ⟨fun h => hp h.1, error, run_bind_error hrun⟩

theorem checks_check (result : Int) (operation : String) : Checks (check result operation) (result = 0) := by
  intro s
  by_cases h : result = 0
  · exact .inl ⟨h, by rw [check, checkResult, if_neg (not_not_intro h)]; rfl⟩
  · exact .inr ⟨h, _, by rw [check, checkResult, if_pos h]; rfl⟩

theorem checks_setArguments (operation : String) (indices : List Nat) :
    Checks (setArguments a operation indices) (∀ index ∈ indices, a.setArgument index = 0) := by
  induction indices with
  | nil => exact fun s => .inl ⟨by simp, rfl⟩
  | cons index indices ih =>
      simpa [setArguments] using (checks_check (a.setArgument index) operation).bind ih

theorem checks_coefficients : Checks (checkCoefficients coefficients) (coefficients.length = 6) := by
  intro s
  by_cases h : coefficients.length = 6
  · exact .inl ⟨h, by rw [checkCoefficients, if_neg (not_not_intro h)]; rfl⟩
  · exact .inr ⟨h, _, by rw [checkCoefficients, if_pos h]; rfl⟩

theorem checks_arguments (coefficients : List Float) (a : SubmitAnswer) : Checks (arguments coefficients a)
    ((∀ index < 11, a.setArgument index = 0) ∧ coefficients.length = 6) := by
  have hall : Checks (arguments coefficients a) _ := (checks_setArguments "OpenCL image argument" [0, 1, 2]).bind
    (checks_coefficients.bind ((checks_setArguments "OpenCL coefficient argument" [3, 4, 5, 6, 7, 8]).bind
      ((checks_check (a.setArgument 9) "OpenCL channel-order argument").bind
        (checks_check (a.setArgument 10) "OpenCL channel-count argument"))))
  have hiff : ((∀ index < 11, a.setArgument index = 0) ∧ coefficients.length = 6) ↔
      (∀ index ∈ [0, 1, 2], a.setArgument index = 0) ∧ coefficients.length = 6 ∧
        (∀ index ∈ [3, 4, 5, 6, 7, 8], a.setArgument index = 0) ∧ a.setArgument 9 = 0 ∧ a.setArgument 10 = 0 := by
    constructor
    · rintro ⟨h, hlength⟩
      have hfirst : ∀ index ∈ [0, 1, 2], index < 11 := by decide
      have hnext : ∀ index ∈ [3, 4, 5, 6, 7, 8], index < 11 := by decide
      exact ⟨fun index hi => h index (hfirst index hi), hlength, fun index hi => h index (hnext index hi),
        h 9 (by decide), h 10 (by decide)⟩
    · rintro ⟨hfirst, hlength, hnext, h9, h10⟩
      refine ⟨fun index hi => ?_, hlength⟩
      obtain hmem | hmem | rfl | rfl :
          index ∈ [0, 1, 2] ∨ index ∈ [3, 4, 5, 6, 7, 8] ∨ index = 9 ∨ index = 10 := by
        simp only [List.mem_cons, List.not_mem_nil, or_false]
        omega
      · exact hfirst index hmem
      · exact hnext index hmem
      · exact h9
      · exact h10
  rw [hiff]
  exact hall

/-- The image `k` is created, or the call raises. -/
theorem run_image (k : Nat) :
    a.createImage k = .image ∧ (image k (a.createImage k)).run (.created k) = .ok () (.created (k + 1)) ∨
    a.createImage k ≠ .image ∧ ∃ error, (image k (a.createImage k)).run (.created k) = .error error (.created k) := by
  cases ha : a.createImage k with
  | image => exact .inl ⟨rfl, rfl⟩
  | null error =>
      refine .inr ⟨nofun, ?_⟩
      rcases checks_check error "OpenCL VA image sharing" (.created k) with ⟨-, hrun⟩ | ⟨-, error', hrun⟩
      · exact ⟨_, by rw [image, run_bind_ok hrun]; rfl⟩
      · exact ⟨error', by rw [image, run_bind_error hrun]⟩

/-- Three images are created, or fewer and the program raises. -/
theorem run_images : ((∀ k < 3, a.createImage k = .image) ∧ (images a).run (.created 0) = .ok () (.created 3)) ∨
    (¬ ∀ k < 3, a.createImage k = .image) ∧ ∃ k error, (images a).run (.created 0) = .error error (.created k) := by
  rcases run_image (a := a) 0 with ⟨h0, hrun0⟩ | ⟨h0, error, hrun0⟩
  · rw [images, run_bind_ok hrun0]
    rcases run_image (a := a) 1 with ⟨h1, hrun1⟩ | ⟨h1, error, hrun1⟩
    · rw [run_bind_ok hrun1]
      rcases run_image (a := a) 2 with ⟨h2, hrun2⟩ | ⟨h2, error, hrun2⟩
      · refine .inl ⟨?_, hrun2⟩
        intro k hk
        obtain rfl | rfl | rfl : k = 0 ∨ k = 1 ∨ k = 2 := by omega
        · exact h0
        · exact h1
        · exact h2
      · exact .inr ⟨fun h => h2 (h 2 (by decide)), 2, error, hrun2⟩
    · exact .inr ⟨fun h => h1 (h 1 (by decide)), 1, error, run_bind_error hrun1⟩
  · exact .inr ⟨fun h => h0 (h 0 (by decide)), 0, error, run_bind_error hrun0⟩

/-- How the commands end. -/
inductive CommandsEnd (a : SubmitAnswer) : EStateM.Result OpenClError Submission OpenClCompletion → Prop
  | rejected {error : OpenClError} : a.acquire ≠ 0 → CommandsEnd a (.error error (.created 3))
  | interrupted {error : OpenClError} : a.acquire = 0 → ¬ (a.enqueue = 0 ∧ a.release = 0) →
      CommandsEnd a (.error error ⟨[0, 1, 2], true, true, (Submission.created 3).log.enqueued⟩)
  | unflushed {error : OpenClError} : a.acquire = 0 → a.enqueue = 0 ∧ a.release = 0 → a.flush ≠ 0 →
      CommandsEnd a (.error error ⟨[0, 1, 2], false, true, (Submission.created 3).log.enqueued.create .event⟩)
  | returned : a.acquire = 0 → a.enqueue = 0 ∧ a.release = 0 → a.flush = 0 →
      CommandsEnd a (.ok ⟨true, [0, 1, 2], true, false⟩
        ⟨[0, 1, 2], false, false, (Submission.created 3).log.enqueued.create .event⟩)

theorem run_commands : CommandsEnd a ((commands a).run (.created 3)) := by
  rcases checks_check a.acquire "OpenCL VA image acquire" (.created 3) with ⟨hacquire, hrun⟩ | ⟨hacquire, error, hrun⟩
  · rw [commands, run_bind_ok hrun]
    generalize hs : (⟨[0, 1, 2], true, true, (Submission.created 3).log.enqueued⟩ : Submission) = s
    rw [run_bind_ok (show _ = EStateM.Result.ok () s by rw [← hs]; rfl)]
    rcases checks_check a.enqueue "OpenCL fused RGB enqueue" s with ⟨henqueue, hrun⟩ | ⟨henqueue, error, hrun⟩
    · rw [run_bind_ok hrun]
      rcases checks_check a.release "OpenCL VA image release enqueue" s with ⟨hrelease, hrun⟩ | ⟨hrelease, error, hrun⟩
      · rw [run_bind_ok hrun]
        generalize hs' : (⟨[0, 1, 2], false, true, (Submission.created 3).log.enqueued.create .event⟩ : Submission) = s'
        rw [run_bind_ok (show _ = EStateM.Result.ok () s' by rw [← hs, ← hs']; rfl)]
        rcases checks_check a.flush "OpenCL queue flush" s' with ⟨hflush, hrun⟩ | ⟨hflush, error, hrun⟩
        · rw [run_bind_ok hrun, ← hs']
          exact .returned hacquire ⟨henqueue, hrelease⟩ hflush
        · rw [run_bind_error hrun, ← hs']
          exact .unflushed hacquire ⟨henqueue, hrelease⟩ hflush
      · rw [run_bind_error hrun, ← hs]
        exact .interrupted hacquire fun h => hrelease h.2
    · rw [run_bind_error hrun, ← hs]
      exact .interrupted hacquire fun h => henqueue h.1
  · rw [commands, run_bind_error hrun]
    exact .rejected hacquire

open Resources

theorem created_events {k : Nat} {event : Event ClResource} (h : event ∈ (Submission.created k).log.events) :
    (∃ i < k, event = .create (.image i)) ∨ event = .create .sourceOwner := by
  induction k with
  | zero => exact .inr (List.mem_singleton.mp h)
  | succ k ih =>
      rcases List.mem_cons.mp h with rfl | h
      · exact .inl ⟨k, Nat.lt_succ_self k, rfl⟩
      · rcases ih h with ⟨i, hi, rfl⟩ | rfl
        · exact .inl ⟨i, Nat.lt_succ_of_lt hi, rfl⟩
        · exact .inr rfl

/-- The images and the lease are there. -/
theorem created_holds (k : Nat) : Holds Independent (Submission.created k).log.events
    ((Submission.created k).images.map .image ++ [.sourceOwner]) := by
  induction k with
  | zero => exact Holds.nil.create (by simp)
  | succ k ih =>
      have hnew : .create (.image k) ∉ (Submission.created k).log.events := by
        intro h
        rcases created_events h with ⟨i, hi, heq⟩ | heq
        · cases heq
          exact Nat.lt_irrefl k hi
        · cases heq
      refine (ih.create hnew).perm ?_
      rw [Submission.created, List.map_append, List.append_assoc]
      exact List.perm_middle.symm

theorem created_state (k : Nat) : (Submission.created k).acquired = false ∧ (Submission.created k).sourceOwner = true ∧
    (Submission.created k).log.pending = false ∧ (Submission.created k).log.early = false := by
  induction k with
  | zero => exact ⟨rfl, rfl, rfl, rfl⟩
  | succ k ih => exact ih

/-- The log of the handler, which the error has no part in. -/
def unwound (a : SubmitAnswer) (s : Submission) : ClLog :=
  ((if s.acquired && decide (a.finish = 0) then s.log.drained else s.log).destroyImages s.images).destroy .sourceOwner

theorem unwind_log (h : s.sourceOwner = true) : (unwind a error s).2 = unwound a s := by rw [unwind, if_pos h]; rfl

/-- The handler releases the images and the lease. -/
theorem unwound_holds {owned : List ClResource}
    (h : Holds Independent s.log.events (s.images.map .image ++ (.sourceOwner :: owned))) :
    Holds Independent (unwound a s).events owned := by
  rw [unwound]
  refine Holds.destroy (ClLog.destroyImages_holds ?_) (fun _ _ => id) id
  split
  · exact h
  · exact h

/-- It does so too early when commands are pending that `finish` has not waited for. -/
theorem unwound_early (hearly : s.log.early = false) :
    (unwound a s).early = (s.log.pending && !(s.acquired && decide (a.finish = 0))) := by
  rw [unwound]
  cases hfinish : s.acquired && decide (a.finish = 0) with
  | true => simp [ClLog.destroy, ClLog.destroyImages_early, ClLog.destroyImages_pending, ClLog.drained, hearly]
  | false =>
      cases hpending : s.log.pending <;>
        simp [ClLog.destroy, ClLog.destroyImages_early, ClLog.destroyImages_pending, ClResource.read, hearly, hpending]

end Submit

open Resources Submit

/-- What has to hold behind the acquire: with the release enqueued the queue is flushed, and without it `finish` waits. -/
def SubmitAnswer.Drains (a : SubmitAnswer) : Prop :=
  a.acquire = 0 → if a.enqueue = 0 ∧ a.release = 0 then a.flush = 0 else a.finish = 0

variable {closed : Bool} {coefficients : List Float} {a : SubmitAnswer} {error : OpenClError} {log : ClLog} {s : Submission}

theorem Straight.calm {out : Except OpenClError OpenClCompletion × ClLog} (h : Straight out) : out.2.early = false := by
  cases h with
  | failed _ hcalm => exact hcalm
  | returned _ _ hcalm _ => exact hcalm

theorem straight_of_rejected (h : Holds Independent log.events []) (hearly : log.early = false) :
    Straight (.error error, log) :=
  .failed (accounted_of_holds h (by simp)) hearly

/-- A failure before the acquire. -/
theorem straight_of_created (k : Nat) (error' : OpenClError) :
    Straight (.error error', (unwind a error (.created k)).2) := by
  obtain ⟨hacquired, howner, hpending, hearly⟩ := created_state k
  rw [unwind_log howner]
  refine straight_of_rejected (unwound_holds (created_holds k)) ?_
  rw [unwound_early hearly, hpending]
  rfl

theorem straight_of_nothing : Straight (.error error, .empty) := straight_of_rejected Holds.nil rfl

/-- The calls that the body makes in front of the first command. -/
theorem run_body (coefficients : List Float) (a : SubmitAnswer) :
    ((∀ k < 3, a.createImage k = .image) ∧ (∀ index < 11, a.setArgument index = 0) ∧ coefficients.length = 6) ∧
      (body coefficients a).run .start = (commands a).run (.created 3) ∨
    ¬ ((∀ k < 3, a.createImage k = .image) ∧ (∀ index < 11, a.setArgument index = 0) ∧ coefficients.length = 6) ∧
      ∃ k error, (body coefficients a).run .start = .error error (.created k) := by
  rw [body]
  rcases run_images (a := a) with ⟨himages, hrun⟩ | ⟨himages, k, error, hrun⟩
  · have himagesRun := run_bind_ok (f := fun _ => do arguments coefficients a; commands a) hrun
    rcases checks_arguments coefficients a (.created 3) with ⟨harguments, hrun⟩ | ⟨harguments, error, hrun⟩
    · exact .inl ⟨⟨himages, harguments⟩, himagesRun.trans (run_bind_ok hrun)⟩
    · exact .inr ⟨fun h => harguments h.2, 3, error, himagesRun.trans (run_bind_error hrun)⟩
  · exact .inr ⟨fun h => himages h.1, k, error, run_bind_error hrun⟩

theorem submit_unready (h : ¬ a.Ready closed coefficients) : Straight (submit closed coefficients a) := by
  rw [submit]
  split
  · exact straight_of_nothing
  rename_i hclosed
  split
  · exact straight_of_nothing
  rename_i hcalls
  simp only [Bool.or_eq_true, Bool.not_eq_true', not_or, Bool.not_eq_false] at hcalls
  rcases run_body coefficients a with ⟨hready, -⟩ | ⟨-, k, error, hrun⟩
  · exact absurd ⟨Bool.eq_false_iff.mpr hclosed, hcalls.1, hcalls.2, hready⟩ h
  · rw [hrun]
    exact straight_of_created k _

theorem submit_ready (h : a.Ready closed coefficients) : submit closed coefficients a =
    match (commands a).run (.created 3) with
    | .ok completion s => (.ok completion, s.log)
    | .error error s => (.error (unwind a error s).1, (unwind a error s).2) := by
  obtain ⟨rfl, hhandle, hretains, hready⟩ := h
  rcases run_body coefficients a with ⟨-, hrun⟩ | ⟨hnot, -⟩
  · rw [← hrun, submit, hhandle, hretains]
    rfl
  · exact absurd hready hnot

/-- The images, the event and the lease behind the commands. -/
theorem commands_holds : Holds Independent ((Submission.created 3).log.enqueued.create .event).events
    (.event :: ([0, 1, 2].map .image ++ [.sourceOwner])) :=
  (created_holds 3).create (by decide)

/-- A command behind the acquire has failed, and the handler of `submit` waits for the queue. -/
theorem straight_of_interrupted_iff (error error' : OpenClError) :
    Straight (.error error', (unwind a error ⟨[0, 1, 2], true, true, (Submission.created 3).log.enqueued⟩).2) ↔
      a.finish = 0 := by
  generalize hs : (⟨[0, 1, 2], true, true, (Submission.created 3).log.enqueued⟩ : Submission) = s
  have hheld : Holds Independent s.log.events (s.images.map .image ++ [.sourceOwner]) := by
    rw [← hs]
    exact created_holds 3
  have hearly : (unwind a error s).2.early = !decide (a.finish = 0) := by
    rw [unwind_log (by rw [← hs]), unwound_early (by rw [← hs]; rfl), ← hs]
    rfl
  constructor
  · intro h
    simpa using hearly.symm.trans h.calm
  · intro hfinish
    refine straight_of_rejected ?_ (by simp [hearly, hfinish])
    rw [unwind_log (by rw [← hs])]
    exact unwound_holds hheld

/-- The completion has the event, the images and the lease. -/
theorem straight_of_returned :
    Straight (.ok ⟨true, [0, 1, 2], true, false⟩, (Submission.created 3).log.enqueued.create .event) := by
  refine .returned (accounted_of_holds commands_holds ?_) ?_ rfl fun answers => ?_
  · intro r
    cases r <;> simp [OpenClCompletion.owns]
  · intro r hr
    rcases List.mem_cons.mp hr with heq | hr
    · cases heq
      rfl
    rcases created_events hr with ⟨i, hi, heq⟩ | heq
    · cases heq
      have hmem : i ∈ [0, 1, 2] := by
        simp only [List.mem_cons, List.not_mem_nil, or_false]
        omega
      exact List.contains_iff_mem.mpr hmem
    · cases heq
      rfl
  · exact OpenClCompletion.closes_held commands_holds rfl

/-- A submission keeps its resources straight if and only if the flush behind its commands succeeds, or `finish` does where a
command has failed. -/
theorem submit_straight_iff (closed : Bool) (coefficients : List Float) (a : SubmitAnswer) :
    Straight (submit closed coefficients a) ↔ (a.Ready closed coefficients → a.Drains) := by
  by_cases hready : a.Ready closed coefficients
  · rw [submit_ready hready]
    generalize hout : (commands a).run (.created 3) = out
    have hend : CommandsEnd a out := hout ▸ run_commands
    cases hend with
    | rejected hacquire => exact iff_of_true (straight_of_created 3 _) fun _ h => absurd h hacquire
    | @interrupted error hacquire hfailed =>
        refine (straight_of_interrupted_iff error _).trans ⟨fun hfinish _ _ => ?_, fun h => ?_⟩
        · rwa [if_neg hfailed]
        · have hdrains := h hready hacquire
          rwa [if_neg hfailed] at hdrains
    | unflushed hacquire hdone hflush =>
        refine iff_of_false ?_ ?_
        · intro h
          have hcalm := h.calm
          rw [unwind_log rfl, unwound_early rfl] at hcalm
          cases hcalm
        · intro h
          have hdrains := h hready hacquire
          rw [if_pos hdone] at hdrains
          exact hflush hdrains
    | returned hacquire hdone hflush =>
        refine iff_of_true straight_of_returned fun _ _ => ?_
        rwa [if_pos hdone]
  · exact iff_of_true (submit_unready hready) fun h => absurd h hready

/-- Everything succeeds up to the flush. -/
def flushFails : SubmitAnswer where
  handle := true
  retains := true
  createImage _ := .image
  setArgument _ := 0
  acquire := 0
  enqueue := 0
  release := 0
  flush := -36
  finish := 0
  ownerRaises := false

/-- Nobody releases the event, and the images and the lease are let go while the kernel may run. -/
theorem submit_flush_fails : ∃ log, submit false (List.replicate 6 1) flushFails =
      (.error (.runtimeError "OpenCL queue flush failed: -36"), log) ∧
    log.events.count (.create .event) = 1 ∧ log.events.count (.destroy .event) = 0 ∧ log.early = true ∧
    ¬ Straight (submit false (List.replicate 6 1) flushFails) := by
  refine ⟨_, rfl, by decide, by decide, rfl, ?_⟩
  intro h
  have hcalm := h.calm
  cases hcalm

end MkvCodec.Python
