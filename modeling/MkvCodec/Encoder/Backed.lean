import MkvCodec.Backend.Av1
import MkvCodec.Backend.Vp9
import MkvCodec.Encoder.Refinement

/-!
# A session with its backend

The calls of a session into an `EncoderBackend` are answered by the backend: what its libraries answer decides the
status that the session sees, or the exception. The backends of the CPU are the encoders of VP9 and AV1.
-/

namespace MkvCodec.Encoder

open Concurrency
open Backend (CpuVp9Encoder Vp9WriteAnswer Vp9CloseAnswer VpxAnswer)
open Backend (CpuAv1Encoder Av1WriteAnswer Av1FlushAnswer Av1CloseAnswer)

/-- `EncoderBackend`, as a session of the CPU calls it. `A` is what the libraries answer in a call. -/
structure EncoderBackend (B A : Type*) where
  write : B → FrameView → A → CallEnd × B
  flush : B → A → CallEnd × B
  close : B → A → CallEnd × B

/-- The answers to whichever call is made. With `threw`, what would end the call with an error throws instead: the
functions of the CPU encoders run out of memory only where they report an error or just before. -/
structure BackendAnswer (W F C : Type*) where
  write : W
  flush : F
  close : C
  threw : Option (Option String)

abbrev Vp9Answer := BackendAnswer Vp9WriteAnswer VpxAnswer Vp9CloseAnswer

abbrev Av1Answer := BackendAnswer Av1WriteAnswer Av1FlushAnswer Av1CloseAnswer

/-- The end of a call that would return `done`, and leaves `thrown` when an exception passes through it. `write` of both encoders and
`flush` of VP9 do nothing behind the place where they fail, so their exceptions leave what their errors leave. -/
def ending {E : Type*} (threw : Option (Option String)) (done : Status × E) (thrown : E) : CallEnd × E :=
  match threw with
  | some what => if done.1.result = .ok then (.returned done.1, done.2) else (.threw what, thrown)
  | none => (.returned done.1, done.2)

def vp9Backend : EncoderBackend CpuVp9Encoder Vp9Answer where
  write e frame answer :=
    let done := e.write frame answer.write
    ending answer.threw done done.2
  flush e answer :=
    let done := e.flush answer.flush
    ending answer.threw done done.2
  close e answer := ending answer.threw (e.close answer.close) (e.closeThrown answer.close)

def av1Backend : EncoderBackend CpuAv1Encoder Av1Answer where
  write e frame answer :=
    let done := e.write frame answer.write
    ending answer.threw done done.2
  flush e answer := ending answer.threw (e.flush answer.flush) (e.flushThrown answer.flush)
  close e answer := ending answer.threw (e.close answer.close) (e.closeThrown answer.close)

/-! ## The whole -/

/-- A function of the backend. -/
inductive Request
  | write (frame : FrameView)
  | flush
  | close

/-- What the worker calls next. -/
def WorkerPc.request : WorkerPc → Option Request
  | .serve (.owned frame _) => some (.write frame.view)
  | .serve (.borrowed frame _) => some (.write frame)
  | .serve (.flush _) => some .flush
  | .close _ => some .close
  | _ => none

/-- What a client of a synchronous session calls next. -/
def ClientPc.request : ClientPc → Option Request
  | .writeCpuSync frame => some (.write frame)
  | .flushSync => some .flush
  | .closeSync => some .close
  | _ => none

structure Backed (ι B : Type*) where
  session : SessionState ι
  backend : B

/-- A section of the session, or a call into the backend with what its libraries answer. -/
inductive BackedLabel (ι A : Type*)
  | session (l : SessionLabel ι)
  | worker (answer : A)
  | client (i : ι) (answer : A)

/-- Not the end of a backend call. -/
def outsideBackend {ι : Type*} : SessionLabel ι → Bool
  | .worker (.backend _) => false
  | .client _ (.backend _) => false
  | _ => true

variable {ι B A : Type*} [DecidableEq ι] {cfg : Config} {api : EncoderBackend B A}

namespace EncoderBackend

def perform (api : EncoderBackend B A) (b : B) (answer : A) : Request → CallEnd × B
  | .write frame => api.write b frame answer
  | .flush => api.flush b answer
  | .close => api.close b answer

/-- The end of a call into the backend is the end that the session sees. -/
def answer (api : EncoderBackend B A) (cfg : Config) (s : Backed ι B) (request : Option Request) (answer : A)
    (l : CallEnd → SessionLabel ι) : Option (Backed ι B) :=
  match request with
  | none => none
  | some request =>
      match api.perform s.backend answer request with
      | (ended, backend) => ((program cfg).step s.session (l ended)).map fun t => ⟨t, backend⟩

def step (api : EncoderBackend B A) (cfg : Config) (s : Backed ι B) : BackedLabel ι A → Option (Backed ι B)
  | .session l => if outsideBackend l then ((program cfg).step s.session l).map fun t => ⟨t, s.backend⟩ else none
  | .worker a => api.answer cfg s s.session.worker.request a fun ended => .worker (.backend ended)
  | .client i a => api.answer cfg s (s.session.client i).pc.request a fun ended => .client i (.backend ended)

def Step (api : EncoderBackend B A) (cfg : Config) (s : Backed ι B) (l : BackedLabel ι A) (t : Backed ι B) : Prop :=
  api.step cfg s l = some t

/-- A step of the whole is a step of the session; the backend moves by one call or stays. -/
inductive Moves (api : EncoderBackend B A) (cfg : Config) (s : Backed ι B) : BackedLabel ι A → Backed ι B → Prop
  | session {l t} (hl : outsideBackend l = true) (h : Encoder.Step cfg s.session l t) : Moves api cfg s (.session l) ⟨t, s.backend⟩
  | worker {a request t} (hr : s.session.worker.request = some request)
      (h : Encoder.Step cfg s.session (.worker (.backend (api.perform s.backend a request).1)) t) :
      Moves api cfg s (.worker a) ⟨t, (api.perform s.backend a request).2⟩
  | client {i a request t} (hr : (s.session.client i).pc.request = some request)
      (h : Encoder.Step cfg s.session (.client i (.backend (api.perform s.backend a request).1)) t) :
      Moves api cfg s (.client i a) ⟨t, (api.perform s.backend a request).2⟩

theorem Step.moves {s t : Backed ι B} {l : BackedLabel ι A} (h : api.Step cfg s l t) : api.Moves cfg s l t := by
  cases l with
  | session l =>
      simp only [Step, step] at h
      split at h
      · obtain ⟨u, hu, rfl⟩ := Option.map_eq_some_iff.mp h
        exact .session (by assumption) hu
      · cases h
  | worker a =>
      simp only [Step, step, answer] at h
      cases hr : s.session.worker.request with
      | none =>
          rw [hr] at h
          cases h
      | some request =>
          rw [hr] at h
          obtain ⟨u, hu, rfl⟩ := Option.map_eq_some_iff.mp h
          exact .worker hr hu
  | client i a =>
      simp only [Step, step, answer] at h
      cases hr : (s.session.client i).pc.request with
      | none =>
          rw [hr] at h
          cases h
      | some request =>
          rw [hr] at h
          obtain ⟨u, hu, rfl⟩ := Option.map_eq_some_iff.mp h
          exact .client hr hu

theorem Moves.session_step {s t : Backed ι B} {l : BackedLabel ι A} (h : api.Moves cfg s l t) :
    ∃ l', Encoder.Step cfg s.session l' t.session := by
  cases h with
  | session hl h => exact ⟨_, h⟩
  | worker hr h => exact ⟨_, h⟩
  | client hr h => exact ⟨_, h⟩

end EncoderBackend

end MkvCodec.Encoder
