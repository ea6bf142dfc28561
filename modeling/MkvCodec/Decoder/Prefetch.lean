import MkvCodec.Decoder.State

/-!
# Decoders: reading with and without prefetch

The critical sections of `decoder_prefetch.cpp`, with the synchronous read of `decoder_sync_read.cpp` and the
dispatch of `decoder_pipeline.cpp`. A read of the backend is one step: nothing else uses the backend meanwhile.
-/

namespace MkvCodec.Decoder

open Concurrency

variable {F B X : Type*} (backend : Backend F B X) (capacity : Nat)

/-! ## The prefetch worker -/

abbrev WorkerSection (F B : Type*) := Outcome (MkvcDecoder F B) (WorkerPc F) Cond

def workerReturn (a : MkvcDecoder F B) : WorkerSection F B := ⟨{ a with workerExited := true }, .exited, [], none⟩

/-- The wait for room. -/
def workerWait (a : MkvcDecoder F B) : WorkerSection F B :=
  if !(a.stopRequested || decide (a.queue.length < capacity)) then ⟨a, .wait, [], some .notFull⟩
  else if a.stopRequested then workerReturn a
  else ⟨a, .read, [], none⟩

/-- The worker has come to an end with a result, which every later read is going to return. -/
def workerFinish (status : Status) (a : MkvcDecoder F B) : WorkerSection F B :=
  ⟨{ a with
      workerResult := status.result, workerError := status.error, workerFinished := true
      workerExited := true }, .exited, [.notEmpty], none⟩

/-- The section after a read of the backend. The exception handlers do not look at `stop_requested`. -/
def workerRecord (ended : ReadEnd F) (a : MkvcDecoder F B) : WorkerSection F B :=
  match ended with
  | .threw what => workerFinish (guard "unknown decoder prefetch failure" what) a
  | .frame frame =>
      if a.stopRequested then workerReturn a
      else ⟨{ a with queue := a.queue ++ [frame] }, .wait, [.notEmpty], none⟩
  | .ended status _ => if a.stopRequested then workerReturn a else workerFinish status a

def workerAct (e : Choice X) (a : MkvcDecoder F B) (w : WorkerPc F) : Option (WorkerSection F B) :=
  match w, e with
  | .wait, .run => some (workerWait capacity a)
  | .read, .backend answers =>
      (backend.read answers a.backend).map fun (ended, b) =>
        ⟨{ a with backend := b, reads := a.reads ++ [ended] }, .record ended, [], none⟩
  | .record ended, .run => some (workerRecord ended a)
  | _, _ => none

/-! ## The threads of the application -/

/-- The outcome of a section, with what the call returns if it is its last. -/
structure Section (F B : Type*) where
  shared : MkvcDecoder F B
  pc : ClientPc
  returned : Option (ReadReturn F)
  closed : Option Status
  notify : List Cond
  sleep : Option Cond

def goto (a : MkvcDecoder F B) (pc : ClientPc) (notify : List Cond) : Section F B := ⟨a, pc, none, none, notify, none⟩

def reply (a : MkvcDecoder F B) (r : ReadReturn F) (notify : List Cond) : Section F B :=
  ⟨a, .idle, some r, none, notify, none⟩

def closing : Status := ⟨.errorInvalidState, "decoder is closing"⟩

def readPrefetched (a : MkvcDecoder F B) : Section F B :=
  if !(a.stopRequested || !a.queue.isEmpty || a.workerFinished) then
    ⟨a, .readPrefetched, none, none, [], some .notEmpty⟩
  else if a.stopRequested then reply a (.failed closing) []
  else
    match a.queue with
    | frame :: rest => reply { a with queue := rest } (.frame frame) [.notFull]
    | [] => reply a (.failed ⟨a.workerResult, a.workerError⟩) []

/-- `read_cpu_sync`, in the guard of the C ABI. -/
def readCpuSync (ended : ReadEnd F) (b : B) (a : MkvcDecoder F B) : Section F B :=
  reply { a with backend := b, reads := a.reads ++ [ended] } (ended.returned "unknown decoder read failure") []

/-- The first section of `stop_prefetch`. -/
def stopRequest (a : MkvcDecoder F B) : Section F B :=
  goto { a with stopRequested := true } .stopJoin [.notEmpty, .notFull]

def stopClear (a : MkvcDecoder F B) : Section F B := goto { a with queue := [] } .closeBackend []

def closeBackend (a : MkvcDecoder F B) : Section F B :=
  ⟨{ a with backend := (backend.close a.backend).2 }, .idle, none, some (backend.close a.backend).1, [], none⟩

def clientSection (a : MkvcDecoder F B) : ClientPc → Option (Section F B)
  | .readPrefetched => some (readPrefetched a)
  | .stopRequest => some (stopRequest a)
  | .stopJoin => if a.workerExited then some (goto a .stopClear []) else none
  | .stopClear => some (stopClear a)
  | .closeBackend => some (closeBackend backend a)
  | .idle | .readCpuSync => none

/-- The first section of `read_cpu` or of `close`. -/
def Party.entry (party : Party) : ClientPc :=
  match party with
  | .reader => if 0 < capacity then .readPrefetched else .readCpuSync
  | .closer => if capacity = 0 then .closeBackend else .stopRequest

def clientAct (e : Choice X) (a : MkvcDecoder F B) (k : Client F) : Option (Outcome (MkvcDecoder F B) (Client F) Cond) :=
  let inside (o : Section F B) : Outcome (MkvcDecoder F B) (Client F) Cond :=
    ⟨o.shared,
      { k with pc := o.pc, returns := k.returns ++ o.returned.toList, closes := k.closes ++ o.closed.toList },
      o.notify, o.sleep⟩
  match e, k.pc with
  | .call, .idle => some ⟨a, { k with pc := k.party.entry capacity }, [], none⟩
  | .backend answers, .readCpuSync =>
      (backend.read answers a.backend).map fun (ended, b) => inside (readCpuSync ended b a)
  | .run, pc => (clientSection backend a pc).map inside
  | _, _ => none

/-! ## The whole system -/

/-- One decoder with its prefetch worker. -/
def program : Program (MkvcDecoder F B) (WorkerPc F) (Client F) Cond (Choice X) :=
  ⟨workerAct backend capacity, clientAct backend capacity⟩

def MkvcDecoder.init (b : B) : MkvcDecoder F B :=
  { backend := b, queue := [], stopRequested := false, workerFinished := false, workerResult := .ok,
    workerError := "", workerExited := false, reads := [] }

abbrev DecoderState (F B : Type*) := State (MkvcDecoder F B) (WorkerPc F) (Client F) Cond Party

abbrev DecoderLabel (X : Type*) := Label Party (Choice X)

/-- A new decoder. The worker runs if the decoder prefetches. -/
def DecoderState.init (b : B) : DecoderState F B :=
  { shared := .init b, worker := if 0 < capacity then .wait else .notStarted,
    client := fun party => ⟨party, .idle, [], []⟩, workerSleep := none, sleep := fun _ => none }

abbrev Step (s : DecoderState F B) (l : DecoderLabel X) (t : DecoderState F B) : Prop :=
  (program backend capacity).Step s l t

/-- The runs of a new decoder over a backend in state `b`. -/
abbrev DecoderRun (b : B) (ls : List (DecoderLabel X)) (s : DecoderState F B) : Prop :=
  Run (Step backend capacity) (DecoderState.init capacity b) ls s

/-- What the reads have returned. -/
abbrev returns (s : DecoderState F B) : List (ReadReturn F) := (s.client .reader).returns

/-- A backend whose reads end as given, one after the other. -/
def Backend.scripted (ends : Nat → ReadEnd F) : Backend F Nat Unit :=
  ⟨fun _ n => some (ends n, n + 1), fun n => (.ok, n)⟩

end MkvCodec.Decoder
