import MkvCodec.Gpu.FramePool

/-!
# Reading GPU frames from oneVPL

`IntelWebmDecoder` with its `IntelVplDecoder`: the pump, the queue of pending surfaces and the GPU output. The thread that
reads makes one step for each packet, each call of oneVPL and each collection, and a delivered frame gives its slot back
between any two of them. What oneVPL and the reader of the container answer is part of the label. The bytes of a packet
are counted only; formats and native handles are left out, and so is the output for the CPU.
-/

namespace MkvCodec.Gpu

open Concurrency SlotPool

/-! ## The queue -/

/-- A surface that the decoder puts out. -/
structure VplSurface where
  number : Nat
  timeStamp : Int
  deriving DecidableEq

/-- A frame of the pool with the surface that it keeps. -/
structure IntelFrame where
  surface : VplSurface
  slot : Nat
  generation : Nat
  deriving DecidableEq

/-- What `MFXVideoDECODE_DecodeFrameAsync` returns: it is busy, wants more data or another surface, fails, or accepts, with
a surface and a synchronization point or without. -/
inductive DecodeAnswer
  | deviceBusy
  | moreData
  | moreSurface
  | failed (status : Int) (h : status < 0 ∧ status ≠ -10 ∧ status ≠ -11)
  | accepted (surface : Option VplSurface) (sync : Bool)
  deriving DecidableEq

def DecodeAnswer.busy : DecodeAnswer → Bool
  | .deviceBusy => true
  | _ => false

/-- The surface that comes with an answer, if it can be waited for. -/
def DecodeAnswer.output : DecodeAnswer → Option VplSurface
  | .accepted surface true => surface
  | _ => none

/-- `VplDecoderQueue` with the pool of its `VplDecoderGpuOutput`. -/
structure VplDecoderQueue where
  asyncDepth : Nat
  pending : List VplSurface
  maxPending : Nat
  pool : GpuFramePool
  closed : Bool

namespace VplDecoderQueue

/-- `submit`, behind the loop that asks a busy device again. -/
def submit (q : VplDecoderQueue) (answer : DecodeAnswer) : Status × VplDecoderQueue :=
  if q.closed then (⟨.errorInvalidState, "oneVPL decoder queue is closed"⟩, q)
  else
    match answer with
    | .deviceBusy => (.ok, q)
    | .moreData => (⟨.endOfStream, ""⟩, q)
    | .moreSurface => (⟨.wouldBlock, ""⟩, q)
    | .failed status _ =>
        (⟨if status = -13 then .errorIo else .errorCodec,
          "oneVPL DecodeFrameAsync failed with status " ++ toString status⟩, q)
    | .accepted surface sync =>
        match DecodeAnswer.output (.accepted surface sync) with
        | none => (.ok, q)
        | some surface =>
            let pending := q.pending ++ [surface]
            (.ok, { q with pending := pending, maxPending := max q.maxPending (u32 pending.length) })

def poolFull : Status := ⟨.wouldBlock, "Intel GPU frame pool is full"⟩

/-- `wrap_vpl_surface`, with what it comes to before it takes a slot. -/
def wrap (q : VplDecoderQueue) (surface : VplSurface) (wrapped : Except Status Unit) :
    Status × GpuFramePool × Option IntelFrame :=
  match wrapped with
  | .error status => (status, q.pool, none)
  | .ok () =>
      match q.pool.acquire true with
      | .error status => (status, q.pool, none)
      | .ok (pool, slot, generation) => (.ok, pool, some ⟨surface, slot, generation⟩)

/-- `collect_gpu`. The frame is that of the oldest surface. -/
def collectGpu (q : VplDecoderQueue) (wrapped : Except Status Unit) : Status × VplDecoderQueue × Option IntelFrame :=
  match q.pending with
  | [] => (.ok, q, none)
  | surface :: pending =>
      if q.pool.slots.length ≤ q.pool.inUse then (poolFull, q, none)
      else
        let (status, pool, frame) := q.wrap surface wrapped
        if status.result = .wouldBlock then (status, q, none)
        else (status, { q with pending := pending, pool := pool }, frame)

/-- Frames that nobody has taken are destroyed, and their slots come back. -/
def drop (q : VplDecoderQueue) (frames : List IntelFrame) : VplDecoderQueue :=
  { q with pool := frames.foldl (fun pool frame => pool.recycle frame.slot frame.generation) q.pool }

end VplDecoderQueue

/-! ## The decoder -/

/-- `pump_packet` and `drain_queue`. -/
inductive VplPump
  | decode
  | drain
  deriving DecidableEq

/-- Where a collection returns to: the head of the loop, the test for progress behind it with the bytes that were there
before, or the last loop of `drain_queue`. -/
inductive AfterCollect
  | again
  | progress (before : Nat)
  | flush

/-- Where the thread of the decoder is: outside, at the head of the loop of `read_gpu`, before `decode_gpu` with a packet of
`size` bytes, before `submit`, or before `collect_gpu`. The frames are those that the call has collected. -/
inductive IntelReadPc
  | idle
  | loop
  | packet (size : Nat)
  | submit (pump : VplPump) (completed : List IntelFrame)
  | collect (pump : VplPump) (completed : List IntelFrame) (after : AfterCollect)

/-- `IntelWebmDecoder`. `dataLength` are the bytes of the packet that the decoder has not taken. `answer` is what the latest
call came to, `outside` are the delivered frames whose slot has not come back, `output` and `delivered` the surfaces
that oneVPL has put out and that have been returned, and `leftovers` what each call of `decode_gpu` came to with the bytes
that it left, which the next packet overwrites; the code has none of these. -/
structure IntelReader where
  queue : VplDecoderQueue
  dataLength : Nat
  initialized : Bool
  decoderDrained : Bool
  completedGpu : List IntelFrame
  demuxEos : Bool
  drained : Bool
  closed : Bool
  pc : IntelReadPc
  answer : Option Status
  outside : List IntelFrame
  output : List VplSurface
  delivered : List VplSurface
  leftovers : List (Result × Nat)

inductive IntelReadLabel
  | call
  | read (status : Status) (size : Nat)
  | initializeDecoder (header init : Int)
  | submit (answer : DecodeAnswer) (taken : Nat)
  | collect (wrapped : Except Status Unit)
  | releaseFrame (k : Nat)
  | close

namespace IntelReader

/-- A decoder with this asynchronous depth, and this many slots in its pool. -/
def init (asyncDepth capacity : Nat) : IntelReader where
  queue := ⟨asyncDepth, [], 0, .new capacity, false⟩
  dataLength := 0
  initialized := false
  decoderDrained := false
  completedGpu := []
  demuxEos := false
  drained := false
  closed := false
  pc := .idle
  answer := none
  outside := []
  output := []
  delivered := []
  leftovers := []

def returns (s : IntelReader) (status : Status) : IntelReader := { s with pc := .idle, answer := some status }

/-- `decode_gpu` or `drain_gpu` returns to `read_gpu`, which queues the frames only behind OK. -/
def finish (s : IntelReader) (pump : VplPump) (completed : List IntelFrame) (status : Status) : IntelReader :=
  let s := match pump with
    | .decode => { s with leftovers := (status.result, s.dataLength) :: s.leftovers }
    | .drain => s
  if status.result ≠ .ok then { s with queue := s.queue.drop completed }.returns status
  else
    { s with
      completedGpu := s.completedGpu ++ completed
      decoderDrained := s.decoderDrained || decide (pump = .drain)
      drained := s.drained || decide (pump = .drain)
      pc := .loop }

/-- The head of the loop of `pump_packet` or `drain_queue`. -/
def head (s : IntelReader) (pump : VplPump) (completed : List IntelFrame) : IntelReader :=
  match pump with
  | .decode => if s.dataLength = 0 then s.finish .decode completed .ok else { s with pc := .submit .decode completed }
  | .drain => { s with pc := .submit .drain completed }

/-- The end of a turn of `pump_packet`. -/
def progress (s : IntelReader) (before : Nat) (completed : List IntelFrame) : IntelReader :=
  if before ≤ s.dataLength then s.finish .decode completed .ok else s.head .decode completed

/-- The last loop of `drain_queue`. -/
def flush (s : IntelReader) (completed : List IntelFrame) : IntelReader :=
  if s.queue.pending.isEmpty then s.finish .drain completed .ok else { s with pc := .collect .drain completed .flush }

/-- The head of the loop of `read_gpu`; `status` and `size` are what the reader of the container answers, if it is asked. -/
def readGpu (s : IntelReader) (status : Status) (size : Nat) : IntelReader :=
  match s.completedGpu with
  | frame :: completedGpu =>
      { s.returns .ok with
        completedGpu := completedGpu
        outside := s.outside ++ [frame]
        delivered := s.delivered ++ [frame.surface] }
  | [] =>
      if !s.demuxEos then
        if status.result ≠ .ok ∧ status.result ≠ .endOfStream then s.returns status
        else if status.result = .endOfStream then { s with demuxEos := true }
        else { s with pc := .packet size }
      else if !s.drained then
        -- `drain_gpu` of a decoder that was never initialized does nothing
        if s.decoderDrained || !s.initialized then { s with drained := true } else { s with pc := .submit .drain [] }
      else s.returns ⟨.endOfStream, ""⟩

/-- `decode_gpu` up to its loop, with the statuses of `DecodeHeader` and `Init`. -/
def decodeGpu (s : IntelReader) (size : Nat) (header init : Int) : IntelReader :=
  if s.decoderDrained then s.returns ⟨.errorInvalidState, "oneVPL decoder is closed or drained"⟩
  else if size = 0 ∨ 2 ^ 32 ≤ size then s.returns ⟨.errorInvalidArgument, "invalid compressed packet"⟩
  else
    let s := { s with dataLength := size }
    if s.initialized then s.head .decode []
    else if header ≠ 0 then
      s.returns ⟨if header = -10 then .errorCodec else .errorNotSupported,
        "oneVPL DecodeHeader failed with status " ++ toString header⟩
    else if init < 0 then
      s.returns ⟨.errorCodec, "oneVPL video-memory decoder Init failed with status " ++ toString init⟩
    else { s with initialized := true }.head .decode []

/-- A turn of `pump_packet` behind `submit`, with the bytes that were there before. -/
def packetTurn (s : IntelReader) (completed : List IntelFrame) (before : Nat) (status : Status) : IntelReader :=
  if status.result = .wouldBlock ∧ s.queue.pending ≠ [] then { s with pc := .collect .decode completed .again }
  else if status.result ≠ .ok ∧ status.result ≠ .endOfStream then s.finish .decode completed status
  else if status.result = .ok ∧ s.queue.asyncDepth ≤ s.queue.pending.length then
    { s with pc := .collect .decode completed (.progress before) }
  else s.progress before completed

/-- A turn of the first loop of `drain_queue` behind `submit`. -/
def drainTurn (s : IntelReader) (completed : List IntelFrame) (status : Status) : IntelReader :=
  if status.result = .endOfStream then s.flush completed
  else if status.result = .wouldBlock ∧ s.queue.pending ≠ [] then { s with pc := .collect .drain completed .again }
  else if status.result ≠ .ok then s.finish .drain completed status
  else if s.queue.asyncDepth ≤ s.queue.pending.length then { s with pc := .collect .drain completed .again }
  else s.head .drain completed

/-- Behind a collection. -/
def collected (s : IntelReader) (pump : VplPump) (completed : List IntelFrame) (after : AfterCollect) (status : Status) :
    IntelReader :=
  if status.result ≠ .ok then s.finish pump completed status
  else
    match after with
    | .again => s.head pump completed
    | .progress before => s.progress before completed
    | .flush => s.flush completed

/-- One step. One thread reads and closes. -/
def step (s : IntelReader) : IntelReadLabel → Option IntelReader
  | .call =>
      match s.pc with
      | .idle =>
          if s.closed then some (s.returns ⟨.errorInvalidState, "Intel decoder is closed"⟩)
          else some { s with pc := .loop, answer := none }
      | _ => none
  | .read status size =>
      match s.pc with
      | .loop => some (s.readGpu status size)
      | _ => none
  | .initializeDecoder header init =>
      match s.pc with
      | .packet size => some (s.decodeGpu size header init)
      | _ => none
  | .submit answer taken =>
      match s.pc with
      | .submit pump completed =>
          let status := (s.queue.submit answer).1
          let t := { s with queue := (s.queue.submit answer).2, output := s.output ++ answer.output.toList }
          -- a busy device is asked again
          if answer.busy then some s
          else
            match pump with
            | .decode =>
                if s.dataLength < taken then none
                else some ({ t with dataLength := s.dataLength - taken }.packetTurn completed s.dataLength status)
            | .drain => some (t.drainTurn completed status)
      | _ => none
  | .collect wrapped =>
      match s.pc with
      | .collect pump completed after =>
          let r := s.queue.collectGpu wrapped
          some ({ s with queue := r.2.1 }.collected pump (completed ++ r.2.2.toList) after r.1)
      | _ => none
  | .releaseFrame k =>
      s.outside[k]?.map fun frame =>
        { s with
          queue := s.queue.drop [frame]
          outside := s.outside.eraseIdx k }
  | .close =>
      match s.pc with
      | .idle =>
          if s.closed then none
          else
            some { s with
              queue := { s.queue.drop s.completedGpu with pending := [], closed := true }
              completedGpu := []
              closed := true }
      | _ => none

def Step (s : IntelReader) (l : IntelReadLabel) (t : IntelReader) : Prop := s.step l = some t

/-! ## Conditions on a run -/

/-- A slot of the pool is free. -/
def HasRoom (s : IntelReader) : Prop := s.queue.pool.inUse < s.queue.pool.slots.length

/-- The call that is running loses nothing when it ends: it has collected no frame, and the decoder has taken all but `taken`
bytes of its packet. -/
def Unladen (s : IntelReader) (pump : VplPump) (completed : List IntelFrame) (taken : Nat) : Prop :=
  completed = [] ∧ (pump = .decode → s.dataLength = taken)

/-- oneVPL decodes: a surface comes with its synchronization point and can be wrapped, and no submission fails. -/
def Decodes : IntelReadLabel → Prop
  | .submit (.failed _ _) _ => False
  | .submit (.accepted surface sync) _ => surface.isSome = true → sync = true
  | .collect (.error _) => False
  | _ => True

/-- At this place a call is blocked, by a pool that is full or by a decoder that wants a surface while none is pending, only
when it loses nothing. -/
def RoomyAt (s : IntelReader) : IntelReadPc → IntelReadLabel → Prop
  | .submit pump completed, .submit answer taken =>
      answer = .moreSurface → s.queue.pending = [] → s.Unladen pump completed taken
  | .collect pump completed _, .collect _ => s.HasRoom ∨ s.Unladen pump completed 0
  | _, _ => True

def Roomy (s : IntelReader) (l : IntelReadLabel) : Prop := s.RoomyAt s.pc l

instance (s : IntelReader) : Decidable s.HasRoom := inferInstanceAs (Decidable (_ < _))

instance (s : IntelReader) (pump : VplPump) (completed : List IntelFrame) (taken : Nat) :
    Decidable (s.Unladen pump completed taken) := inferInstanceAs (Decidable (_ ∧ (_ → _)))

instance (l : IntelReadLabel) : Decidable (Decodes l) :=
  match l with
  | .submit (.failed _ _) _ | .collect (.error _) => inferInstanceAs (Decidable False)
  | .submit (.accepted _ _) _ => inferInstanceAs (Decidable (_ → _))
  | .call | .read _ _ | .initializeDecoder _ _ | .submit .deviceBusy _ | .submit .moreData _ | .submit .moreSurface _
  | .collect (.ok _) | .releaseFrame _ | .close => inferInstanceAs (Decidable True)

instance (s : IntelReader) (pc : IntelReadPc) (l : IntelReadLabel) : Decidable (s.RoomyAt pc l) :=
  match pc, l with
  | .submit _ _, .submit _ _ => inferInstanceAs (Decidable (_ → _ → _))
  | .collect _ _ _, .collect _ => inferInstanceAs (Decidable (_ ∨ _))
  | .idle, _ | .loop, _ | .packet _, _ => inferInstanceAs (Decidable True)
  | .submit _ _, .call | .submit _ _, .read _ _ | .submit _ _, .initializeDecoder _ _ | .submit _ _, .collect _
  | .submit _ _, .releaseFrame _ | .submit _ _, .close => inferInstanceAs (Decidable True)
  | .collect _ _ _, .call | .collect _ _ _, .read _ _ | .collect _ _ _, .initializeDecoder _ _
  | .collect _ _ _, .submit _ _ | .collect _ _ _, .releaseFrame _ | .collect _ _ _, .close =>
      inferInstanceAs (Decidable True)

instance (s : IntelReader) (l : IntelReadLabel) : Decidable (s.Roomy l) := inferInstanceAs (Decidable (s.RoomyAt s.pc l))

end IntelReader

end MkvCodec.Gpu
