import MkvCodec.Gpu.SlotAccounting
import MkvCodec.Gpu.VplDecoderOutput

/-!
# oneVPL output is complete

As long as a call is blocked only when it has collected nothing and left no byte of its packet, the surfaces that oneVPL has
put out are those that were delivered and, behind them, those that are queued and those that are pending.
-/

namespace MkvCodec.Gpu

open Concurrency SlotPool

/-! ## The queue -/

namespace VplDecoderQueue

variable {q : VplDecoderQueue}

theorem drop_counted (h : q.pool.Counted) (frames : List IntelFrame) : (q.drop frames).pool.Counted :=
  (h.recycleAll frames IntelFrame.slot IntelFrame.generation).1

/-- A submission appends the surface that comes with it. -/
theorem submit_open (hopen : q.closed = false) (answer : DecodeAnswer) :
    (q.submit answer).2.pending = q.pending ++ answer.output.toList ∧ (q.submit answer).2.pool = q.pool ∧
      (q.submit answer).2.closed = false := by
  simp only [submit, hopen, Bool.false_eq_true, if_false]
  cases answer with
  | deviceBusy | moreData | moreSurface | failed => simp [DecodeAnswer.output, hopen]
  | accepted surface sync => cases sync <;> cases surface <;> simp [DecodeAnswer.output, hopen]

/-- A collection that finds the pool full leaves everything as it is, and any other takes the oldest surface. -/
theorem collectGpu_cases (hcounted : q.pool.Counted) :
    (q.collectGpu (.ok ()) = (poolFull, q, none) ∧ ¬ q.pool.inUse < q.pool.slots.length) ∨
    ∃ pending pool frames, q.collectGpu (.ok ()) = (.ok, { q with pending := pending, pool := pool }, frames) ∧
      pool.Counted ∧ q.pending = frames.toList.map IntelFrame.surface ++ pending := by
  cases hpending : q.pending with
  | nil =>
      refine .inr ⟨[], q.pool, none, ?_, hcounted, rfl⟩
      simp only [collectGpu, hpending]
      rw [← hpending]
  | cons surface pending =>
      by_cases hroom : q.pool.inUse < q.pool.slots.length
      · obtain ⟨pool, slot, generation, hacquire, hcounted', -⟩ := hcounted.acquire hroom
        refine .inr ⟨pending, pool, some ⟨surface, slot, generation⟩, ?_, hcounted', rfl⟩
        simp [collectGpu, hpending, Nat.not_le_of_lt hroom, wrap, hacquire]
      · refine .inl ⟨?_, hroom⟩
        simp [collectGpu, hpending, Nat.le_of_not_lt hroom]

end VplDecoderQueue

/-! ## A call that is running -/

/-- The frames that the call has collected. -/
def IntelReadPc.completed : IntelReadPc → List IntelFrame
  | .submit _ completed | .collect _ completed _ => completed
  | .idle | .loop | .packet _ => []

/-- A collection returns to the pump that has called it. -/
def AfterCollect.Fits : AfterCollect → VplPump → Prop
  | .again, _ => True
  | .progress _, pump => pump = .decode
  | .flush, pump => pump = .drain

namespace IntelReader

variable {s t : IntelReader} {l : IntelReadLabel} {pump : VplPump} {completed : List IntelFrame}

/-- The surfaces that wait for a call. -/
def waiting (s : IntelReader) (completed : List IntelFrame) : List VplSurface :=
  (s.completedGpu ++ completed).map IntelFrame.surface ++ s.queue.pending

/-- What holds inside a call and outside. -/
structure Basic (s : IntelReader) : Prop where
  counted : s.queue.pool.Counted
  queueOpen : s.closed = false → s.queue.closed = false
  pending : s.initialized = false ∨ s.drained = true → s.queue.pending = []
  drained : s.decoderDrained = true → s.drained = true
  demuxEos : s.drained = true → s.demuxEos = true
  leftovers : ∀ entry ∈ s.leftovers, entry.1 = .wouldBlock → entry.2 = 0

/-- A call is running, with the frames that it has collected. -/
structure Running (s : IntelReader) (completed : List IntelFrame) : Prop extends Basic s where
  opened : s.closed = false
  answer : s.answer = none
  order : s.output = s.delivered ++ s.waiting completed

/-- The call is inside a pump. -/
structure Pumping (s : IntelReader) (pump : VplPump) (completed : List IntelFrame) : Prop extends Running s completed where
  initialized : s.initialized = true
  notDrained : s.drained = false
  ended : pump = .drain → s.demuxEos = true

/-- No call is running. -/
structure Outside (s : IntelReader) : Prop extends Basic s where
  order : s.closed = false → s.output = s.delivered ++ s.waiting []
  delivered : s.delivered <+: s.output
  answered : ∀ status, s.answer = some status → status.result = .endOfStream → s.waiting [] = []

def Sound (s : IntelReader) : Prop :=
  match s.pc with
  | .idle => s.Outside
  | .loop => s.Running []
  | .packet _ => s.Running [] ∧ s.demuxEos = false
  | .submit pump completed => s.Pumping pump completed
  | .collect pump completed after => s.Pumping pump completed ∧ after.Fits pump

theorem Running.outside (h : s.Running []) {status : Status} (hend : status.result = .endOfStream → s.waiting [] = []) :
    (s.returns status).Sound := by
  refine ⟨⟨h.counted, h.queueOpen, h.pending, h.drained, h.demuxEos, h.leftovers⟩, fun _ => h.order, ?_, ?_⟩
  · exact ⟨s.waiting [], h.order.symm⟩
  · rintro _ ⟨⟩
    exact hend

/-- A packet is done with, of which nothing is left when the call is blocked. -/
theorem Running.leave (h : s.Running completed) {entry : Result × Nat} (hentry : entry.1 = .wouldBlock → entry.2 = 0) :
    Running { s with leftovers := entry :: s.leftovers } completed where
  counted := h.counted
  queueOpen := h.queueOpen
  pending := h.pending
  drained := h.drained
  demuxEos := h.demuxEos
  leftovers := by
    intro entry' hmem hblock
    rcases List.mem_cons.mp hmem with rfl | hmem
    · exact hentry hblock
    · exact h.leftovers entry' hmem hblock
  opened := h.opened
  answer := h.answer
  order := h.order

theorem Running.dropNone (h : s.Running []) : Running { s with queue := s.queue.drop [] } [] where
  counted := VplDecoderQueue.drop_counted h.counted []
  queueOpen := h.queueOpen
  pending := h.pending
  drained := h.drained
  demuxEos := h.demuxEos
  leftovers := h.leftovers
  opened := h.opened
  answer := h.answer
  order := h.order

/-- A pump ends, and its frames are queued. -/
theorem Pumping.finish_ok (h : s.Pumping pump completed) (hflushed : pump = .drain → s.queue.pending = []) :
    (s.finish pump completed .ok).Sound := by
  cases pump with
  | decode =>
      exact {
        counted := h.counted
        queueOpen := h.queueOpen
        pending := by simpa [finish] using h.pending
        drained := by simpa [finish] using h.drained
        demuxEos := by simpa [finish] using h.demuxEos
        leftovers := (h.leave fun hblock : Result.ok = .wouldBlock => nomatch hblock).leftovers
        opened := h.opened
        answer := h.answer
        order := by simpa [finish, waiting] using h.order }
  | drain =>
      have hpending := hflushed rfl
      have hended := h.ended rfl
      exact {
        counted := h.counted
        queueOpen := h.queueOpen
        pending := fun _ => hpending
        drained := fun _ => by simp [finish]
        demuxEos := fun _ => hended
        leftovers := h.leftovers
        opened := h.opened
        answer := h.answer
        order := by simpa [finish, waiting] using h.order }

/-- A pump is blocked, and has nothing to lose. -/
theorem Pumping.finish_blocked (h : s.Pumping pump completed) {status : Status} (hblocked : status.result = .wouldBlock)
    (hunladen : s.Unladen pump completed 0) : (s.finish pump completed status).Sound := by
  obtain ⟨rfl, hbytes⟩ := hunladen
  have hne : status.result ≠ .ok := by
    rw [hblocked]
    exact nofun
  have hend : status.result ≠ .endOfStream := by
    rw [hblocked]
    exact nofun
  cases pump with
  | decode =>
      simp only [finish, hne, ne_eq, not_false_eq_true, if_true]
      exact (h.leave fun _ => hbytes rfl).dropNone.outside fun heq => absurd heq hend
  | drain =>
      simp only [finish, hne, ne_eq, not_false_eq_true, if_true]
      exact h.dropNone.outside fun heq => absurd heq hend

theorem Pumping.sound_submit (h : s.Pumping pump completed) : Sound { s with pc := .submit pump completed } := by
  obtain ⟨⟨⟨hcounted, hqueue, hpending, hdrained, heos, hleft⟩, hopen, hanswer, horder⟩, hinit, hnot, hended⟩ := h
  exact ⟨⟨⟨hcounted, hqueue, hpending, hdrained, heos, hleft⟩, hopen, hanswer, horder⟩, hinit, hnot, hended⟩

theorem Pumping.sound_collect (h : s.Pumping pump completed) {after : AfterCollect} (hfits : after.Fits pump) :
    Sound { s with pc := .collect pump completed after } := by
  obtain ⟨⟨⟨hcounted, hqueue, hpending, hdrained, heos, hleft⟩, hopen, hanswer, horder⟩, hinit, hnot, hended⟩ := h
  exact ⟨⟨⟨⟨hcounted, hqueue, hpending, hdrained, heos, hleft⟩, hopen, hanswer, horder⟩, hinit, hnot, hended⟩, hfits⟩

theorem Pumping.head (h : s.Pumping pump completed) : (s.head pump completed).Sound := by
  cases pump with
  | decode =>
      simp only [IntelReader.head]
      split
      · exact h.finish_ok nofun
      · exact h.sound_submit
  | drain => exact h.sound_submit

theorem Pumping.progress (h : s.Pumping .decode completed) (before : Nat) : (s.progress before completed).Sound := by
  rw [IntelReader.progress]
  split
  · exact h.finish_ok nofun
  · exact h.head

theorem Pumping.flush (h : s.Pumping .drain completed) : (s.flush completed).Sound := by
  rw [IntelReader.flush]
  split
  case isTrue hempty => exact h.finish_ok fun _ => List.isEmpty_iff.mp hempty
  case isFalse => exact h.sound_collect rfl

/-- Of the answers to a submission only a blocked one ends a call with nothing. -/
def Answers (s : IntelReader) (pump : VplPump) (completed : List IntelFrame) (status : Status) : Prop :=
  status.result = .ok ∨ status.result = .endOfStream ∨
    status.result = .wouldBlock ∧ (s.queue.pending = [] → s.Unladen pump completed 0)

theorem Pumping.packetTurn (h : s.Pumping .decode completed) {status : Status}
    (hanswers : s.Answers .decode completed status) (before : Nat) : (s.packetTurn completed before status).Sound := by
  rw [IntelReader.packetTurn]
  rcases hanswers with hok | hend | ⟨hblocked, hunladen⟩
  · simp only [hok, reduceCtorEq, false_and, if_false, ne_eq, not_true_eq_false, true_and]
    split
    · exact h.sound_collect rfl
    · exact h.progress before
  · simp only [hend, reduceCtorEq, false_and, if_false, ne_eq, not_true_eq_false, and_false]
    exact h.progress before
  · by_cases hpending : s.queue.pending = []
    · simp only [hblocked, hpending, ne_eq, not_true_eq_false, and_false, if_false, reduceCtorEq, not_false_eq_true,
        true_and, if_true]
      exact h.finish_blocked hblocked (hunladen hpending)
    · simp only [hblocked, hpending, ne_eq, not_false_eq_true, true_and, if_true]
      exact h.sound_collect trivial

theorem Pumping.drainTurn (h : s.Pumping .drain completed) {status : Status}
    (hanswers : s.Answers .drain completed status) : (s.drainTurn completed status).Sound := by
  rw [IntelReader.drainTurn]
  rcases hanswers with hok | hend | ⟨hblocked, hunladen⟩
  · simp only [hok, reduceCtorEq, false_and, if_false, ne_eq, not_true_eq_false]
    split
    · exact h.sound_collect trivial
    · exact h.head
  · simp only [hend, if_true]
    exact h.flush
  · by_cases hpending : s.queue.pending = []
    · simp only [hblocked, hpending, ne_eq, not_true_eq_false, and_false, if_false, reduceCtorEq, not_false_eq_true,
        if_true]
      exact h.finish_blocked hblocked (hunladen hpending)
    · simp only [hblocked, hpending, ne_eq, not_false_eq_true, and_true, if_true, reduceCtorEq, if_false]
      exact h.sound_collect trivial

/-- oneVPL has put out what comes with an answer, and taken some bytes. -/
theorem Pumping.submitted (h : s.Pumping pump completed) (answer : DecodeAnswer) (dataLength : Nat) :
    Pumping { s with
      queue := (s.queue.submit answer).2
      output := s.output ++ answer.output.toList
      dataLength := dataLength } pump completed := by
  obtain ⟨hpending, hpool, hclosed⟩ := VplDecoderQueue.submit_open (h.queueOpen h.opened) answer
  exact {
    counted := by
      simp only [hpool]
      exact h.counted
    queueOpen := fun _ => hclosed
    pending := fun hor => by
      rcases hor with hinit | hdrained
      · rw [h.initialized] at hinit
        cases hinit
      · rw [h.notDrained] at hdrained
        cases hdrained
    drained := h.drained
    demuxEos := h.demuxEos
    leftovers := h.leftovers
    opened := h.opened
    answer := h.answer
    order := by
      simp only [waiting, hpending]
      rw [h.order, waiting]
      simp only [List.append_assoc]
    initialized := h.initialized
    notDrained := h.notDrained
    ended := h.ended }

theorem submit_answers (hopen : s.queue.closed = false) {answer : DecodeAnswer} {taken : Nat}
    (hdecodes : Decodes (.submit answer taken)) (hblocked : answer = .moreSurface → s.queue.pending = [] →
      t.Unladen pump completed 0) (hpending : t.queue.pending = s.queue.pending ++ answer.output.toList) :
    t.Answers pump completed (s.queue.submit answer).1 := by
  simp only [VplDecoderQueue.submit, hopen, Bool.false_eq_true, if_false]
  cases answer with
  | deviceBusy => exact .inl rfl
  | moreData => exact .inr (.inl rfl)
  | moreSurface =>
      refine .inr (.inr ⟨rfl, fun hnil => hblocked rfl ?_⟩)
      rw [hnil] at hpending
      simpa [DecodeAnswer.output] using hpending.symm
  | failed status hstatus => exact hdecodes.elim
  | accepted surface sync => cases sync <;> cases surface <;> exact .inl rfl

theorem Pumping.submit (h : s.Pumping pump completed) (hpc : s.pc = .submit pump completed) {answer : DecodeAnswer}
    {taken : Nat} (hdecodes : Decodes (.submit answer taken)) (hroom : s.Roomy (.submit answer taken))
    (hst : s.Step (.submit answer taken) t) : t.Sound := by
  have hopen := h.queueOpen h.opened
  obtain ⟨hpending, -, -⟩ := VplDecoderQueue.submit_open hopen answer
  have hunladen : answer = .moreSurface → s.queue.pending = [] → s.Unladen pump completed taken := by
    rintro rfl
    simpa [Roomy, RoomyAt, hpc] using hroom
  simp only [Step, step, hpc] at hst
  split at hst
  case isTrue =>
      cases hst
      rw [Sound, hpc]
      exact h
  case isFalse =>
      cases pump with
      | decode =>
          simp only at hst
          split at hst <;> cases hst
          refine (h.submitted answer (s.dataLength - taken)).packetTurn ?_ s.dataLength
          refine submit_answers hopen hdecodes (fun hmore hnil => ?_) hpending
          obtain ⟨hcompleted, hbytes⟩ := hunladen hmore hnil
          exact ⟨hcompleted, fun _ => by simp [hbytes rfl]⟩
      | drain =>
          cases hst
          refine (h.submitted answer s.dataLength).drainTurn ?_
          refine submit_answers hopen hdecodes (fun hmore hnil => ?_) hpending
          obtain ⟨hcompleted, -⟩ := hunladen hmore hnil
          exact ⟨hcompleted, nofun⟩

/-- A collection takes the oldest surface, or is blocked. -/
theorem Pumping.collect (h : s.Pumping pump completed) {after : AfterCollect} (hpc : s.pc = .collect pump completed after)
    (hfits : after.Fits pump) {wrapped : Except Status Unit} (hdecodes : Decodes (.collect wrapped))
    (hroom : s.Roomy (.collect wrapped)) (hst : s.Step (.collect wrapped) t) : t.Sound := by
  simp only [Step, step] at hst
  split at hst
  case h_2 hother => exact absurd hpc (hother pump completed after)
  case h_1 hpc' =>
  rw [hpc] at hpc'
  cases hpc'
  cases hst
  cases wrapped with
  | error status => exact hdecodes.elim
  | ok wrapped =>
      rcases VplDecoderQueue.collectGpu_cases h.counted with ⟨hfull, hnone⟩ | ⟨pending, pool, frames, heq, hcounted, hpending⟩
      · have hunladen : s.Unladen pump completed 0 := by
          have hor : s.HasRoom ∨ s.Unladen pump completed 0 := by simpa [Roomy, RoomyAt, hpc] using hroom
          exact hor.resolve_left hnone
        have hblocked : VplDecoderQueue.poolFull.result = .wouldBlock := rfl
        have hne : VplDecoderQueue.poolFull.result ≠ .ok := nofun
        simp only [hfull, collected, Option.toList_none, List.append_nil, hne, ne_eq, not_false_eq_true, if_true]
        exact h.finish_blocked hblocked hunladen
      · have hpumping : Pumping { s with queue := { s.queue with pending := pending, pool := pool } } pump
            (completed ++ frames.toList) := by
          exact {
            counted := hcounted
            queueOpen := h.queueOpen
            pending := fun hor => by
              rcases hor with hinit | hdrained
              · rw [h.initialized] at hinit
                cases hinit
              · rw [h.notDrained] at hdrained
                cases hdrained
            drained := h.drained
            demuxEos := h.demuxEos
            leftovers := h.leftovers
            opened := h.opened
            answer := h.answer
            order := by
              rw [h.order, waiting, waiting, hpending]
              simp only [List.map_append, List.append_assoc]
            initialized := h.initialized
            notDrained := h.notDrained
            ended := h.ended }
        simp only [heq, collected, Status.ok_result, ne_eq, not_true_eq_false, if_false]
        cases after with
        | again => exact hpumping.head
        | progress before =>
            cases hfits
            exact hpumping.progress before
        | flush =>
            cases hfits
            exact hpumping.flush

/-! ## The other steps -/

theorem Running.readGpu (h : s.Running []) (hpc : s.pc = .loop) (status : Status) (size : Nat) :
    (s.readGpu status size).Sound := by
  rw [IntelReader.readGpu]
  split
  case h_1 frame completedGpu hqueue =>
      refine ⟨⟨h.counted, h.queueOpen, h.pending, h.drained, h.demuxEos, h.leftovers⟩, fun _ => ?_, ?_, ?_⟩
      · have horder := h.order
        simp only [waiting, hqueue] at horder ⊢
        simpa [returns] using horder
      · have horder := h.order
        simp only [waiting, hqueue] at horder
        exact ⟨(completedGpu ++ []).map IntelFrame.surface ++ s.queue.pending, by simpa [returns] using horder.symm⟩
      · rintro _ ⟨⟩ hend
        cases hend
  case h_2 hqueue =>
      split
      case isTrue hdemux =>
          have hdemuxEos : s.demuxEos = false := by simpa using hdemux
          have hnotDrained : s.drained = false := by
            cases hd : s.drained with
            | false => rfl
            | true => simp [h.demuxEos hd] at hdemuxEos
          split
          case isTrue hfailed => exact h.outside fun hend => absurd hend hfailed.2
          case isFalse =>
              obtain ⟨⟨hcounted, hopen, hpending, hdrained, heos, hleft⟩, hopened, hanswer, horder⟩ := h
              split
              · rw [Sound, hpc]
                exact ⟨⟨hcounted, hopen, hpending, hdrained, fun _ => rfl, hleft⟩, hopened, hanswer, horder⟩
              · exact ⟨⟨⟨hcounted, hopen, hpending, hdrained, heos, hleft⟩, hopened, hanswer, horder⟩, hdemuxEos⟩
      case isFalse hdemux =>
          have hdemuxEos : s.demuxEos = true := by simpa using hdemux
          split
          case isTrue hdrain =>
              have hnotDrained : s.drained = false := by simpa using hdrain
              obtain ⟨⟨hcounted, hopen, hpending, hdrained, heos, hleft⟩, hopened, hanswer, horder⟩ := h
              split
              case isTrue hnothing =>
                  have huninit : s.initialized = false := by
                    rcases Bool.or_eq_true _ _ |>.mp hnothing with hd | hi
                    · rw [hdrained hd] at hnotDrained
                      cases hnotDrained
                    · simpa using hi
                  rw [Sound, hpc]
                  exact ⟨⟨hcounted, hopen, fun _ => hpending (.inl huninit), fun _ => rfl, fun _ => hdemuxEos, hleft⟩,
                    hopened, hanswer, horder⟩
              case isFalse hsomething =>
                  have hinit : s.initialized = true := by
                    cases hi : s.initialized with
                    | true => rfl
                    | false => simp [hi] at hsomething
                  exact ⟨⟨⟨hcounted, hopen, hpending, hdrained, heos, hleft⟩, hopened, hanswer, horder⟩, hinit,
                    hnotDrained, fun _ => hdemuxEos⟩
          case isFalse hdrain =>
              have hd : s.drained = true := by simpa using hdrain
              refine h.outside fun _ => ?_
              rw [waiting, hqueue, h.pending (.inr hd)]
              rfl

/-- The pump begins with a packet. -/
theorem Running.decodeGpu (h : s.Running []) (hdemuxEos : s.demuxEos = false) (size : Nat) (header init : Int) :
    (s.decodeGpu size header init).Sound := by
  have hnotDrained : s.drained = false := by
    cases hd : s.drained with
    | false => rfl
    | true => simp [h.demuxEos hd] at hdemuxEos
  obtain ⟨⟨hcounted, hopen, hpending, hdrained, heos, hleft⟩, hopened, hanswer, horder⟩ := id h
  rw [IntelReader.decodeGpu]
  split
  · exact h.outside nofun
  split
  · exact h.outside nofun
  have hsized : Running { s with dataLength := size } [] :=
    ⟨⟨hcounted, hopen, hpending, hdrained, heos, hleft⟩, hopened, hanswer, horder⟩
  simp only
  split
  case isTrue hinit => exact Pumping.head ⟨hsized, hinit, hnotDrained, nofun⟩
  case isFalse hinit =>
      have huninit : s.initialized = false := by simpa using hinit
      split
      · refine hsized.outside fun hend => ?_
        simp only at hend
        split at hend <;> cases hend
      split
      · exact hsized.outside nofun
      · refine Pumping.head ⟨⟨⟨hcounted, hopen, fun _ => hpending (.inl huninit), hdrained, heos, hleft⟩, hopened, hanswer,
          horder⟩, rfl, hnotDrained, nofun⟩

/-- A delivered frame is released, whatever the call that is running does. -/
theorem Sound.releaseFrame (h : s.Sound) {frames outside : List IntelFrame}
    (ht : t = { s with queue := s.queue.drop frames, outside := outside }) : t.Sound := by
  have hpc : t.pc = s.pc := by rw [ht]
  have hbasic (hb : s.Basic) : t.Basic := by
    rw [ht]
    exact ⟨VplDecoderQueue.drop_counted hb.counted frames, hb.queueOpen, hb.pending, hb.drained, hb.demuxEos, hb.leftovers⟩
  have hrunning {completed : List IntelFrame} (hr : s.Running completed) : t.Running completed := by
    refine ⟨hbasic hr.toBasic, ?_, ?_, ?_⟩ <;> rw [ht]
    · exact hr.opened
    · exact hr.answer
    · exact hr.order
  have hpumping {pump : VplPump} {completed : List IntelFrame} (hp : s.Pumping pump completed) :
      t.Pumping pump completed := by
    refine ⟨hrunning hp.toRunning, ?_, ?_, ?_⟩ <;> rw [ht]
    · exact hp.initialized
    · exact hp.notDrained
    · exact hp.ended
  rw [Sound] at h ⊢
  rw [hpc]
  cases hs : s.pc with
  | idle =>
      rw [hs] at h
      refine ⟨hbasic h.toBasic, ?_, ?_, ?_⟩ <;> rw [ht]
      · exact h.order
      · exact h.delivered
      · exact h.answered
  | loop =>
      rw [hs] at h
      exact hrunning h
  | packet size =>
      rw [hs] at h
      refine ⟨hrunning h.1, ?_⟩
      rw [ht]
      exact h.2
  | submit pump completed =>
      rw [hs] at h
      exact hpumping h
  | collect pump completed after =>
      rw [hs] at h
      exact ⟨hpumping h.1, h.2⟩

theorem Outside.close (h : s.Outside) (hpc : s.pc = .idle) (ht : t = { s with
    queue := { s.queue.drop s.completedGpu with pending := [], closed := true }
    completedGpu := []
    closed := true }) : t.Sound := by
  have hidle : t.pc = .idle := by rw [ht, hpc]
  rw [Sound, hidle, ht]
  exact {
    counted := VplDecoderQueue.drop_counted h.counted s.completedGpu
    queueOpen := nofun
    pending := fun _ => rfl
    drained := h.drained
    demuxEos := h.demuxEos
    leftovers := h.leftovers
    order := nofun
    delivered := h.delivered
    answered := fun _ _ _ => rfl }

theorem Sound.step (h : s.Sound) (hdecodes : Decodes l) (hroom : s.Roomy l) (hst : s.Step l t) : t.Sound := by
  cases l with
  | call =>
      simp only [Step, IntelReader.step] at hst
      split at hst
      case h_2 => cases hst
      case h_1 hpc =>
          rw [Sound, hpc] at h
          obtain ⟨⟨hcounted, hopen, hpending, hdrained, heos, hleft⟩, horder, hdelivered, hanswered⟩ := h
          split at hst
          · cases hst
            exact ⟨⟨hcounted, hopen, hpending, hdrained, heos, hleft⟩, horder, hdelivered, by
              rintro _ ⟨⟩ hend
              cases hend⟩
          case isFalse hopened =>
              cases hst
              have hfalse : s.closed = false := by simpa using hopened
              exact ⟨⟨hcounted, hopen, hpending, hdrained, heos, hleft⟩, hfalse, rfl, horder hfalse⟩
  | read status size =>
      simp only [Step, IntelReader.step] at hst
      split at hst <;> cases hst
      case h_1.refl hpc =>
          rw [Sound, hpc] at h
          exact h.readGpu hpc status size
  | initializeDecoder header init =>
      simp only [Step, IntelReader.step] at hst
      split at hst <;> cases hst
      case h_1.refl size hpc =>
          rw [Sound, hpc] at h
          exact h.1.decodeGpu h.2 size header init
  | submit answer taken =>
      cases hpc : s.pc with
      | submit pump completed =>
          rw [Sound, hpc] at h
          exact h.submit hpc hdecodes hroom hst
      | idle | loop | packet | collect => simp [Step, IntelReader.step, hpc] at hst
  | collect wrapped =>
      cases hpc : s.pc with
      | collect pump completed after =>
          rw [Sound, hpc] at h
          exact h.1.collect hpc h.2 hdecodes hroom hst
      | idle | loop | packet | submit => simp [Step, IntelReader.step, hpc] at hst
  | releaseFrame k =>
      obtain ⟨frame, hk, ht⟩ := Option.map_eq_some_iff.mp hst
      exact h.releaseFrame ht.symm
  | close =>
      simp only [Step, IntelReader.step] at hst
      split at hst
      case h_2 => cases hst
      case h_1 hpc =>
          rw [Sound, hpc] at h
          split at hst <;> cases hst
          exact h.close hpc rfl

theorem sound_init (asyncDepth capacity : Nat) : (IntelReader.init asyncDepth capacity).Sound where
  counted := GpuFramePool.counted_new capacity
  queueOpen _ := rfl
  pending _ := rfl
  drained := nofun
  demuxEos := nofun
  leftovers := nofun
  order _ := rfl
  delivered := List.nil_prefix
  answered := nofun

/-! ## A drain that was blocked -/

/-- With a free slot, a collection of the last loop takes the oldest surface. -/
theorem step_flush {surface : VplSurface} {pending : List VplSurface} (hcounted : s.queue.pool.Counted)
    (hpc : s.pc = .collect .drain completed .flush) (hpending : s.queue.pending = surface :: pending)
    (hroom : s.queue.pool.inUse < s.queue.pool.slots.length) :
    ∃ pool frame, pool.Counted ∧ pool.inUse = s.queue.pool.inUse + 1 ∧ pool.slots.length = s.queue.pool.slots.length ∧
      frame.surface = surface ∧ s.step (.collect (.ok ())) =
        some ({ s with queue := { s.queue with pending := pending, pool := pool } }.flush (completed ++ [frame])) := by
  obtain ⟨pool, slot, generation, hacquire, hpool, hlength⟩ := hcounted.acquire hroom
  obtain ⟨-, g, -, -, heq⟩ := GpuFramePool.acquire_ok hacquire
  refine ⟨pool, ⟨surface, slot, generation⟩, hpool, by rw [heq], hlength, rfl, ?_⟩
  have hcollect : s.queue.collectGpu (.ok ()) =
      (.ok, { s.queue with pending := pending, pool := pool }, some ⟨surface, slot, generation⟩) := by
    simp [VplDecoderQueue.collectGpu, hpending, Nat.not_le_of_lt hroom, VplDecoderQueue.wrap, hacquire]
  simp [IntelReader.step, hpc, hcollect, collected]

/-- With room for every pending surface, the last loop collects them all. -/
theorem exec_flush {surface : VplSurface} {pending : List VplSurface} (hcounted : s.queue.pool.Counted)
    (hpc : s.pc = .collect .drain completed .flush) (hpending : s.queue.pending = surface :: pending)
    (hroom : s.queue.pool.inUse + (pending.length + 1) ≤ s.queue.pool.slots.length) :
    ∃ t, exec IntelReader.step s (List.replicate (pending.length + 1) (.collect (.ok ()))) = some t ∧ t.pc = .loop ∧
      t.completedGpu.map IntelFrame.surface = (s.completedGpu ++ completed).map IntelFrame.surface ++ surface :: pending ∧
      t.delivered = s.delivered := by
  induction pending generalizing s completed surface with
  | nil =>
      obtain ⟨pool, frame, hpool, huse, hlength, hframe, hstep⟩ := step_flush hcounted hpc hpending hroom
      refine ⟨_, by simp only [List.length_nil, List.replicate, exec, hstep]; rfl, ?_, ?_, ?_⟩
      · simp [flush, finish]
      · simp [flush, finish, hframe]
      · simp [flush, finish]
  | cons next pending ih =>
      obtain ⟨pool, frame, hpool, huse, hlength, hframe, hstep⟩ := step_flush hcounted hpc hpending (by omega)
      have hflush : { s with queue := { s.queue with pending := next :: pending, pool := pool } }.flush (completed ++ [frame]) =
          { s with
            queue := { s.queue with pending := next :: pending, pool := pool }
            pc := .collect .drain (completed ++ [frame]) .flush } := by simp [flush]
      rw [hflush] at hstep
      obtain ⟨t, hexec, hloop, hcompleted, hdelivered⟩ := ih (s := { s with
        queue := { s.queue with pending := next :: pending, pool := pool }
        pc := .collect .drain (completed ++ [frame]) .flush }) hpool rfl rfl (by
          simp only [huse, hlength]
          simp only [List.length_cons] at hroom
          omega)
      refine ⟨t, ?_, hloop, ?_, hdelivered⟩
      · rw [List.length_cons, List.replicate_succ, exec, hstep]
        exact hexec
      · rw [hcompleted]
        simp [hframe]

/-! ## What holds in every reachable state -/

/-- Nothing is lost, nothing comes twice, and what waits can be had. -/
structure Complete (s : IntelReader) : Prop where
  order : s.closed = false → s.output = s.delivered ++ s.waiting s.pc.completed
  delivered : s.delivered <+: s.output
  /-- At the end of the stream everything was delivered. -/
  drained : ∀ status, s.answer = some status → status.result = .endOfStream → s.closed = false → s.delivered = s.output
  /-- A packet whose call is blocked has no byte left. -/
  leftovers : ∀ entry ∈ s.leftovers, entry.1 = .wouldBlock → entry.2 = 0
  /-- A frame that is queued is what the next call returns, without another packet. -/
  served : ∀ frame completedGpu status size, s.pc = .idle → s.closed = false → s.completedGpu = frame :: completedGpu →
    exec IntelReader.step s [.call, .read status size] = some { s with
      completedGpu := completedGpu
      answer := some .ok
      outside := s.outside ++ [frame]
      delivered := s.delivered ++ [frame.surface] }
  /-- A drain that was blocked goes on as soon as there is room for what is pending. -/
  resumes : ∀ surface pending status size taken, s.pc = .idle → s.closed = false → s.initialized = true →
    s.demuxEos = true → s.drained = false → s.completedGpu = [] → s.queue.pending = surface :: pending →
    s.queue.pool.inUse + (pending.length + 1) ≤ s.queue.pool.slots.length →
    ∃ t, exec IntelReader.step s ([.call, .read status size, .submit .moreData taken] ++
        List.replicate (pending.length + 1) (.collect (.ok ())) ++ [.read status size]) = some t ∧
      t.answer = some .ok ∧ t.delivered = s.delivered ++ [surface] ∧ t.completedGpu.map IntelFrame.surface = pending

theorem Basic.resumes (h : s.Basic) {surface : VplSurface} {pending : List VplSurface} (status : Status) (size taken : Nat)
    (hpc : s.pc = .idle) (hopen : s.closed = false) (hinit : s.initialized = true) (hdemux : s.demuxEos = true)
    (hdrained : s.drained = false) (hqueue : s.completedGpu = []) (hpending : s.queue.pending = surface :: pending)
    (hroom : s.queue.pool.inUse + (pending.length + 1) ≤ s.queue.pool.slots.length) :
    ∃ t, exec IntelReader.step s ([.call, .read status size, .submit .moreData taken] ++
        List.replicate (pending.length + 1) (.collect (.ok ())) ++ [.read status size]) = some t ∧
      t.answer = some .ok ∧ t.delivered = s.delivered ++ [surface] ∧ t.completedGpu.map IntelFrame.surface = pending := by
  have hdecoder : s.decoderDrained = false := by
    cases hd : s.decoderDrained with
    | false => rfl
    | true => simp [h.drained hd] at hdrained
  have hqueueOpen := h.queueOpen hopen
  have hbegin : exec IntelReader.step s [.call, .read status size, .submit .moreData taken] =
      some { s with pc := .collect .drain [] .flush, answer := none } := by
    simp [exec, IntelReader.step, hpc, hopen, IntelReader.readGpu, hqueue, hdemux, hdrained, hdecoder, hinit,
      VplDecoderQueue.submit, hqueueOpen, DecodeAnswer.busy, DecodeAnswer.output, drainTurn, flush, hpending]
  obtain ⟨t, hflush, hloop, hcompleted, hdelivered⟩ := exec_flush
    (s := { s with pc := .collect .drain [] .flush, answer := none }) h.counted rfl hpending hroom
  simp only [hqueue, List.nil_append, List.map_nil] at hcompleted
  obtain ⟨frame, completedGpu, hframes, hframe, hrest⟩ : ∃ frame completedGpu, t.completedGpu = frame :: completedGpu ∧
      frame.surface = surface ∧ completedGpu.map IntelFrame.surface = pending := List.map_eq_cons_iff.mp hcompleted
  refine ⟨{ t.returns .ok with
    completedGpu := completedGpu
    outside := t.outside ++ [frame]
    delivered := t.delivered ++ [frame.surface] }, ?_, rfl, ?_, hrest⟩
  · have hread : exec IntelReader.step t [.read status size] = some { t.returns .ok with
        completedGpu := completedGpu
        outside := t.outside ++ [frame]
        delivered := t.delivered ++ [frame.surface] } := by
      simp [exec, IntelReader.step, hloop, IntelReader.readGpu, hframes]
    rw [exec_append, exec_append, hbegin]
    simp only [Option.bind_some, hflush, hread]
  · simp only [hdelivered, hframe]

theorem Running.complete (h : s.Running completed) (hpc : s.pc.completed = completed) (hidle : s.pc ≠ .idle) : s.Complete where
  order _ := by rw [h.order, hpc]
  delivered := ⟨s.waiting completed, h.order.symm⟩
  drained status hanswer := by
    rw [h.answer] at hanswer
    cases hanswer
  leftovers := h.leftovers
  served _ _ _ _ hpc := absurd hpc hidle
  resumes _ _ _ _ _ hpc := absurd hpc hidle

theorem Outside.complete (h : s.Outside) (hpc : s.pc = .idle) : s.Complete where
  order hopen := by rw [h.order hopen, hpc, IntelReadPc.completed]
  delivered := h.delivered
  drained status hanswer hend hopen := by rw [h.order hopen, h.answered status hanswer hend, List.append_nil]
  leftovers := h.leftovers
  served frame completedGpu status size hpc hopen hqueue := by
    simp [exec, IntelReader.step, hpc, hopen, IntelReader.readGpu, hqueue, returns]
  resumes _ _ status size taken hpc hopen hinit hdemux hdrained hqueue hpending hroom :=
    h.toBasic.resumes status size taken hpc hopen hinit hdemux hdrained hqueue hpending hroom

theorem Sound.complete (h : s.Sound) : s.Complete := by
  rw [Sound] at h
  cases hpc : s.pc with
  | idle =>
      rw [hpc] at h
      exact h.complete hpc
  | loop =>
      rw [hpc] at h
      exact h.complete (by rw [hpc, IntelReadPc.completed]) (by simp [hpc])
  | packet size =>
      rw [hpc] at h
      exact h.1.complete (by rw [hpc, IntelReadPc.completed]) (by simp [hpc])
  | submit pump completed =>
      rw [hpc] at h
      exact h.toRunning.complete (by rw [hpc, IntelReadPc.completed]) (by simp [hpc])
  | collect pump completed after =>
      rw [hpc] at h
      exact h.1.toRunning.complete (by rw [hpc, IntelReadPc.completed]) (by simp [hpc])

end IntelReader

/-- As long as a call is blocked only when it has nothing to lose, whatever oneVPL puts out is delivered once and in its
order, however the frames are released. -/
theorem vpl_output_complete {asyncDepth capacity : Nat} {ls : List IntelReadLabel} {s : IntelReader}
    (h : Run (Restrict IntelReader.Step fun s l => IntelReader.Decodes l ∧ s.Roomy l) (.init asyncDepth capacity) ls s) :
    s.Complete := by
  have hsound : s.Sound :=
    h.invariant (IntelReader.sound_init asyncDepth capacity) fun hs hst => hs.step hst.2.1 hst.2.2 hst.1
  exact hsound.complete

/-- A submission that takes one byte and puts out surface `n`. -/
def vplOutput (n : Nat) : IntelReadLabel := .submit (.accepted (some ⟨n, n⟩) true) 1

/-- A packet of two surfaces, with a pool of one slot: the end of the stream is blocked until the first frame is released. -/
theorem vpl_output_complete_small : ∃ s,
    Run (Restrict IntelReader.Step fun s l => IntelReader.Decodes l ∧ s.Roomy l) (.init 1 1)
      ([.call, .read .ok 1, .initializeDecoder 0 0, vplOutput 0, .collect (.ok ()), .read .ok 0,
        .call, .read .ok 1, .initializeDecoder 0 0, vplOutput 1, .collect (.ok ()), .releaseFrame 0,
        .call, .read ⟨.endOfStream, ""⟩ 0, .read .ok 0, .submit .moreData 0, .collect (.ok ()), .read .ok 0,
        .call, .read .ok 0]) s ∧
      s.delivered = [⟨0, 0⟩, ⟨1, 1⟩] ∧ s.Complete := by
  have hrun : ∃ s, Run (Restrict IntelReader.Step fun s l => IntelReader.Decodes l ∧ s.Roomy l) (.init 1 1)
      ([.call, .read .ok 1, .initializeDecoder 0 0, vplOutput 0, .collect (.ok ()), .read .ok 0,
        .call, .read .ok 1, .initializeDecoder 0 0, vplOutput 1, .collect (.ok ()), .releaseFrame 0,
        .call, .read ⟨.endOfStream, ""⟩ 0, .read .ok 0, .submit .moreData 0, .collect (.ok ()), .read .ok 0,
        .call, .read .ok 0]) s ∧
      s.delivered = [⟨0, 0⟩, ⟨1, 1⟩] := ⟨_, Run.restrict_of_exec rfl, rfl⟩
  obtain ⟨s, hs, hdelivered⟩ := hrun
  exact ⟨s, hs, hdelivered, vpl_output_complete hs⟩

/-- With six slots, the seventh collection of one call is blocked. The six frames of the call are destroyed, and a byte of its
packet is left. -/
theorem vpl_surfaces_lost : ∃ s, Run (Restrict IntelReader.Step fun _ => IntelReader.Decodes) (.init 4 6)
    ([.call, .read .ok 11, .initializeDecoder 0 0] ++ (List.range 10).flatMap fun i =>
      if i < 3 then [vplOutput i] else [vplOutput i, .collect (.ok ())]) s ∧
    s.answer = some VplDecoderQueue.poolFull ∧ s.closed = false ∧ s.output.length = 10 ∧ s.delivered = [] ∧
      s.completedGpu = [] ∧ s.queue.pending.length = 4 ∧ s.leftovers = [(.wouldBlock, 1)] :=
  ⟨_, Run.restrict_of_exec rfl, rfl, rfl, rfl, rfl, rfl, rfl, rfl⟩

end MkvCodec.Gpu
