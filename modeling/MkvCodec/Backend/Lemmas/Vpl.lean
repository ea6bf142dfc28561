import MkvCodec.Backend.VplSequence

/-!
# What the oneVPL encoder takes and gives

`Gives q q' taken packets`: between `q` and `q'` oneVPL has taken surfaces with the time stamps `taken`, and the
bitstreams that have been collected are the packets `packets`.
-/

namespace MkvCodec.Backend

/-- The time stamps of the bitstreams that carry something. -/
def stamps (bs : List Bitstream) : List Nat := (bs.filter fun b => !b.data.isEmpty).map Bitstream.timeStamp

@[simp] theorem stamps_nil : stamps [] = [] := rfl

@[simp] theorem stamps_append (bs bs' : List Bitstream) : stamps (bs ++ bs') = stamps bs ++ stamps bs' := by
  simp [stamps]

/-- A bitstream that carries something becomes one packet, under the conversion of its time stamp. -/
theorem appendVplEncodedPacket_ok {b : Bitstream} {codec : Codec} {fpsNum fpsDen : Nat}
    {packets packets' : List IntelEncodedPacket} {status : Status}
    (h : appendVplEncodedPacket b codec fpsNum fpsDen packets = (status, packets')) (hok : status.result = .ok) :
    ∃ added, packets' = packets ++ added ∧
      added.map IntelEncodedPacket.pts = (stamps [b]).map (vplPts fpsNum fpsDen) := by
  unfold appendVplEncodedPacket at h
  split at h
  case isTrue hempty =>
    cases h
    exact ⟨[], by simp [stamps, hempty]⟩
  case isFalse hempty =>
    split at h
    · cases h
      cases hok
    · cases h
      exact ⟨_, rfl, by simp [stamps, hempty]⟩

theorem appendVplEncodedPacket_ne_endOfStream (b : Bitstream) (codec : Codec) (fpsNum fpsDen : Nat)
    (packets : List IntelEncodedPacket) :
    (appendVplEncodedPacket b codec fpsNum fpsDen packets).1.result ≠ .endOfStream := by
  unfold appendVplEncodedPacket
  split
  · nofun
  · split
    · nofun
    · nofun

namespace VplEncoderQueue

variable {q q' q'' : VplEncoderQueue} {packets packets' : List IntelEncodedPacket} {taken taken' : List Nat}
variable {status : Status}

@[simp] theorem signal_surfaces (q : VplEncoderQueue) (completion : Option Nat) (state : Gpu.CompletionState) :
    (q.signal completion state).surfaces = q.surfaces := by cases completion <;> rfl

@[simp] theorem signal_bitstreams (q : VplEncoderQueue) (completion : Option Nat) (state : Gpu.CompletionState) :
    (q.signal completion state).bitstreams = q.bitstreams := by cases completion <;> rfl

@[simp] theorem signal_fpsNum (q : VplEncoderQueue) (completion : Option Nat) (state : Gpu.CompletionState) :
    (q.signal completion state).fpsNum = q.fpsNum := by cases completion <;> rfl

@[simp] theorem signal_fpsDen (q : VplEncoderQueue) (completion : Option Nat) (state : Gpu.CompletionState) :
    (q.signal completion state).fpsDen = q.fpsDen := by cases completion <;> rfl

structure Gives (q q' : VplEncoderQueue) (taken : List Nat) (packets : List IntelEncodedPacket) : Prop where
  surfaces : q'.surfaces = q.surfaces ++ taken
  bitstreams : ∃ bs, q'.bitstreams = q.bitstreams ++ bs ∧
    packets.map IntelEncodedPacket.pts = (stamps bs).map (vplPts q.fpsNum q.fpsDen)
  fpsNum : q'.fpsNum = q.fpsNum
  fpsDen : q'.fpsDen = q.fpsDen

theorem Gives.refl (q : VplEncoderQueue) : Gives q q [] [] := ⟨by simp, ⟨[], by simp⟩, rfl, rfl⟩

theorem Gives.trans (h : Gives q q' taken packets) (h' : Gives q' q'' taken' packets') :
    Gives q q'' (taken ++ taken') (packets ++ packets') := by
  obtain ⟨bs, hbs, hpackets⟩ := h.bitstreams
  obtain ⟨bs', hbs', hpackets'⟩ := h'.bitstreams
  constructor
  · rw [h'.surfaces, h.surfaces, List.append_assoc]
  · apply Exists.intro (bs ++ bs')
    constructor
    · rw [hbs', hbs, List.append_assoc]
    · rw [List.map_append, hpackets, hpackets', h.fpsNum, h.fpsDen, stamps_append, List.map_append]
  · rw [h'.fpsNum, h.fpsNum]
  · rw [h'.fpsDen, h.fpsDen]

/-! ## Submissions -/

theorem submit_surfaces (q : VplEncoderQueue) (surface completion frame : Option Nat) (answer : SubmitAnswer) :
    (q.submit surface completion frame answer).2.surfaces = q.surfaces ∨
      (q.submit surface completion frame answer).2.surfaces = q.surfaces ++ surface.toList := by
  unfold submit
  split
  · exact .inl rfl
  · split
    · exact .inr rfl
    · split
      · exact .inl rfl
      · exact .inl rfl
    · exact .inr rfl
    · exact .inr (by simp [take])

theorem submit_gives {surface completion frame : Option Nat} {answer : SubmitAnswer}
    (h : q.submit surface completion frame answer = (status, q'))
    (hok : status.result = .ok ∨ status.result = .endOfStream) : Gives q q' surface.toList [] := by
  have hio : ∀ code : Int, (if code = -13 then Result.errorIo else .errorCodec) ≠ .ok ∧
      (if code = -13 then Result.errorIo else .errorCodec) ≠ .endOfStream := by
    intro code
    split
    · exact ⟨nofun, nofun⟩
    · exact ⟨nofun, nofun⟩
  unfold submit at h
  split at h
  · cases h
    cases hok <;> contradiction
  · split at h
    · cases h
      exact ⟨rfl, ⟨[], by simp [take]⟩, rfl, rfl⟩
    · split at h
      · cases h
        cases hok <;> contradiction
      · rename_i code _ _
        cases h
        cases hok with
        | inl hok => exact absurd hok (hio code).1
        | inr hend => exact absurd hend (hio code).2
    · cases h
      exact ⟨rfl, ⟨[], by simp [take]⟩, rfl, rfl⟩
    · cases h
      exact ⟨by simp [take], ⟨[], by simp [take]⟩, by simp [take], by simp [take]⟩

/-! ## Collections -/

theorem collectOldest_surfaces (q : VplEncoderQueue) (packets : List IntelEncodedPacket) (answer : CollectAnswer) :
    (q.collectOldest packets answer).2.2.surfaces = q.surfaces := by
  unfold collectOldest
  split
  · rfl
  · dsimp only
    split
    · simp
    · split <;> simp

/-- A collection does not report the end of the stream. -/
theorem collectOldest_ne_endOfStream (q : VplEncoderQueue) (packets : List IntelEncodedPacket)
    (answer : CollectAnswer) : (q.collectOldest packets answer).1.result ≠ .endOfStream := by
  unfold collectOldest
  split
  · nofun
  · dsimp only
    split
    · dsimp only
      split
      · nofun
      · nofun
    · split
      · exact appendVplEncodedPacket_ne_endOfStream _ _ _ _ _
      · nofun

theorem collectOldest_gives {answer : CollectAnswer} (h : q.collectOldest packets answer = (status, packets', q'))
    (hok : status.result = .ok) : ∃ new, packets' = packets ++ new ∧ Gives q q' [] new := by
  unfold collectOldest at h
  split at h
  · cases h
    exact ⟨[], by simp, .refl q⟩
  · rename_i pending rest _
    dsimp only at h
    split at h
    · cases h
      dsimp only at hok
      split at hok <;> contradiction
    · cases hadd : appendVplEncodedPacket answer.bitstream q.codec q.fpsNum q.fpsDen packets with
      | mk added all =>
        rw [hadd] at h
        dsimp only at h
        split at h
        · rename_i hbad
          cases h
          exact absurd hok hbad
        · rename_i hgood
          cases h
          obtain ⟨new, hall, hnew⟩ := appendVplEncodedPacket_ok hadd (not_not.mp hgood)
          apply Exists.intro new
          constructor
          · exact hall
          · exact ⟨by simp, ⟨[answer.bitstream], by simp, hnew⟩, by simp, by simp⟩

theorem drainSubmit_gives {last : SubmitEnd} {accepted : List (Bool × CollectAnswer)}
    (h : q.drainSubmit packets last accepted = (status, packets', q')) (hok : status.result = .ok) :
    ∃ new, packets' = packets ++ new ∧ Gives q q' [] new := by
  induction accepted generalizing q packets with
  | nil =>
      unfold drainSubmit at h
      cases hsubmit : q.submit none none none (.ended last) with
      | mk submitted queue =>
        rw [hsubmit] at h
        cases h
        apply Exists.intro []
        constructor
        · simp
        · apply submit_gives hsubmit
          split at hok
          · rename_i hend
            exact .inr hend
          · exact .inl hok
  | cons p rest ih =>
      obtain ⟨sync, answer⟩ := p
      unfold drainSubmit at h
      cases hsubmit : q.submit none none none (.accepted sync) with
      | mk submitted queue =>
        rw [hsubmit] at h
        dsimp only at h
        split at h
        · rename_i hbad
          cases h
          exact absurd hok hbad
        · rename_i hgood
          have htake : Gives q queue [] [] := submit_gives hsubmit (.inl (not_not.mp hgood))
          split at h
          · cases hcollect : queue.collectOldest packets answer with
            | mk collected more =>
              rw [hcollect] at h
              dsimp only at h
              split at h
              · rename_i hbad
                cases h
                exact absurd hok hbad
              · rename_i hgood
                obtain ⟨new, hnew, hone⟩ := collectOldest_gives hcollect (not_not.mp hgood)
                obtain ⟨new', hnew', hrest⟩ := ih h
                apply Exists.intro (new ++ new')
                constructor
                · rw [hnew', hnew, List.append_assoc]
                · exact htake.trans (hone.trans hrest)
          · obtain ⟨new, hnew, hrest⟩ := ih h
            exact ⟨new, hnew, htake.trans hrest⟩

theorem drainCollect_gives {collects : Nat → CollectAnswer} {n : Nat}
    (h : drainCollect collects n q packets = (status, packets', q')) (hok : status.result = .ok) :
    ∃ new, packets' = packets ++ new ∧ Gives q q' [] new := by
  induction n generalizing q packets with
  | zero =>
      cases h
      exact ⟨[], by simp, .refl _⟩
  | succ n ih =>
      unfold drainCollect at h
      cases hcollect : q.collectOldest packets (collects n) with
      | mk collected more =>
        rw [hcollect] at h
        dsimp only at h
        split at h
        · rename_i hbad
          cases h
          exact absurd hok hbad
        · rename_i hgood
          obtain ⟨new, hnew, hone⟩ := collectOldest_gives hcollect (not_not.mp hgood)
          obtain ⟨new', hnew', hrest⟩ := ih h
          apply Exists.intro (new ++ new')
          constructor
          · rw [hnew', hnew, List.append_assoc]
          · exact hone.trans hrest

theorem drain_gives {answer : DrainAnswer} (h : q.drain packets answer = (status, packets', q'))
    (hok : status.result = .ok) : ∃ new, packets' = packets ++ new ∧ Gives q q' [] new := by
  unfold drain at h
  cases hsubmit : q.drainSubmit packets answer.last answer.accepted with
  | mk submitted more =>
    rw [hsubmit] at h
    dsimp only at h
    split at h
    · rename_i hbad
      cases h
      exact absurd hok hbad
    · rename_i hgood
      obtain ⟨new, hnew, hfirst⟩ := drainSubmit_gives hsubmit (not_not.mp hgood)
      obtain ⟨new', hnew', hsecond⟩ := drainCollect_gives h hok
      apply Exists.intro (new ++ new')
      constructor
      · rw [hnew', hnew, List.append_assoc]
      · exact hfirst.trans hsecond

/-! ## Rates -/

/-- The frame rate of a queue never changes. -/
def SameRate (q q' : VplEncoderQueue) : Prop := q'.fpsNum = q.fpsNum ∧ q'.fpsDen = q.fpsDen

theorem SameRate.trans (h : SameRate q q') (h' : SameRate q' q'') : SameRate q q'' :=
  ⟨h'.1.trans h.1, h'.2.trans h.2⟩

theorem signal_sameRate (q : VplEncoderQueue) (completion : Option Nat) (state : Gpu.CompletionState) :
    SameRate q (q.signal completion state) := ⟨by simp, by simp⟩

theorem submit_sameRate (q : VplEncoderQueue) (surface completion frame : Option Nat) (answer : SubmitAnswer) :
    SameRate q (q.submit surface completion frame answer).2 := by
  unfold submit
  split
  · exact ⟨rfl, rfl⟩
  · split
    · exact ⟨rfl, rfl⟩
    · split
      · exact ⟨rfl, rfl⟩
      · exact ⟨rfl, rfl⟩
    · exact ⟨rfl, rfl⟩
    · exact signal_sameRate _ _ _

theorem collectOldest_sameRate (q : VplEncoderQueue) (packets : List IntelEncodedPacket) (answer : CollectAnswer) :
    SameRate q (q.collectOldest packets answer).2.2 := by
  unfold collectOldest
  split
  · exact ⟨rfl, rfl⟩
  · dsimp only
    split
    · exact signal_sameRate _ _ _
    · split
      · exact signal_sameRate _ _ _
      · exact signal_sameRate _ _ _

/-! ## The end -/

theorem close_bitstreams (q : VplEncoderQueue) (statuses : Nat → Int) :
    (q.close statuses).surfaces = q.surfaces ∧ (q.close statuses).bitstreams = q.bitstreams := by
  have hfold : ∀ (ps : List (Pending × Nat)) (q : VplEncoderQueue),
      (ps.foldl (fun q p => q.signal p.1.inputCompletion
        (if statuses p.2 = 0 then .complete else failure "oneVPL encoder close synchronization failed")) q).surfaces =
          q.surfaces ∧
      (ps.foldl (fun q p => q.signal p.1.inputCompletion
        (if statuses p.2 = 0 then .complete else failure "oneVPL encoder close synchronization failed")) q).bitstreams =
          q.bitstreams := by
    intro ps
    induction ps with
    | nil => exact fun q => ⟨rfl, rfl⟩
    | cons p ps ih =>
        intro q
        rw [List.foldl_cons, (ih _).1, (ih _).2]
        simp
  unfold close
  split
  · exact ⟨rfl, rfl⟩
  · exact hfold _ _

end VplEncoderQueue

/-! ## The encoder -/

namespace IntelVplEncoder

open VplEncoderQueue (Gives)

variable {e e' : IntelVplEncoder} {status : Status} {packets : List IntelEncodedPacket}

/-- The time stamp of the surface of a submission with the tick `pts`. -/
def stamp (e : IntelVplEncoder) (pts : Int) : Nat :=
  vplTimeStamp e.fpsNum e.fpsDen (if 0 ≤ pts then pts else e.nextPts)

theorem accept_queue (e : IntelVplEncoder) (framePts : Int) (status : Status) (packets : List IntelEncodedPacket)
    (queue : VplEncoderQueue) : (e.accept framePts status packets queue).2.2.queue = queue := by
  unfold accept
  split <;> rfl

theorem submitCpuNv12_surfaces (e : IntelVplEncoder) (input : Nv12Input) (pts : Int) (answer : CpuSubmitAnswer) :
    (e.submitCpuNv12 input pts answer).2.2.queue.surfaces = e.queue.surfaces ∨
      (e.submitCpuNv12 input pts answer).2.2.queue.surfaces = e.queue.surfaces ++ [e.stamp pts] := by
  have hsubmit := e.queue.submit_surfaces (some (e.stamp pts)) none none answer.submit
  unfold submitCpuNv12
  unfold stamp at hsubmit ⊢
  generalize (if 0 ≤ pts then pts else e.nextPts) = framePts at hsubmit ⊢
  split
  · exact .inl rfl
  · split
    · exact .inl rfl
    · split
      · exact .inl rfl
      · split
        · exact .inl rfl
        · dsimp only
          split
          · rw [accept_queue, VplEncoderQueue.collectOldest_surfaces]
            exact hsubmit
          · rw [accept_queue]
            exact hsubmit

theorem submitted_surfaces (e : IntelVplEncoder) (framePts : Int) (completion : Nat) (status : Status)
    (queue : VplEncoderQueue) (answer : GpuSubmitAnswer) :
    (e.submitted framePts completion status queue answer).2.2.queue.surfaces = queue.surfaces := by
  unfold submitted
  split
  · simp
  · split
    · split
      · rfl
      · split
        · dsimp only
          rw [accept_queue, VplEncoderQueue.collectOldest_surfaces]
        · rw [accept_queue]
    · rw [accept_queue]
      simp

theorem submitGpuSurface_surfaces (e : IntelVplEncoder) (frame : Option GpuInput) (pts : Int)
    (answer : GpuSubmitAnswer) :
    (e.submitGpuSurface frame pts answer).2.2.queue.surfaces = e.queue.surfaces ∨
      (e.submitGpuSurface frame pts answer).2.2.queue.surfaces = e.queue.surfaces ++ [e.stamp pts] := by
  unfold submitGpuSurface
  split
  · exact .inl rfl
  · dsimp only
    split
    · exact .inl rfl
    · split
      · exact .inl rfl
      · split
        · exact .inl rfl
        · rw [submitted_surfaces]
          exact VplEncoderQueue.submit_surfaces _ (some (e.stamp pts)) _ _ _

/-- A write that is accepted goes through the queue, and nothing but the counter of the encoder changes with it. -/
theorem accept_ok {framePts : Int} {queue : VplEncoderQueue} {submitted : Status}
    {collected : List IntelEncodedPacket} (h : e.accept framePts submitted collected queue = (status, packets, e'))
    (hok : status.result = .ok) :
    (submitted.result = .ok ∨ submitted.result = .endOfStream) ∧ packets = collected ∧ e'.queue = queue ∧
      e' = { e with queue := e'.queue, nextPts := e'.nextPts } := by
  unfold accept at h
  split at h
  case isTrue hends =>
    cases h
    exact ⟨hends, rfl, rfl, rfl⟩
  case isFalse hends =>
    cases h
    exact absurd (.inl hok) hends

/-- The same behind the collection of the oldest bitstream. -/
theorem accept_collected {framePts : Int} {queue : VplEncoderQueue} {answer : CollectAnswer} {taken : List Nat}
    (htake : Gives e.queue queue taken [])
    (h : e.accept framePts (queue.collectOldest [] answer).1 (queue.collectOldest [] answer).2.1
      (queue.collectOldest [] answer).2.2 = (status, packets, e')) (hok : status.result = .ok) :
    Gives e.queue e'.queue taken packets ∧ e' = { e with queue := e'.queue, nextPts := e'.nextPts } := by
  have hne := queue.collectOldest_ne_endOfStream [] answer
  cases hcollect : queue.collectOldest [] answer with
  | mk collected more =>
    rw [hcollect] at h hne
    obtain ⟨hends, hpackets, hqueue, hrest⟩ := accept_ok h hok
    obtain ⟨new, hnew, hgive⟩ := VplEncoderQueue.collectOldest_gives hcollect (hends.resolve_right hne)
    rw [List.nil_append] at hnew
    constructor
    · rw [hqueue, hpackets, hnew, ← List.append_nil taken]
      exact htake.trans hgive
    · exact hrest

theorem writeNv12_ok {input : Nv12Input} {pts : Int} {answer : CpuSubmitAnswer}
    (h : e.writeNv12 input pts answer = (status, packets, e')) (hok : status.result = .ok) :
    Gives e.queue e'.queue [e.stamp pts] packets ∧ e' = { e with queue := e'.queue, nextPts := e'.nextPts } := by
  unfold writeNv12 at h
  split at h
  · cases h
    cases hok
  · unfold submitCpuNv12 at h
    split at h
    · cases h
      cases hok
    · split at h
      · cases h
        cases hok
      · split at h
        · cases h
          cases hok
        · split at h
          · cases h
            cases hok
          · dsimp only at h
            cases hsubmit : e.queue.submit (some (e.stamp pts)) none none answer.submit with
            | mk submitted queue =>
              rw [stamp] at hsubmit
              rw [hsubmit] at h
              dsimp only at h
              split at h
              · rename_i hdeep
                exact accept_collected (VplEncoderQueue.submit_gives hsubmit (.inl hdeep.1)) h hok
              · obtain ⟨hends, hpackets, hqueue, hrest⟩ := accept_ok h hok
                constructor
                · rw [hqueue, hpackets]
                  exact VplEncoderQueue.submit_gives hsubmit hends
                · exact hrest

theorem gives_signal {q q' : VplEncoderQueue} {taken : List Nat} (h : Gives q q' taken packets)
    (completion : Option Nat) (state : Gpu.CompletionState) : Gives q (q'.signal completion state) taken packets :=
  ⟨by simpa using h.surfaces, by simpa using h.bitstreams, by simpa using h.fpsNum, by simpa using h.fpsDen⟩

theorem submitted_ok {framePts : Int} {completion : Nat} {submitted : Status} {queue : VplEncoderQueue}
    {answer : GpuSubmitAnswer} {taken : List Nat}
    (htake : submitted.result = .ok ∨ submitted.result = .endOfStream → Gives e.queue queue taken [])
    (h : e.submitted framePts completion submitted queue answer = (status, packets, e')) (hok : status.result = .ok) :
    Gives e.queue e'.queue taken packets ∧ e' = { e with queue := e'.queue, nextPts := e'.nextPts } := by
  unfold IntelVplEncoder.submitted at h
  split at h
  · rename_i hbad
    cases h
    exact absurd hok hbad.1
  · split at h
    · rename_i hgood
      split at h
      · rename_i hbad
        cases h
        exact absurd hok hbad
      · split at h
        · exact accept_collected (htake (.inl hgood)) h hok
        · obtain ⟨-, hpackets, hqueue, hrest⟩ := accept_ok h hok
          constructor
          · rw [hqueue, hpackets]
            exact htake (.inl hgood)
          · exact hrest
    · obtain ⟨hends, hpackets, hqueue, hrest⟩ := accept_ok h hok
      constructor
      · rw [hqueue, hpackets]
        exact gives_signal (htake hends) _ _
      · exact hrest

theorem submitGpuSurface_ok {frame : Option GpuInput} {pts : Int} {answer : GpuSubmitAnswer}
    (h : e.submitGpuSurface frame pts answer = (status, packets, e')) (hok : status.result = .ok) :
    Gives e.queue e'.queue [e.stamp pts] packets ∧ e' = { e with queue := e'.queue, nextPts := e'.nextPts } := by
  unfold submitGpuSurface at h
  split at h
  · cases h
    cases hok
  · dsimp only at h
    split at h
    · cases h
      cases hok
    · split at h
      · cases h
        cases hok
      · split at h
        · rename_i acquired hbad _
          cases h
          exact absurd hok hbad
        · cases hsubmit : VplEncoderQueue.submit { e.queue with completionCount := e.queue.completionCount + 1 }
              (some (e.stamp pts)) (some e.queue.completionCount) (some _) answer.submit with
          | mk submitted queue =>
            rw [stamp] at hsubmit
            rw [hsubmit] at h
            apply submitted_ok _ h hok
            intro hends
            obtain ⟨hsurfaces, hbitstreams, hnum, hden⟩ := VplEncoderQueue.submit_gives hsubmit hends
            exact ⟨hsurfaces, hbitstreams, hnum, hden⟩

theorem drain_ok {answer : VplEncoderQueue.DrainAnswer} (h : e.drain answer = (status, packets, e'))
    (hok : status.result = .ok) :
    Gives e.queue e'.queue [] packets ∧ e' = { e with queue := e'.queue, drained := e'.drained } := by
  unfold drain at h
  split at h
  · cases h
    exact ⟨.refl _, rfl⟩
  · cases hdrain : e.queue.drain [] answer with
    | mk drained more =>
      rw [hdrain] at h
      dsimp only at h
      split at h
      · rename_i hbad
        cases h
        exact absurd hok hbad
      · rename_i hgood
        obtain ⟨new, hnew, hgive⟩ := VplEncoderQueue.drain_gives hdrain (not_not.mp hgood)
        cases h
        rw [List.nil_append] at hnew
        constructor
        · rw [hnew]
          exact hgive
        · rfl

/-! ## Rates -/

/-- The encoder and its queue are configured with the frame rate `fpsNum / fpsDen`. -/
structure Rated (fpsNum fpsDen : Nat) (e : IntelVplEncoder) : Prop where
  num : e.fpsNum = fpsNum
  den : e.fpsDen = fpsDen
  queueNum : e.queue.fpsNum = fpsNum
  queueDen : e.queue.fpsDen = fpsDen

variable {fpsNum fpsDen : Nat}

theorem create_rated {codec : Codec} {width height quality : Nat} {error : Option String}
    (h : create codec width height fpsNum fpsDen quality error = .ok e) : Rated fpsNum fpsDen e := by
  unfold create at h
  split at h
  · cases h
  · split at h
    · cases h
    · cases h
      exact ⟨rfl, rfl, rfl, rfl⟩

theorem accept_rated (hrated : Rated fpsNum fpsDen e) {queue : VplEncoderQueue}
    (hqueue : VplEncoderQueue.SameRate e.queue queue) (framePts : Int) (status : Status)
    (packets : List IntelEncodedPacket) : Rated fpsNum fpsDen (e.accept framePts status packets queue).2.2 := by
  have hnum := hqueue.1.trans hrated.queueNum
  have hden := hqueue.2.trans hrated.queueDen
  unfold accept
  split
  · exact ⟨hrated.num, hrated.den, hnum, hden⟩
  · exact ⟨hrated.num, hrated.den, hnum, hden⟩

theorem writeNv12_rated (hrated : Rated fpsNum fpsDen e) (input : Nv12Input) (pts : Int) (answer : CpuSubmitAnswer) :
    Rated fpsNum fpsDen (e.writeNv12 input pts answer).2.2 := by
  have hsubmit := e.queue.submit_sameRate (some (e.stamp pts)) none none answer.submit
  unfold writeNv12
  split
  · exact hrated
  · unfold submitCpuNv12
    unfold stamp at hsubmit
    generalize (if 0 ≤ pts then pts else e.nextPts) = framePts at hsubmit ⊢
    split
    · exact hrated
    · split
      · exact hrated
      · split
        · exact hrated
        · split
          · exact hrated
          · dsimp only
            split
            · exact accept_rated hrated (hsubmit.trans (VplEncoderQueue.collectOldest_sameRate _ _ _)) _ _ _
            · exact accept_rated hrated hsubmit _ _ _

theorem submitted_rated (hrated : Rated fpsNum fpsDen e) {queue : VplEncoderQueue}
    (hqueue : VplEncoderQueue.SameRate e.queue queue) (framePts : Int) (completion : Nat) (status : Status)
    (answer : GpuSubmitAnswer) : Rated fpsNum fpsDen (e.submitted framePts completion status queue answer).2.2 := by
  have hnum := hqueue.1.trans hrated.queueNum
  have hden := hqueue.2.trans hrated.queueDen
  unfold submitted
  split
  · exact ⟨hrated.num, hrated.den, by simpa using hnum, by simpa using hden⟩
  · split
    · split
      · exact ⟨hrated.num, hrated.den, hnum, hden⟩
      · split
        · exact accept_rated hrated (hqueue.trans (VplEncoderQueue.collectOldest_sameRate _ _ _)) _ _ _
        · exact accept_rated hrated hqueue _ _ _
    · exact accept_rated hrated (hqueue.trans (VplEncoderQueue.signal_sameRate _ _ _)) _ _ _

theorem submitGpuSurface_rated (hrated : Rated fpsNum fpsDen e) (frame : Option GpuInput) (pts : Int)
    (answer : GpuSubmitAnswer) : Rated fpsNum fpsDen (e.submitGpuSurface frame pts answer).2.2 := by
  unfold submitGpuSurface
  split
  · exact hrated
  · dsimp only
    split
    · exact hrated
    · split
      · exact hrated
      · split
        · exact hrated
        · apply submitted_rated hrated
          exact VplEncoderQueue.submit_sameRate { e.queue with completionCount := e.queue.completionCount + 1 } _ _ _ _

end IntelVplEncoder

end MkvCodec.Backend
