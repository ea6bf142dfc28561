import MkvCodec.Backend.Nvenc

/-!
# The calls of an NVENC session

Creating and destroying sessions submits nothing; a submission that succeeds is one picture.
-/

namespace MkvCodec.Backend

/-- The session that a call submits to or takes from. -/
def NvencCall.session : NvencCall → Option NvencSession
  | .lockInput session | .unlockInput session | .register session | .map session | .unmap session
  | .unregister session | .eos session | .unlockBitstream session => some session
  | .encode session _ _ => some session
  | .lockBitstream session _ => some session
  | _ => none

/-- Calls that neither submit nor take anything. -/
def Quiet (calls : List NvencCall) : Prop := ∀ c ∈ calls, c.session = none

theorem Quiet.nil : Quiet [] := by simp [Quiet]

theorem Quiet.append {calls calls' : List NvencCall} (h : Quiet calls) (h' : Quiet calls') : Quiet (calls ++ calls') := by
  intro c hc
  cases List.mem_append.mp hc with
  | inl hc => exact h c hc
  | inr hc => exact h' c hc

theorem openNvencSession_quiet (session : NvencSession) (answer : NvencInit) :
    Quiet (openNvencSession session answer).2.2 := by
  unfold openNvencSession
  split
  · simp [Quiet, NvencCall.session]
  · dsimp only
    split
    · simp [Quiet, NvencCall.session]
    · split
      · simp [Quiet, NvencCall.session]
      · split
        · simp [Quiet, NvencCall.session]
        · split <;> simp [Quiet, NvencCall.session]

theorem initializeNvencSession_quiet (externalContext : Option Nat) (session : NvencSession) (answer : NvencInit) :
    Quiet (initializeNvencSession externalContext session answer).2.2 := by
  unfold initializeNvencSession
  split
  · exact .nil
  · split
    · exact openNvencSession_quiet _ _
    · split
      · simp [Quiet, NvencCall.session]
      · intro c hc
        cases List.mem_cons.mp hc with
        | inl hc => rw [hc]; rfl
        | inr hc => exact openNvencSession_quiet _ _ c hc

theorem destroyNvencSession_quiet (session : NvencSession) : Quiet (destroyNvencSession session) := by
  obtain ⟨context, owns, encoder, input, output⟩ := session
  apply Quiet.append
  · cases encoder <;> cases input <;> cases output <;> simp [Quiet, NvencCall.session]
  · cases context <;> cases owns <;> simp [Quiet, NvencCall.session]

namespace NvencSessionManager

variable {m m' : NvencSessionManager} {status : Status} {calls : List NvencCall}

theorem initializeSession_quiet {externalContext : Option Nat} {answer : NvencInit}
    (h : m.initializeSession externalContext answer = (status, m', calls)) : Quiet calls := by
  have hquiet := initializeNvencSession_quiet externalContext m.session answer
  unfold initializeSession at h
  dsimp only at h
  split at h
  · cases h
    exact hquiet.append (destroyNvencSession_quiet _)
  · cases h
    exact hquiet

theorem bindCudaContext_quiet {context contextOwner : Option Nat} {submittedFrames : Nat} {answer : NvencInit}
    (h : m.bindCudaContext context contextOwner submittedFrames answer = (status, m', calls)) : Quiet calls := by
  unfold bindCudaContext at h
  split at h
  · cases h
    exact .nil
  · split at h
    · split at h
      · cases h
        exact .nil
      · cases h
        exact .nil
    · split at h
      · cases h
        exact .nil
      · cases hinit : initializeSession ⟨context, .empty, contextOwner⟩ context answer with
        | mk bound more =>
          have hquiet := (destroyNvencSession_quiet m.session).append (initializeSession_quiet hinit)
          rw [hinit] at h
          dsimp only at h
          split at h
          · cases h
            exact hquiet
          · cases h
            exact hquiet

theorem restartCpu_quiet {answer : NvencInit} (h : m.restartCpu answer = (status, m', calls)) : Quiet calls := by
  cases hinit : initializeSession ⟨none, .empty, none⟩ none answer with
  | mk restarted more =>
    unfold restartCpu at h
    rw [hinit] at h
    cases h
    exact (destroyNvencSession_quiet m.session).append (initializeSession_quiet hinit)

end NvencSessionManager

/-! ## Pictures -/

/-- The time stamp of a picture that NVENC has taken. -/
def NvencCall.submitted : NvencCall → Option Nat
  | .encode _ picture true => some picture.inputTimeStamp
  | _ => none

/-- The time stamp of a packet that carries something. -/
def NvencCall.returned : NvencCall → Option Nat
  | .lockBitstream _ (some packet) => if packet.data.isEmpty then none else some packet.outputTimeStamp
  | _ => none

theorem Quiet.submitted {calls : List NvencCall} (h : Quiet calls) : calls.filterMap NvencCall.submitted = [] := by
  rw [List.filterMap_eq_nil_iff]
  intro c hc
  have hquiet := h c hc
  cases c with
  | encode session picture encoded => cases hquiet
  | _ => rfl

theorem Quiet.returned {calls : List NvencCall} (h : Quiet calls) : calls.filterMap NvencCall.returned = [] := by
  rw [List.filterMap_eq_nil_iff]
  intro c hc
  have hquiet := h c hc
  cases c with
  | lockBitstream session packet => cases hquiet
  | _ => rfl

theorem submitNvencCpuFrame_ok {session : NvencSession} {nv12 : Bool} {picture : NvencPicture}
    {answer : NvencCpuSubmit} {status : Status} {calls : List NvencCall}
    (h : submitNvencCpuFrame session nv12 picture answer = (status, calls)) (hok : status.result = .ok) :
    calls = [.lockInput session, .unlockInput session, .encode session picture true] := by
  unfold submitNvencCpuFrame at h
  split at h
  · cases h
    cases hok
  · split at h
    · cases h
      cases hok
    · split at h
      · cases h
        cases hok
      · dsimp only at h
        split at h
        · rename_i hencoded
          cases h
          rw [hencoded]
          rfl
        · cases h
          cases hok
        · cases h
          cases hok

theorem submitNvencCudaFrame_ok {session : NvencSession} {picture : NvencPicture} {answer : NvencGpuSubmit}
    {status : Status} {calls : List NvencCall} (h : submitNvencCudaFrame session picture answer = (status, calls))
    (hok : status.result = .ok) :
    calls = [.register session, .map session, .encode session picture true, .unmap session, .unregister session] := by
  unfold submitNvencCudaFrame at h
  split at h
  · cases h
    cases hok
  · split at h
    · cases h
      cases hok
    · cases hencoded : answer.encoded with
      | true =>
          rw [hencoded] at h
          cases h
          rfl
      | false =>
          rw [hencoded] at h
          cases h
          cases hok

theorem muxNvencPacket_ok {session : NvencSession} {muxer muxer' : WebmMuxer} {defaultDurationNs : Nat}
    {packet : Option NvencPacket} {answer : AddAnswer} {status : Status} {calls : List NvencCall}
    (h : muxNvencPacket session muxer defaultDurationNs packet answer = (status, muxer', calls))
    (hok : status.result = .ok) :
    calls.filterMap NvencCall.submitted = [] ∧
      muxer'.timestamps = muxer.timestamps ++ calls.filterMap NvencCall.returned := by
  unfold muxNvencPacket at h
  split at h
  · cases h
    cases hok
  · dsimp only at h
    split at h
    · cases h
      cases hok
    · rename_i packet hfilled
      cases h
      have hadd := WebmMuxer.addFrame_timestamps muxer packet.data packet.outputTimeStamp
        (if packet.outputDuration ≠ 0 then packet.outputDuration else defaultDurationNs) packet.key answer
      rw [if_pos hok] at hadd
      have hlock : NvencCall.returned (.lockBitstream session (some packet)) = some packet.outputTimeStamp := by
        simp [NvencCall.returned, hfilled]
      have hreturned : [NvencCall.lockBitstream session (some packet), .unlockBitstream session].filterMap
          NvencCall.returned = [packet.outputTimeStamp] := by
        rw [List.filterMap_cons_some hlock]
        rfl
      rw [hreturned]
      exact ⟨rfl, hadd⟩

end MkvCodec.Backend
