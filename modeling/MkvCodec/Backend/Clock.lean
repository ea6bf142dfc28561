import MkvCodec.Backend.Lemmas.Vpl
import MkvCodec.Data.TimeBase

/-!
# The way of a tick through oneVPL

A tick goes in as a time of the 90 kHz clock and comes back as a tick. Both conversions round down, so only a tick that
is a whole number of units of the clock survives.
-/

namespace MkvCodec.Backend

open TimeBase (rescale)

theorem vplTimeStamp_eq {fpsNum fpsDen pts : Nat} (hpts : pts < 2 ^ 63) (hno : pts * (90000 * fpsDen) < 2 ^ 64) :
    vplTimeStamp fpsNum fpsDen pts = rescale (90000 * fpsDen) fpsNum pts := by
  rw [vplTimeStamp, asUInt64_of_nat (by omega), u64, u64, Nat.mod_mul_mod, Nat.mul_assoc, Nat.mod_eq_of_lt hno, rescale]

theorem vplPts_eq {fpsNum fpsDen timeStamp : Nat} (hden : 0 < fpsDen) (hlt : fpsDen < 2 ^ 32)
    (hno : timeStamp * fpsNum < 2 ^ 64) :
    vplPts fpsNum fpsDen timeStamp = rescale fpsNum (90000 * fpsDen) timeStamp := by
  have hsmall : timeStamp * fpsNum / (90000 * fpsDen) < 2 ^ 63 := by
    rw [Nat.div_lt_iff_lt_mul (by omega)]
    omega
  rw [vplPts, u64_of_lt hno, u64_of_lt (by omega), asInt64_of_lt hsmall, rescale]

/-- What comes back of a tick. -/
theorem vplPts_vplTimeStamp {fpsNum fpsDen pts : Nat} (hden : 0 < fpsDen) (hlt : fpsDen < 2 ^ 32)
    (hno : pts * (90000 * fpsDen) < 2 ^ 64) :
    vplPts fpsNum fpsDen (vplTimeStamp fpsNum fpsDen pts) =
      rescale fpsNum (90000 * fpsDen) (rescale (90000 * fpsDen) fpsNum pts) := by
  have hpts : pts < 2 ^ 63 := by
    have hmul : pts * 2 ≤ pts * (90000 * fpsDen) := Nat.mul_le_mul_left pts (by omega)
    omega
  have hback : rescale (90000 * fpsDen) fpsNum pts * fpsNum ≤ pts * (90000 * fpsDen) := Nat.div_mul_le_self _ _
  rw [vplTimeStamp_eq hpts hno, vplPts_eq hden hlt (by omega)]

theorem vplPts_vplTimeStamp_eq_iff {fpsNum fpsDen pts : Nat} (hden : 0 < fpsDen) (hlt : fpsDen < 2 ^ 32)
    (hno : pts * (90000 * fpsDen) < 2 ^ 64) :
    vplPts fpsNum fpsDen (vplTimeStamp fpsNum fpsDen pts) = pts ↔ fpsNum ∣ pts * (90000 * fpsDen) := by
  rw [vplPts_vplTimeStamp hden hlt hno, Int.natCast_inj]
  exact TimeBase.rescale_back (by omega)

/-! ## Through the submissions and the bitstream -/

/-- A submission of the tick `pts`, from the CPU or from the GPU, hands over a surface with the time stamp `t`. -/
inductive Submitted (config : Config) (pts : Int) (t : Nat) : Prop
  | cpu (e : IntelVplEncoder) (input : Nv12Input) (answer : CpuSubmitAnswer) (num : e.fpsNum = config.fpsNum)
      (den : e.fpsDen = config.fpsDen)
      (taken : (e.submitCpuNv12 input pts answer).2.2.queue.surfaces = e.queue.surfaces ++ [t])
  | gpu (e : IntelVplEncoder) (frame : Option GpuInput) (answer : GpuSubmitAnswer) (num : e.fpsNum = config.fpsNum)
      (den : e.fpsDen = config.fpsDen)
      (taken : (e.submitGpuSurface frame pts answer).2.2.queue.surfaces = e.queue.surfaces ++ [t])

/-- A tick goes in, the bitstream comes back with its time stamp, and its packet gets the tick `back`. -/
inductive RoundTrip (config : Config) (pts back : Int) : Prop
  | intro (b : Bitstream) (packets : List IntelEncodedPacket) {packets' : List IntelEncodedPacket} {status : Status}
      (submitted : Submitted config pts b.timeStamp) (filled : b.data.isEmpty = false)
      (converted : appendVplEncodedPacket b config.codec config.fpsNum config.fpsDen packets = (status, packets'))
      (ok : status.result = .ok)
      (returned : packets'.map IntelEncodedPacket.pts = packets.map IntelEncodedPacket.pts ++ [back])

theorem Submitted.eq {config : Config} {pts : Int} {t : Nat} (hpts : 0 ≤ pts) (h : Submitted config pts t) :
    t = vplTimeStamp config.fpsNum config.fpsDen pts := by
  cases h with
  | cpu e input answer num den taken =>
      rw [← num, ← den]
      cases e.submitCpuNv12_surfaces input pts answer with
      | inl hsame =>
          rw [taken] at hsame
          simp at hsame
      | inr hadd =>
          rw [taken, IntelVplEncoder.stamp, if_pos hpts] at hadd
          simpa using hadd
  | gpu e frame answer num den taken =>
      rw [← num, ← den]
      cases e.submitGpuSurface_surfaces frame pts answer with
      | inl hsame =>
          rw [taken] at hsame
          simp at hsame
      | inr hadd =>
          rw [taken, IntelVplEncoder.stamp, if_pos hpts] at hadd
          simpa using hadd

theorem RoundTrip.back_eq {config : Config} {pts back : Int} (hpts : 0 ≤ pts) (h : RoundTrip config pts back) :
    back = vplPts config.fpsNum config.fpsDen (vplTimeStamp config.fpsNum config.fpsDen pts) := by
  obtain ⟨b, packets, submitted, filled, converted, ok, returned⟩ := h
  obtain ⟨added, heq, hadded⟩ := appendVplEncodedPacket_ok converted ok
  rw [heq, List.map_append] at returned
  rw [List.append_cancel_left returned] at hadded
  simpa [stamps, filled, submitted.eq hpts] using hadded

/-- Two ticks come back as they are, and so stay apart, when both are whole numbers of units of the clock, and only
then. -/
theorem roundTrip_iff (config : Config) {p q p' q' : Int} (hp : 0 ≤ p ∧ p.toNat * (90000 * config.fpsDen) < 2 ^ 64)
    (hq : 0 ≤ q ∧ q.toNat * (90000 * config.fpsDen) < 2 ^ 64) (h : RoundTrip config p p') (h' : RoundTrip config q q') :
    p' = p ∧ q' = q ∧ (p ≠ q → p' ≠ q') ↔
      config.fpsNum ∣ p.toNat * (90000 * config.fpsDen) ∧ config.fpsNum ∣ q.toNat * (90000 * config.fpsDen) := by
  have hone : ∀ {r r' : Int}, 0 ≤ r ∧ r.toNat * (90000 * config.fpsDen) < 2 ^ 64 → RoundTrip config r r' →
      (r' = r ↔ config.fpsNum ∣ r.toNat * (90000 * config.fpsDen)) := by
    intro r r' hr hround
    have hback := hround.back_eq hr.1
    have hiff : vplPts config.fpsNum config.fpsDen (vplTimeStamp config.fpsNum config.fpsDen r.toNat) = r.toNat ↔
        config.fpsNum ∣ r.toNat * (90000 * config.fpsDen) :=
      vplPts_vplTimeStamp_eq_iff config.fpsDen_pos config.fpsDen_lt hr.2
    rw [Int.toNat_of_nonneg hr.1, ← hback] at hiff
    exact hiff
  rw [hone hp h, hone hq h']
  constructor
  · intro hboth
    exact ⟨hboth.1, hboth.2.1⟩
  · intro hboth
    have hpp := (hone hp h).mpr hboth.1
    have hqq := (hone hq h').mpr hboth.2
    rw [hpp, hqq]
    exact ⟨hboth.1, hboth.2, id⟩

/-! ## Small runs -/

def Config.smallVpl (config : Config) : IntelVplEncoder :=
  { codec := config.codec, width := config.width, height := config.height, fpsNum := config.fpsNum
    fpsDen := config.fpsDen, nextPts := 0, drained := false, closed := false
    queue := .created config.codec config.fpsNum config.fpsDen 4 }

/-- A surface is there, and the device takes it. -/
def CpuSubmitAnswer.small (collect : Bitstream) : CpuSubmitAnswer := ⟨true, true, true, .accepted true, ⟨0, collect⟩⟩

/-- Thirty frames in a second: a frame is 3000 units long. -/
def videoConfig : Config := .small .av1 30 1 Config.video_valid Config.videoScale_valid

theorem roundTrip_video (pts back : Int) (t : Nat) (ht : t = vplTimeStamp 30 1 (if 0 ≤ pts then pts else 0))
    (hback : vplPts 30 1 t = back) : RoundTrip videoConfig pts back :=
  .intro ⟨[0], t, true⟩ []
    (.cpu videoConfig.smallVpl ⟨true, 2, true, 2⟩ (.small ⟨[0], 0, true⟩) rfl rfl (ht ▸ rfl))
    rfl rfl rfl (hback ▸ rfl)

theorem roundTrip_small :
    (1 : Int) = 1 ∧ (2 : Int) = 2 ∧ ((1 : Int) ≠ 2 → (1 : Int) ≠ 2) ↔ 30 ∣ 1 * (90000 * 1) ∧ 30 ∣ 2 * (90000 * 1) :=
  roundTrip_iff videoConfig (by decide) (by decide) (roundTrip_video 1 1 3000 (by decide) (by decide))
    (roundTrip_video 2 2 6000 (by decide) (by decide))

/-- 24000 frames in 1001 seconds: a frame is 3753.75 units long. -/
def cinemaConfig : Config := .small .av1 24000 1001 Config.film_valid Config.filmScale_valid

/-- The first two frames of a film both come back as the first. -/
theorem roundTrip_lossy :
    ¬ ∀ (config : Config) (p q p' q' : Int), 0 ≤ p ∧ p.toNat * (90000 * config.fpsDen) < 2 ^ 64 →
      0 ≤ q ∧ q.toNat * (90000 * config.fpsDen) < 2 ^ 64 → RoundTrip config p p' → RoundTrip config q q' →
      p' = p ∧ q' = q ∧ (p ≠ q → p' ≠ q') := by
  intro h
  have hfirst : RoundTrip cinemaConfig 0 0 :=
    .intro ⟨[0], 0, true⟩ []
      (.cpu cinemaConfig.smallVpl ⟨true, 2, true, 2⟩ (.small ⟨[0], 0, true⟩) rfl rfl rfl)
      rfl rfl rfl rfl
  have hsecond : RoundTrip cinemaConfig 1 0 :=
    .intro ⟨[0], 3753, true⟩ []
      (.cpu cinemaConfig.smallVpl ⟨true, 2, true, 2⟩ (.small ⟨[0], 0, true⟩) rfl rfl rfl)
      rfl rfl rfl rfl
  have hzero := (h _ _ _ _ _ (by decide) (by decide) hfirst hsecond).2.1
  cases hzero

end MkvCodec.Backend
