import MkvCodec.Backend.Lemmas.Packets
import MkvCodec.Data.TimeBase

/-!
# When the conversions of time stamps are exact

The nanoseconds of a tick are right as long as the product of the source does not wrap, also where the quotient would
fit. The way through the 90 kHz clock is right for the ticks that are a whole number of its units.
-/

namespace MkvCodec.Backend

open TimeBase (rescale)

/-- The nanoseconds of a tick, without a bound. -/
def exactNanoseconds (fpsNum fpsDen pts : Nat) : Nat := rescale (fpsDen * 1000000000) fpsNum pts

theorem toNanoseconds_eq_mod {fpsNum fpsDen pts : Nat} (hpts : pts < 2 ^ 63) :
    toNanoseconds fpsNum fpsDen pts = pts * (fpsDen * 1000000000) % 2 ^ 64 / fpsNum := by
  rw [toNanoseconds, asUInt64_of_nat (by omega), u64, u64, Nat.mod_mul_mod, Nat.mul_assoc]

theorem toNanoseconds_eq_iff {fpsNum fpsDen pts : Nat} (hnum : 0 < fpsNum) (hlt : fpsNum < 2 ^ 32) (hpts : pts < 2 ^ 63) :
    toNanoseconds fpsNum fpsDen pts = exactNanoseconds fpsNum fpsDen pts ↔ pts * (fpsDen * 1000000000) < 2 ^ 64 := by
  rw [toNanoseconds_eq_mod hpts, exactNanoseconds]
  exact TimeBase.rescale_mod_eq_iff hnum (by omega)

/-! ## What the muxing paths hand to the container -/

/-- One of the muxing paths has taken packets with the time stamps `pts`, and handed their frames to the container
under the time stamps `given`. -/
inductive Handed (config : Config) (pts : List Int) (given : List Nat) : Prop
  | vp9 {e e' : CpuVp9Encoder} {packets : List (VpxPacket × AddAnswer)} {status : Status}
      (num : e.timing.fpsNum = config.fpsNum) (den : e.timing.fpsDen = config.fpsDen)
      (collected : e.collectPackets packets = (status, e')) (ok : status.result = .ok)
      (returned : e'.calls.filterMap VpxCall.returned = e.calls.filterMap VpxCall.returned ++ pts)
      (taken : e'.muxer.timestamps = e.muxer.timestamps ++ given)
  | av1 {e e' : CpuAv1Encoder} {packets : List SvtAnswer} {failed : Bool} {status : Status}
      (num : e.timing.fpsNum = config.fpsNum) (den : e.timing.fpsDen = config.fpsDen)
      (collected : e.collectPackets failed packets = (status, e')) (ok : status.result = .ok)
      (returned : e'.calls.filterMap SvtCall.returned = e.calls.filterMap SvtCall.returned ++ pts)
      (taken : e'.muxer.timestamps = e.muxer.timestamps ++ given)
  | intel (m : VplPacketMuxer) (packets : List IntelEncodedPacket) (adds : Nat → AddAnswer) {m' : VplPacketMuxer}
      {status : Status}
      (num : m.fpsNum = config.fpsNum) (den : m.fpsDen = config.fpsDen)
      (written : m.write adds packets = (status, m')) (ok : status.result = .ok)
      (returned : packets.map IntelEncodedPacket.pts = pts)
      (taken : m'.muxer.timestamps = m.muxer.timestamps ++ given)

/-- All three paths convert in the same way. -/
theorem Handed.given_eq {config : Config} {pts : List Int} {given : List Nat} (h : Handed config pts given) :
    given = pts.map (toNanoseconds config.fpsNum config.fpsDen) := by
  cases h with
  | vp9 num den collected ok returned taken =>
      obtain ⟨heq, hts⟩ := CpuVp9Encoder.collectPackets_ok collected ok
      rw [heq, List.filterMap_append] at returned
      rw [List.append_cancel_left returned, taken] at hts
      rw [List.append_cancel_left hts, ← num, ← den]
      rfl
  | av1 num den collected ok returned taken =>
      obtain ⟨gets, heq, hts⟩ := CpuAv1Encoder.collectPackets_ok collected ok
      rw [heq, List.filterMap_append] at returned
      rw [List.append_cancel_left returned, taken] at hts
      rw [List.append_cancel_left hts, ← num, ← den]
      rfl
  | intel m packets adds num den written ok returned taken =>
      obtain ⟨-, hts⟩ := VplPacketMuxer.write_ok written ok
      rw [taken] at hts
      rw [List.append_cancel_left hts, ← num, ← den, ← returned, List.map_map]
      rfl

/-- What the container should get. -/
def exactTimes (config : Config) (pts : List Int) : List Nat :=
  pts.map fun p => exactNanoseconds config.fpsNum config.fpsDen p.toNat

theorem exactTimes_sorted (config : Config) {pts : List Int} (h : pts.Pairwise (· ≤ ·)) :
    (exactTimes config pts).Pairwise (· ≤ ·) := by
  rw [exactTimes, List.pairwise_map]
  apply h.imp
  intro p q hpq
  exact TimeBase.rescale_mono (Int.toNat_le_toNat hpq)

/-- Time stamps in order reach the container exact, and in order, when no product wraps, and only then. -/
theorem handed_exact_iff (config : Config) (pts : List Int) (given : List Nat)
    (hrange : ∀ p ∈ pts, 0 ≤ p ∧ p < 2 ^ 63) (hsorted : pts.Pairwise (· ≤ ·))
    (h : Handed config pts given) :
    given = exactTimes config pts ∧ given.Pairwise (· ≤ ·) ↔
      ∀ p ∈ pts, p.toNat * (config.fpsDen * 1000000000) < 2 ^ 64 := by
  have hone : ∀ p ∈ pts, toNanoseconds config.fpsNum config.fpsDen p =
      exactNanoseconds config.fpsNum config.fpsDen p.toNat ↔ p.toNat * (config.fpsDen * 1000000000) < 2 ^ 64 := by
    intro p hp
    have hp' := hrange p hp
    have hcast : toNanoseconds config.fpsNum config.fpsDen p = toNanoseconds config.fpsNum config.fpsDen p.toNat := by
      rw [Int.toNat_of_nonneg hp'.1]
    rw [hcast]
    exact toNanoseconds_eq_iff config.fpsNum_pos config.fpsNum_lt (by omega)
  rw [h.given_eq, exactTimes, List.map_inj_left]
  constructor
  · intro hexact p hp
    exact (hone p hp).mp (hexact.1 p hp)
  · intro hwrap
    have heq : ∀ p ∈ pts, toNanoseconds config.fpsNum config.fpsDen p =
        exactNanoseconds config.fpsNum config.fpsDen p.toNat := fun p hp => (hone p hp).mpr (hwrap p hp)
    constructor
    · exact heq
    · rw [List.map_congr_left heq]
      exact exactTimes_sorted config hsorted

/-- 24000 frames in 1001 seconds. -/
def filmConfig : Config := .small .vp9 24000 1001 Config.film_valid Config.filmScale_valid

def smallAdd : AddAnswer := ⟨true, true⟩

theorem handed_small : Handed filmConfig [0, 1] [0, 41708333] :=
  .intel ⟨.created, 24000, 1001⟩ [⟨[0], 0, true⟩, ⟨[0], 1, false⟩] (fun _ => smallAdd)
    rfl rfl rfl rfl rfl rfl

theorem handed_exact_small :
    [0, 41708333] = exactTimes filmConfig [0, 1] ∧ [0, 41708333].Pairwise (· ≤ ·) :=
  (handed_exact_iff filmConfig [0, 1] [0, 41708333] (by decide) (by decide) handed_small).mpr (by decide)

/-- Nine days into a film the product wraps, and the time stamps start again. The exact ones fit in 64 bits for 24000
times as long. -/
theorem handed_wrapped :
    ¬ ∀ (config : Config) (pts : List Int) (given : List Nat), (∀ p ∈ pts, 0 ≤ p ∧ p < 2 ^ 63) →
      pts.Pairwise (· ≤ ·) → (∀ p ∈ pts, exactNanoseconds config.fpsNum config.fpsDen p.toNat < 2 ^ 64) →
      Handed config pts given → given = exactTimes config pts ∧ given.Pairwise (· ≤ ·) := by
  intro h
  have hhanded : Handed filmConfig [18428315, 18428316] [768614304791666, 10095435] :=
    .intel ⟨.created, 24000, 1001⟩ [⟨[0], 18428315, true⟩, ⟨[0], 18428316, false⟩] (fun _ => smallAdd) rfl rfl rfl rfl rfl rfl
  have hsorted := (h _ _ _ (by decide) (by decide) (by decide) hhanded).2
  exact absurd hsorted (by decide)

end MkvCodec.Backend
