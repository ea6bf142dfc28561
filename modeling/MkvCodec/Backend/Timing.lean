import MkvCodec.Api.Result

/-!
# Time stamps of encoded frames

`FrameTiming` of `frame_timing.cpp`, and the conversions of the oneVPL backend between frame ticks and the 90 kHz
clock of its surfaces. The source computes in `uint64_t` and `int64_t`: products wrap, and so, here, does a signed
sum that overflows.
-/

namespace MkvCodec.Backend

/-- Conversion to `uint64_t`. -/
def u64 (n : Nat) : Nat := n % 2 ^ 64

/-- Conversion of an `int64_t` to `uint64_t`. -/
def asUInt64 (n : Int) : Nat := (n % 2 ^ 64).toNat

/-- Conversion of a `uint64_t` to `int64_t`. -/
def asInt64 (n : Nat) : Int := if u64 n < 2 ^ 63 then u64 n else (u64 n : Int) - 2 ^ 64

/-- A sum in `int64_t`. -/
def i64 (n : Int) : Int := asInt64 (asUInt64 n)

theorem u64_of_lt {n : Nat} (h : n < 2 ^ 64) : u64 n = n := Nat.mod_eq_of_lt h

theorem asUInt64_of_nat {n : Nat} (h : n < 2 ^ 64) : asUInt64 n = n := by
  have hmod : (n : Int) % 2 ^ 64 = n := Int.emod_eq_of_lt (Int.natCast_nonneg n) (by exact_mod_cast h)
  rw [asUInt64, hmod, Int.toNat_natCast]

theorem asInt64_of_lt {n : Nat} (h : n < 2 ^ 63) : asInt64 n = n := by
  have hu : u64 n = n := u64_of_lt (by omega)
  rw [asInt64, hu, if_pos h]

theorem i64_of_nat {n : Nat} (h : n < 2 ^ 63) : i64 n = n := by
  rw [i64, asUInt64_of_nat (by omega), asInt64_of_lt h]

/-! ## Frame ticks -/

/-- `FrameTiming`. -/
structure FrameTiming where
  fpsNum : Nat
  fpsDen : Nat
  nextPts : Int

namespace FrameTiming

def configure (fpsNum fpsDen : Nat) : FrameTiming := ⟨fpsNum, fpsDen, 0⟩

def select (t : FrameTiming) (requestedPts : Int) : Int := if 0 ≤ requestedPts then requestedPts else t.nextPts

def commit (t : FrameTiming) (acceptedPts : Int) : FrameTiming :=
  { t with nextPts := max t.nextPts (i64 (acceptedPts + 1)) }

end FrameTiming

/-- The conversion of a tick to nanoseconds, of `FrameTiming::to_nanoseconds` and of `VplPacketMuxer::write`. -/
def toNanoseconds (fpsNum fpsDen : Nat) (pts : Int) : Nat :=
  u64 (u64 (asUInt64 pts * fpsDen) * 1000000000) / fpsNum

/-- The duration of a frame, of `FrameTiming`, of `VplPacketMuxer` and of the NVENC submission. -/
def durationNanoseconds (fpsNum fpsDen : Nat) : Nat := u64 (fpsDen * 1000000000) / fpsNum

def FrameTiming.toNanoseconds (t : FrameTiming) (pts : Int) : Nat := Backend.toNanoseconds t.fpsNum t.fpsDen pts

def FrameTiming.durationNanoseconds (t : FrameTiming) : Nat := Backend.durationNanoseconds t.fpsNum t.fpsDen

/-! ## The 90 kHz clock -/

/-- The `TimeStamp` of a surface, of `submit_cpu_nv12` and of `submit_gpu_surface`. -/
def vplTimeStamp (fpsNum fpsDen : Nat) (framePts : Int) : Nat :=
  u64 (u64 (asUInt64 framePts * 90000) * fpsDen) / fpsNum

/-- The tick of an encoded bitstream, of `append_vpl_encoded_packet`. -/
def vplPts (fpsNum fpsDen : Nat) (timeStamp : Nat) : Int :=
  asInt64 (u64 (timeStamp * fpsNum) / u64 (90000 * fpsDen))

end MkvCodec.Backend
