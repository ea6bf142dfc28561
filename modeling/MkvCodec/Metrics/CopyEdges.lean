import Mathlib.Logic.Function.Basic

/-!
# Copy edges

The counters of `copy_edge_metrics.hpp` and the copy path of the C ABI.
-/

namespace MkvCodec

/-- `CopyEdge`. -/
inductive CopyEdge
  | sharedSurface
  | zeroCopy
  | gpuCopy
  | cpuUpload
  | cpuReadback
  | cpuNormalization
  | pixelConversion
  deriving DecidableEq

/-- `mkvc_copy_path`. -/
inductive CopyPath
  | unknown
  | cpu
  | zeroCopy
  | mixed
  deriving DecidableEq

/-- `CopyEdgeMetricsAccumulator::add`. -/
def addEdge (edge : CopyEdge) (edges : CopyEdge → Nat) : CopyEdge → Nat := Function.update edges edge (edges edge + 1)

theorem addEdge_self (edge : CopyEdge) (edges : CopyEdge → Nat) : addEdge edge edges edge = edges edge + 1 :=
  Function.update_self ..

theorem addEdge_of_ne {edge edge' : CopyEdge} (hne : edge' ≠ edge) (edges : CopyEdge → Nat) :
    addEdge edge edges edge' = edges edge' := Function.update_of_ne hne _ _

/-- `observe_copy_path`. -/
def observeCopyPath (path seen : CopyPath) : CopyPath :=
  if path = .unknown then seen else if path ≠ seen then .mixed else path

/-- The path of a number of frames from the CPU and a number of frames on the GPU. -/
def pathOf (cpu gpu : Nat) : CopyPath :=
  if cpu = 0 then if gpu = 0 then .unknown else .zeroCopy else if gpu = 0 then .cpu else .mixed

theorem observeCopyPath_cpu (cpu gpu : Nat) : observeCopyPath (pathOf cpu gpu) .cpu = pathOf (cpu + 1) gpu := by
  unfold pathOf
  by_cases hcpu : cpu = 0 <;> by_cases hgpu : gpu = 0 <;> simp [hcpu, hgpu, observeCopyPath]

theorem observeCopyPath_zeroCopy (cpu gpu : Nat) : observeCopyPath (pathOf cpu gpu) .zeroCopy = pathOf cpu (gpu + 1) := by
  unfold pathOf
  by_cases hcpu : cpu = 0 <;> by_cases hgpu : gpu = 0 <;> simp [hcpu, hgpu, observeCopyPath]

end MkvCodec
