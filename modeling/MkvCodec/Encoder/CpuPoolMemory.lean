import MkvCodec.Backend.FrameLayout
import MkvCodec.Backend.Timing
import MkvCodec.Data.RecordList
import MkvCodec.Data.Resources
import MkvCodec.Encoder.BufferRetention

/-!
# The memory of the CPU frame pool

`CpuAllocation` and `CpuFramePool::create` with what they get from the allocator and from the operating system and give back
to them, and the views of the leases. The answers of the system are parameters. Of the two systems this is POSIX.
-/

namespace MkvCodec.Encoder

open Backend Concurrency Resources

/-! ## One allocation -/

/-- `number` counts the calls of `CpuAllocation::allocate`; the code has no such number. -/
structure MemoryBlock where
  number : Nat
  address : Nat
  bytes : Nat
  deriving DecidableEq

/-- The buffer of a vector, a mapping, and the lock on the pages of a mapping. -/
inductive CpuMemory
  | vector (block : MemoryBlock)
  | mapping (block : MemoryBlock)
  | pageLock (block : MemoryBlock)
  deriving DecidableEq

namespace CpuMemory

def block : CpuMemory → MemoryBlock
  | vector block | mapping block | pageLock block => block

/-- A lock stands on its mapping. -/
def On : CpuMemory → CpuMemory → Prop
  | pageLock block, mapping block' => block = block'
  | _, _ => False

/-- Two blocks do not overlap. A lock takes no memory. -/
def Apart : CpuMemory → CpuMemory → Prop
  | pageLock _, _ | _, pageLock _ => True
  | r, r' => r.block.address + r.block.bytes ≤ r'.block.address ∨ r'.block.address + r'.block.bytes ≤ r.block.address

theorem Apart.symm {r r' : CpuMemory} (h : Apart r r') : Apart r' r := by
  cases r <;> cases r' <;> first | trivial | exact Or.symm h

theorem Apart.of_memory {r r' : CpuMemory} (h : Apart r r') (hr : ∀ block, r ≠ pageLock block) (hr' : ∀ block, r' ≠ pageLock block) :
    r.block.address + r.block.bytes ≤ r'.block.address ∨ r'.block.address + r'.block.bytes ≤ r.block.address := by
  cases r with
  | pageLock block => exact absurd rfl (hr block)
  | vector | mapping =>
      cases r' with
      | pageLock block => exact absurd rfl (hr' block)
      | vector | mapping => exact h

end CpuMemory

/-- What the system answers to one call of `allocate`: the buffer of the vector or what `resize` throws, the address of `mmap`
unless it is `MAP_FAILED`, whether `mlock` succeeds, and the text of the error. -/
structure AllocationAnswer where
  resize : Except (Option String) Nat
  mmap : Option Nat
  mlock : Bool
  strerror : String

inductive AllocationFailure
  | returned (error : String)
  | threw (what : Option String)

structure SystemMemory where
  allocations : Nat
  events : List (Resources.Event CpuMemory)

/-- The value of `page_size`, a positive `long`. -/
structure PageSize where
  bytes : Nat
  pos : 0 < bytes
  lt : bytes < 2 ^ 63

/-- The bytes of whole pages for so many bytes. -/
def PageSize.whole (page : PageSize) (bytes : Nat) : Nat := u64 (u64 (bytes + page.bytes - 1) / page.bytes * page.bytes)

/-- `CpuAllocation`. `pageable` is the buffer of the vector with its size. -/
structure CpuAllocation where
  number : Nat
  pageable : Option (Nat × Nat)
  locked : Option Nat
  size : Nat
  lockedBytes : Nat

namespace CpuAllocation

def empty (number : Nat) : CpuAllocation := ⟨number, none, none, 0, 0⟩

def data (a : CpuAllocation) : Option Nat :=
  match a.locked with
  | some address => some address
  | none => a.pageable.map Prod.fst

/-- What the destructor gives back, in its order. -/
def held (a : CpuAllocation) : List CpuMemory :=
  (match a.locked with
   | some address => [.pageLock ⟨a.number, address, a.lockedBytes⟩, .mapping ⟨a.number, address, a.lockedBytes⟩]
   | none => []) ++
    (match a.pageable with
     | some (address, size) => [.vector ⟨a.number, address, size⟩]
     | none => [])

/-- `allocate` of a new allocation. -/
def allocate (page : PageSize) (answers : Nat → AllocationAnswer) (bytes : Nat) (pageLocked : Bool) (memory : SystemMemory) :
    SystemMemory × CpuAllocation × Option AllocationFailure :=
  let number := memory.allocations
  let answer := answers number
  if !pageLocked then
    match answer.resize with
    | .error what => (⟨number + 1, memory.events⟩, empty number, some (.threw what))
    | .ok address =>
        (⟨number + 1, .create (.vector ⟨number, address, bytes⟩) :: memory.events⟩, ⟨number, some (address, bytes), none, bytes, 0⟩, none)
  else
    let lockedBytes := page.whole bytes
    let failed := some (AllocationFailure.returned ("page-locked mmap failed: " ++ answer.strerror))
    match answer.mmap with
    | none => (⟨number + 1, memory.events⟩, empty number, failed)
    | some address =>
        let block : MemoryBlock := ⟨number, address, lockedBytes⟩
        if answer.mlock then
          (⟨number + 1, .create (.pageLock block) :: .create (.mapping block) :: memory.events⟩,
            ⟨number, none, some address, bytes, lockedBytes⟩, none)
        else (⟨number + 1, .destroy (.mapping block) :: .create (.mapping block) :: memory.events⟩, empty number, failed)

end CpuAllocation

/-! ## The slots of a pool -/

/-- `mkvc_cpu_memory_mode`. -/
inductive CpuMemoryMode
  | pageable
  | pageLocked
  | unknown (code : Nat)
  deriving DecidableEq

/-- `mkvc_cpu_frame_pool_config`. -/
structure CpuFramePoolConfig where
  pixelFormat : PixelFormat
  width : UInt32
  height : UInt32
  capacity : UInt32

/-- A plane of a slot with its stride. -/
structure PoolPlane where
  allocation : CpuAllocation
  stride : Int

/-- The bytes of a row and the rows of the planes that `configure_slot` allocates. -/
def slotRows (format : PixelFormat) (width height : Nat) : Option (List (Nat × Nat)) :=
  match format with
  | .i420 => some [(width, height), (width / 2, height / 2), (width / 2, height / 2)]
  | .nv12 => some [(width, height), (width, height / 2)]
  | .bgr24 | .rgb24 => some [(u32 (width * 3), height)]
  | .bgra32 => some [(u32 (width * 4), height)]
  | .p010 | .unknown _ => none

section

variable (page : PageSize) (answers : Nat → AllocationAnswer) (pageLocked : Bool)

/-- The lambda `allocate` of `configure_slot`. -/
def allocatePlane (memory : SystemMemory) (plane : Nat × Nat) : SystemMemory × PoolPlane × Option AllocationFailure :=
  let made := CpuAllocation.allocate page answers (u64 (plane.1 * plane.2)) pageLocked memory
  (made.1, ⟨made.2.1, asInt32 plane.1⟩, made.2.2)

def configureSlot (config : CpuFramePoolConfig) (memory : SystemMemory) (_ : Unit) :
    SystemMemory × List PoolPlane × Option AllocationFailure :=
  match slotRows config.pixelFormat config.width.toNat config.height.toNat with
  | none => (memory, [], some (.returned "unsupported native CPU pool pixel format"))
  | some rows => collect (allocatePlane page answers pageLocked) memory rows

end

/-- `CpuFramePool`, its memory. A slot has the planes of the format. -/
structure CpuPoolMemory where
  pixelFormat : PixelFormat
  width : Nat
  height : Nat
  memoryMode : CpuMemoryMode
  allocationBytes : UInt64
  pageLockedBytes : UInt64
  slots : List (List PoolPlane)

/-- What the destructors of the slots give back. The planes of a slot are an array, which goes from its end. -/
def heldBySlots (slots : List (List PoolPlane)) : List CpuMemory :=
  slots.flatMap fun planes => planes.reverse.flatMap fun plane => plane.allocation.held

def destroySlots (slots : List (List PoolPlane)) (events : List (Resources.Event CpuMemory)) : List (Resources.Event CpuMemory) :=
  ((heldBySlots slots).map .destroy).reverse ++ events

/-- The sum over the planes of all slots, in 64 bits. -/
def sumOfPlanes (bytes : CpuAllocation → Nat) (slots : List (List PoolPlane)) : UInt64 :=
  slots.foldl (fun total planes => planes.foldl (fun total plane => total + UInt64.ofNat (bytes plane.allocation)) total) 0

/-- What the rest of `mkvc_cpu_frame_pool_create_ex` may throw: the vector of the slots, and the objects of the pool. -/
structure CreationAnswers where
  slots : Option (Option String)
  allocation : Nat → AllocationAnswer
  objects : Option (Option String)

structure PoolCreation where
  status : Status
  pool : Option CpuPoolMemory
  events : List (Resources.Event CpuMemory)

section

variable (page : PageSize) (answers : CreationAnswers) (config : CpuFramePoolConfig) (memoryMode : CpuMemoryMode)

/-- The slots of `create`, as far as they are made. -/
def poolSlots : SystemMemory × List (List PoolPlane) × Option AllocationFailure :=
  collect (configureSlot page answers.allocation (decide (memoryMode = .pageLocked)) config) ⟨0, []⟩
    (List.replicate config.capacity.toNat ())

/-- `CpuFramePool::create` under `create_pool` of the C ABI. -/
def createPool : PoolCreation :=
  let threw (what : Option String) (events : List (Resources.Event CpuMemory)) : PoolCreation :=
    ⟨guard "unknown CPU frame pool failure" what, none, events⟩
  if config.capacity = 0 ∨ config.width = 0 ∨ config.height = 0 ∨ config.width.toNat % 2 ≠ 0 ∨ config.height.toNat % 2 ≠ 0 then
    ⟨⟨.errorInvalidArgument, "CPU pool capacity and even dimensions must be positive"⟩, none, []⟩
  else if memoryMode ≠ .pageable ∧ memoryMode ≠ .pageLocked then
    ⟨⟨.errorInvalidArgument, "unsupported CPU pool memory mode"⟩, none, []⟩
  else if (2 ^ 31 - 1) / 4 < config.width.toNat then
    ⟨⟨.errorInvalidArgument, "CPU pool row stride exceeds the ABI int32 limit"⟩, none, []⟩
  else if config.pixelFormat ≠ .i420 ∧ config.pixelFormat ≠ .nv12 ∧ config.pixelFormat ≠ .bgr24 ∧ config.pixelFormat ≠ .rgb24 ∧
      config.pixelFormat ≠ .bgra32 then
    ⟨⟨.errorInvalidArgument, "unsupported native CPU pool pixel format"⟩, none, []⟩
  else
    match answers.slots with
    | some what => threw what []
    | none =>
        let made := poolSlots page answers config memoryMode
        let slots := made.2.1
        match made.2.2 with
        | some (.returned error) =>
            ⟨⟨if memoryMode = .pageLocked then .errorNotSupported else .errorInvalidArgument, error⟩, none, destroySlots slots made.1.events⟩
        | some (.threw what) => threw what (destroySlots slots made.1.events)
        | none =>
            match answers.objects with
            | some what => threw what (destroySlots slots made.1.events)
            | none =>
                ⟨.ok, some {
                  pixelFormat := config.pixelFormat
                  width := config.width.toNat
                  height := config.height.toNat
                  memoryMode := memoryMode
                  allocationBytes := sumOfPlanes CpuAllocation.size slots
                  pageLockedBytes := sumOfPlanes CpuAllocation.lockedBytes slots
                  slots := slots }, made.1.events⟩

end

/-! ## What is held -/

/-- What the allocations of these planes give back. -/
def heldByPlanes (planes : List PoolPlane) : List CpuMemory := planes.flatMap fun plane => plane.allocation.held

/-- The planes hold what was created and not destroyed, and the next allocation has a new number. -/
structure SystemMemory.Balanced (memory : SystemMemory) (planes : List PoolPlane) : Prop where
  holds : Holds CpuMemory.On memory.events (heldByPlanes planes)
  numbered : ∀ r, .create r ∈ memory.events → r.block.number < memory.allocations

namespace SystemMemory.Balanced

variable {page : PageSize} {answers : Nat → AllocationAnswer} {pageLocked : Bool} {memory : SystemMemory} {planes : List PoolPlane}

theorem empty : Balanced ⟨0, []⟩ [] := ⟨.nil, by simp⟩

theorem new (h : memory.Balanced planes) {r : CpuMemory} (hr : r.block.number = memory.allocations) : .create r ∉ memory.events :=
  fun hin => Nat.lt_irrefl _ (hr ▸ h.numbered r hin)

theorem held_old (h : memory.Balanced planes) {r : CpuMemory} (hr : r ∈ heldByPlanes planes) : r.block.number < memory.allocations :=
  h.numbered r ((h.holds.created_iff r).mpr (.inl hr))

/-- One more allocation, with what it adds to the history. -/
theorem extend {events : List (Resources.Event CpuMemory)} {a : CpuAllocation} {stride : Int} (h : memory.Balanced planes)
    (hholds : Holds CpuMemory.On events (a.held ++ heldByPlanes planes))
    (hnew : ∀ r, .create r ∈ events → .create r ∈ memory.events ∨ r.block.number = memory.allocations) :
    Balanced ⟨memory.allocations + 1, events⟩ (planes ++ [⟨a, stride⟩]) where
  holds := by
    have hperm : (a.held ++ heldByPlanes planes).Perm (heldByPlanes (planes ++ [⟨a, stride⟩])) := by
      simpa [heldByPlanes] using List.perm_append_comm
    exact hholds.perm hperm
  numbered r hr := by
    rcases hnew r hr with hold | hnumber
    · exact Nat.lt_succ_of_lt (h.numbered r hold)
    · exact Nat.lt_succ_of_le (Nat.le_of_eq hnumber)

theorem allocatePlane (h : memory.Balanced planes) (plane : Nat × Nat) :
    (allocatePlane page answers pageLocked memory plane).1.Balanced
      (planes ++ [(allocatePlane page answers pageLocked memory plane).2.1]) := by
  have hfailed : Balanced ⟨memory.allocations + 1, memory.events⟩ (planes ++ [⟨.empty memory.allocations, asInt32 plane.1⟩]) :=
    h.extend h.holds fun r hr => .inl hr
  simp only [Encoder.allocatePlane, CpuAllocation.allocate]
  cases pageLocked with
  | false =>
      simp only [Bool.not_false, if_true]
      cases (answers memory.allocations).resize with
      | error what => exact hfailed
      | ok address =>
          refine h.extend (h.holds.create (h.new rfl)) fun r hr => ?_
          rcases List.mem_cons.mp hr with heq | hr
          · cases heq
            exact .inr rfl
          · exact .inl hr
  | true =>
      simp only [Bool.not_true, Bool.false_eq_true, if_false]
      cases (answers memory.allocations).mmap with
      | none => exact hfailed
      | some address =>
          generalize page.whole _ = lockedBytes
          have hmapped : Holds CpuMemory.On (.create (.mapping ⟨memory.allocations, address, lockedBytes⟩) :: memory.events)
              (.mapping ⟨memory.allocations, address, lockedBytes⟩ :: heldByPlanes planes) := h.holds.create (h.new rfl)
          have hlock : .create (.pageLock ⟨memory.allocations, address, lockedBytes⟩) ∉ memory.events := h.new rfl
          cases (answers memory.allocations).mlock with
          | true =>
              refine h.extend (hmapped.create (by simpa using hlock)) fun r hr => ?_
              rcases List.mem_cons.mp hr with heq | hr
              · cases heq
                exact .inr rfl
              rcases List.mem_cons.mp hr with heq | hr
              · cases heq
                exact .inr rfl
              · exact .inl hr
          | false =>
              -- the mapping goes at once
              have hon : ∀ r ∈ heldByPlanes planes, ¬ CpuMemory.On r (.mapping ⟨memory.allocations, address, lockedBytes⟩) := by
                intro r hr hon
                have hlt := h.held_old hr
                cases r with
                | pageLock block =>
                    obtain rfl : block = _ := hon
                    exact Nat.lt_irrefl _ hlt
                | vector => exact hon
                | mapping => exact hon
              refine h.extend (hmapped.destroy hon id) fun r hr => ?_
              rcases List.mem_cons.mp hr with heq | hr
              · cases heq
              rcases List.mem_cons.mp hr with heq | hr
              · cases heq
                exact .inr rfl
              · exact .inl hr

theorem configureSlot {slots : List (List PoolPlane)} (config : CpuFramePoolConfig) (h : memory.Balanced slots.flatten) :
    (configureSlot page answers pageLocked config memory ()).1.Balanced
      (slots ++ [(configureSlot page answers pageLocked config memory ()).2.1]).flatten := by
  simp only [Encoder.configureSlot, List.flatten_append, List.flatten_singleton]
  cases slotRows config.pixelFormat config.width.toNat config.height.toNat with
  | none => simpa using h
  | some rows => exact collect_invariant SystemMemory.Balanced (fun plane h => h.allocatePlane plane) h

end SystemMemory.Balanced

theorem CpuAllocation.mapping_of_pageLock {a : CpuAllocation} {block : MemoryBlock} (h : .pageLock block ∈ a.held) :
    .mapping block ∈ a.held := by
  obtain ⟨number, pageable, locked, size, lockedBytes⟩ := a
  cases pageable <;> cases locked <;> simp_all [CpuAllocation.held]

/-- The destructors give each lock back before its mapping. -/
theorem held_later {allocations : List CpuAllocation} (h : (allocations.flatMap CpuAllocation.held).Nodup) :
    (allocations.flatMap CpuAllocation.held).Pairwise fun r r' => ¬ CpuMemory.On r' r := by
  induction allocations with
  | nil => exact .nil
  | cons a allocations ih =>
      rw [List.flatMap_cons] at h ⊢
      obtain ⟨-, hrest, hdisjoint⟩ := List.nodup_append.mp h
      refine List.pairwise_append.mpr ⟨?_, ih hrest, fun r hr r' hr' hon => ?_⟩
      · obtain ⟨number, pageable, locked, size, lockedBytes⟩ := a
        cases pageable <;> cases locked <;> simp [CpuAllocation.held, CpuMemory.On]
      · cases r' with
        | vector => exact hon
        | mapping => exact hon
        | pageLock block =>
            cases r with
            | vector => exact hon
            | pageLock => exact hon
            | mapping block' =>
                obtain rfl : block = block' := hon
                obtain ⟨a', ha', hlock⟩ := List.mem_flatMap.mp hr'
                have hmapping : .mapping block ∈ allocations.flatMap CpuAllocation.held :=
                  List.mem_flatMap.mpr ⟨a', ha', CpuAllocation.mapping_of_pageLock hlock⟩
                exact hdisjoint _ hr _ hmapping rfl

/-- Once the slots are destroyed nothing is held. -/
theorem destroySlots_holds {memory : SystemMemory} {slots : List (List PoolPlane)} (h : memory.Balanced slots.flatten) :
    Holds CpuMemory.On memory.events (heldBySlots slots) ∧ Holds CpuMemory.On (destroySlots slots memory.events) [] := by
  have hslots : heldBySlots slots = ((slots.flatMap List.reverse).map PoolPlane.allocation).flatMap CpuAllocation.held := by
    simp only [heldBySlots, List.flatMap_map, List.flatMap_assoc]
  have hperm : (heldByPlanes slots.flatten).Perm (heldBySlots slots) := by
    rw [hslots, List.flatMap_map]
    have hreverse : (slots.flatMap id).Perm (slots.flatMap List.reverse) :=
      List.Perm.flatMap_left slots fun planes _ => (List.reverse_perm planes).symm
    rw [List.flatMap_id] at hreverse
    exact hreverse.flatMap_right _
  have hholds := h.holds.perm hperm
  refine ⟨hholds, ?_⟩
  have hlater : (heldBySlots slots).Pairwise fun r r' => ¬ CpuMemory.On r' r := by
    rw [hslots]
    exact held_later (hslots ▸ hholds.nodup)
  rw [← List.append_nil (heldBySlots slots)] at hholds
  refine hholds.destroyAll hlater (by simp) fun r hon => ?_
  cases r <;> exact hon

/-- What was taken from the system is held by the pool, and without a pool nothing is. When the pool is destroyed all of it is
given back, each thing once and each lock before its mapping. -/
def PoolCreation.Returns (c : PoolCreation) : Prop :=
  match c.pool with
  | none => c.status.result ≠ .ok ∧ Holds CpuMemory.On c.events []
  | some pool =>
      c.status = .ok ∧ Holds CpuMemory.On c.events (heldBySlots pool.slots) ∧
        Holds CpuMemory.On (destroySlots pool.slots c.events) []

section

variable (page : PageSize) (answers : CreationAnswers) (config : CpuFramePoolConfig) (memoryMode : CpuMemoryMode)

theorem poolSlots_balanced :
    (poolSlots page answers config memoryMode).1.Balanced (poolSlots page answers config memoryMode).2.1.flatten := by
  have hempty : SystemMemory.Balanced ⟨0, []⟩ ([] : List (List PoolPlane)).flatten := .empty
  exact collect_invariant (fun (memory : SystemMemory) slots => memory.Balanced slots.flatten) (fun _ h => h.configureSlot config) hempty

/-- Whatever the system answers. -/
theorem createPool_returns : (createPool page answers config memoryMode).Returns := by
  have hslots := destroySlots_holds (poolSlots_balanced page answers config memoryMode)
  have hnothing (status : Status) (hstatus : status.result ≠ .ok) : PoolCreation.Returns ⟨status, none, []⟩ := ⟨hstatus, .nil⟩
  unfold createPool
  split
  · exact hnothing _ (by simp)
  split
  · exact hnothing _ (by simp)
  split
  · exact hnothing _ (by simp)
  split
  · exact hnothing _ (by simp)
  split
  · exact hnothing _ (by simp [guard])
  simp only
  split
  · refine ⟨?_, hslots.2⟩
    simp only
    split <;> simp
  · exact ⟨by simp [guard], hslots.2⟩
  split
  · exact ⟨by simp [guard], hslots.2⟩
  · exact ⟨rfl, hslots⟩

end

/-! ## The views of a pool -/

/-- The view that `get_view` fills in for a slot, over the bytes of the memory. -/
def CpuPoolMemory.view (m : CpuPoolMemory) (bytes : Nat → UInt8) (slot : Nat) : FrameView where
  pixelFormat := m.pixelFormat
  width := m.width
  height := m.height
  pts := -1
  planes i := (m.slots.getD slot [])[i.val]?.bind fun plane =>
    plane.allocation.data.map fun address => ⟨address, fun k => bytes (address + k)⟩
  strides i := ((m.slots.getD slot [])[i.val]?.map PoolPlane.stride).getD 0

/-- `get_view`. -/
def CpuPoolMemory.getView (m : CpuPoolMemory) (pool : CpuFramePool) (bytes : Nat → UInt8) (slot generation : Nat) :
    Except Status FrameView :=
  let status := pool.getView slot generation
  if status.result = .ok then .ok (m.view bytes slot) else .error status

/-- A byte of a plane of the slot. -/
def CpuPoolMemory.Covers (m : CpuPoolMemory) (slot a : Nat) : Prop :=
  ∃ plane ∈ m.slots.getD slot [], ∃ address, plane.allocation.data = some address ∧ address ≤ a ∧
    a < address + plane.allocation.size

/-- The pointers and the strides of the slot are multiples of this alignment. -/
def CpuPoolMemory.Aligned (m : CpuPoolMemory) (slot alignment : Nat) : Prop :=
  ∀ plane ∈ m.slots.getD slot [], (∀ address, plane.allocation.data = some address → address % alignment = 0) ∧
    plane.stride.toNat % alignment = 0

/-! ## The planes of a slot -/

/-- A plane whose rows fill a block of the memory without gaps. -/
structure PlaneMade (page : PageSize) (pageLocked : Bool) (row : Nat × Nat) (plane : PoolPlane) : Prop where
  stride : plane.stride = row.1
  size : plane.allocation.size = row.2 * row.1
  lockedBytes : plane.allocation.lockedBytes = if pageLocked then page.whole (row.2 * row.1) else 0
  block : ∃ block, (.vector block ∈ plane.allocation.held ∨ .mapping block ∈ plane.allocation.held) ∧
    plane.allocation.data = some block.address ∧ plane.allocation.size ≤ block.bytes

theorem slotRows_lt {format : PixelFormat} {width height : Nat} {rows : List (Nat × Nat)} (h : slotRows format width height = some rows)
    (hwidth : width ≤ (2 ^ 31 - 1) / 4) (hheight : height < 2 ^ 32) : ∀ row ∈ rows, row.1 < 2 ^ 31 ∧ row.2 < 2 ^ 32 := by
  have h3 := u32_mul_lt hwidth (n := 3) (by omega)
  have h4 := u32_mul_lt hwidth (n := 4) (by omega)
  intro row hrow
  cases format with
  | p010 | unknown => cases h
  | i420 | nv12 | bgr24 | rgb24 | bgra32 =>
      cases h
      simp only [List.mem_cons, List.not_mem_nil, or_false] at hrow
      rcases hrow with rfl | rfl | rfl <;> simp only <;> omega

theorem slotRows_length {format : PixelFormat} {width height : Nat} {rows : List (Nat × Nat)}
    (h : slotRows format width height = some rows) : rows.length ≤ 3 := by
  cases format <;> cases h <;> simp

/-- The rows of a slot are those that the copies of a frame take. -/
theorem slotRows_copiedPlanes {format : PixelFormat} {width height : Nat} {rows : List (Nat × Nat)}
    (h : slotRows format width height = some rows) :
    ∃ planes, copiedPlanes format width height = some planes ∧ ∀ p ∈ planes, rows[p.1.val]? = some p.2 := by
  cases format <;> cases h <;> exact ⟨_, rfl, by simp⟩

theorem slotRows_layoutRows {format : PixelFormat} {width height : Nat} {rows : List (Nat × Nat)}
    (h : slotRows format width height = some rows) :
    ∃ rowBytes, layoutRows format width = some (rows.length, rowBytes) ∧
      ∀ i : Fin 4, ∀ row, rows[i.val]? = some row → rowBytes i = row.1 := by
  cases format <;> cases h <;> exact ⟨_, rfl, by simp [Fin.forall_fin_succ]⟩

/-- The whole pages of a mapping have room for its bytes, and the sums in 64 bits are the exact ones. -/
theorem PageSize.le_whole (page : PageSize) {bytes : Nat} (h : bytes < 2 ^ 63) :
    bytes ≤ page.whole bytes := by
  have hpos := page.pos
  have hlt := page.lt
  rw [PageSize.whole, u64_of_lt (n := bytes + page.bytes - 1) (by omega)]
  have hsum := Nat.div_add_mod' (bytes + page.bytes - 1) page.bytes
  have hmod := Nat.mod_lt (bytes + page.bytes - 1) hpos
  rw [u64_of_lt (by omega)]
  omega

theorem allocatePlane_made {page : PageSize} {answers : Nat → AllocationAnswer} {pageLocked : Bool} {memory : SystemMemory}
    {row : Nat × Nat} {plane : PoolPlane} (hrow : row.1 < 2 ^ 31 ∧ row.2 < 2 ^ 32)
    (h : (allocatePlane page answers pageLocked memory row).2 = (plane, none)) :
    PlaneMade page pageLocked row plane := by
  have hlt : row.1 * row.2 < 2 ^ 63 := by
    calc row.1 * row.2 < 2 ^ 31 * 2 ^ 32 := Nat.mul_lt_mul'' hrow.1 hrow.2
      _ = 2 ^ 63 := by rfl
  have hbytes : u64 (row.1 * row.2) = row.2 * row.1 := by
    rw [u64_of_lt (by omega), Nat.mul_comm]
  simp only [allocatePlane, CpuAllocation.allocate, hbytes] at h
  cases pageLocked with
  | false =>
      simp only [Bool.not_false, if_true] at h
      split at h
      · cases h
      · cases h
        exact ⟨asInt32_of_lt hrow.1, rfl, rfl, _, .inl List.mem_cons_self, rfl, Nat.le_refl _⟩
  | true =>
      simp only [Bool.not_true, Bool.false_eq_true, if_false] at h
      split at h
      · cases h
      split at h
      · cases h
        refine ⟨asInt32_of_lt hrow.1, rfl, rfl, _, .inr (List.mem_cons_of_mem _ List.mem_cons_self), rfl, ?_⟩
        exact page.le_whole (Nat.mul_comm row.1 row.2 ▸ hlt)
      · cases h

/-- A slot with a plane for each of these rows. -/
structure SlotMade (page : PageSize) (pageLocked : Bool) (rows : List (Nat × Nat)) (planes : List PoolPlane) : Prop where
  length : planes.length = rows.length
  made : ∀ {i : Nat} {row}, rows[i]? = some row → ∃ plane, planes[i]? = some plane ∧ PlaneMade page pageLocked row plane

theorem SlotMade.of_mem {page : PageSize} {pageLocked : Bool} {rows : List (Nat × Nat)} {planes : List PoolPlane}
    (h : SlotMade page pageLocked rows planes) {plane : PoolPlane} (hplane : plane ∈ planes) :
    ∃ row ∈ rows, PlaneMade page pageLocked row plane := by
  obtain ⟨i, hi⟩ := List.mem_iff_getElem?.mp hplane
  have hlt : i < rows.length := h.length ▸ (List.getElem?_eq_some_iff.mp hi).1
  obtain ⟨plane', hplane', hmade⟩ := h.made (List.getElem?_eq_getElem hlt)
  obtain rfl : plane = plane' := Option.some.inj (hi.symm.trans hplane')
  exact ⟨_, List.getElem_mem hlt, hmade⟩

/-- A pool that was created, with the memory that it holds. -/
structure CpuPoolMemory.Created (page : PageSize) (pageLocked : Bool) (m : CpuPoolMemory) (config : CpuFramePoolConfig)
    (events : List (Resources.Event CpuMemory)) : Prop where
  format : m.pixelFormat = config.pixelFormat
  width : m.width = config.width.toNat
  height : m.height = config.height.toNat
  width_pos : 0 < config.width.toNat
  height_pos : 0 < config.height.toNat
  width_even : config.width.toNat % 2 = 0
  height_even : config.height.toNat % 2 = 0
  width_le : config.width.toNat ≤ (2 ^ 31 - 1) / 4
  length : m.slots.length = config.capacity.toNat
  slots : ∃ rows, slotRows config.pixelFormat config.width.toNat config.height.toNat = some rows ∧
    ∀ planes ∈ m.slots, SlotMade page pageLocked rows planes
  holds : Holds CpuMemory.On events (heldBySlots m.slots)
  allocationBytes : m.allocationBytes = sumOfPlanes CpuAllocation.size m.slots
  pageLockedBytes : m.pageLockedBytes = sumOfPlanes CpuAllocation.lockedBytes m.slots

section

variable {page : PageSize} {answers : CreationAnswers} {config : CpuFramePoolConfig} {memoryMode : CpuMemoryMode}

theorem configureSlot_made {pageLocked : Bool} {memory : SystemMemory} {planes : List PoolPlane}
    (hwidth : config.width.toNat ≤ (2 ^ 31 - 1) / 4)
    (h : (configureSlot page answers.allocation pageLocked config memory ()).2 = (planes, none)) :
    ∃ rows, slotRows config.pixelFormat config.width.toNat config.height.toNat = some rows ∧ SlotMade page pageLocked rows planes := by
  unfold configureSlot at h
  split at h
  · cases h
  rename_i rows hrows
  obtain ⟨hlength, hmade⟩ := collect_done (congrArg Prod.snd h)
  have hplanes := congrArg Prod.fst h
  rw [hplanes] at hlength hmade
  refine ⟨rows, hrows, hlength, fun {i row} hi => ?_⟩
  obtain ⟨t, plane, hplane, hdone⟩ := hmade hi
  exact ⟨plane, hplane, allocatePlane_made (slotRows_lt hrows hwidth config.height.toNat_lt row (List.mem_of_getElem? hi)) hdone⟩

theorem createPool_created {m : CpuPoolMemory} (h : (createPool page answers config memoryMode).pool = some m) :
    m.Created page (decide (memoryMode = .pageLocked)) config (createPool page answers config memoryMode).events := by
  have hreturns := createPool_returns page answers config memoryMode
  rw [PoolCreation.Returns, h] at hreturns
  have hholds := hreturns.2.1
  generalize (createPool page answers config memoryMode).events = events at hholds ⊢
  unfold createPool at h
  simp only at h
  split at h
  · cases h
  rename_i hdims
  split at h
  · cases h
  split at h
  · cases h
  rename_i hwidth
  split at h
  · cases h
  split at h
  · cases h
  split at h
  · cases h
  · cases h
  rename_i hdone
  split at h
  · cases h
  cases h
  simp only [not_or, ne_eq, not_not, ← UInt32.toNat_inj] at hdims
  obtain ⟨hcapacity, hw, hh, hweven, hheven⟩ := hdims
  have hle := Nat.not_lt.mp hwidth
  obtain ⟨hlength, hmade⟩ := collect_done hdone
  rw [List.length_replicate] at hlength
  have hslot {k : Nat} (hk : k < config.capacity.toNat) : ∃ planes rows, (poolSlots page answers config memoryMode).2.1[k]? = some planes ∧
      slotRows config.pixelFormat config.width.toNat config.height.toNat = some rows ∧
      SlotMade page (decide (memoryMode = .pageLocked)) rows planes := by
    have hat : (List.replicate config.capacity.toNat ())[k]? = some () := by simp [hk]
    obtain ⟨t, planes, hplanes, hslot⟩ := hmade hat
    obtain ⟨rows, hrows, hall⟩ := configureSlot_made hle hslot
    exact ⟨planes, rows, hplanes, hrows, hall⟩
  obtain ⟨-, rows, -, hrows, -⟩ := hslot (Nat.pos_of_ne_zero hcapacity)
  refine ⟨rfl, rfl, rfl, Nat.pos_of_ne_zero hw, Nat.pos_of_ne_zero hh, hweven, hheven, hle, hlength, ⟨rows, hrows, fun planes hplanes => ?_⟩,
    hholds, rfl, rfl⟩
  obtain ⟨k, hk⟩ := List.mem_iff_getElem?.mp hplanes
  obtain ⟨planes', rows', hplanes', hrows', hall⟩ := hslot (hlength ▸ (List.getElem?_eq_some_iff.mp hk).1)
  obtain rfl : planes = planes' := Option.some.inj (hk.symm.trans hplanes')
  obtain rfl : rows = rows' := Option.some.inj (hrows.symm.trans hrows')
  exact hall

end

/-! ## The totals -/

theorem foldl_planes (bytes : CpuAllocation → Nat) (planes : List PoolPlane) (total : Nat) :
    planes.foldl (fun total plane => total + UInt64.ofNat (bytes plane.allocation)) (UInt64.ofNat total) =
      UInt64.ofNat (total + (planes.map fun plane => bytes plane.allocation).sum) := by
  induction planes generalizing total with
  | nil => simp
  | cons plane planes ih =>
      rw [List.foldl_cons, ← UInt64.ofNat_add, ih, List.map_cons, List.sum_cons, Nat.add_assoc]

theorem sumOfPlanes_eq {bytes : CpuAllocation → Nat} {each : Nat} {slots : List (List PoolPlane)}
    (h : ∀ planes ∈ slots, (planes.map fun plane => bytes plane.allocation).sum = each) :
    sumOfPlanes bytes slots = UInt64.ofNat (slots.length * each) := by
  suffices hfrom : ∀ total, slots.foldl (fun total planes => planes.foldl
      (fun total plane => total + UInt64.ofNat (bytes plane.allocation)) total) (UInt64.ofNat total) =
        UInt64.ofNat (total + slots.length * each) from (hfrom 0).trans (congrArg UInt64.ofNat (Nat.zero_add _))
  induction slots with
  | nil => simp
  | cons planes slots ih =>
      intro total
      rw [List.foldl_cons, foldl_planes, h planes List.mem_cons_self, ih fun planes hplanes => h planes (List.mem_cons_of_mem _ hplanes),
        List.length_cons, Nat.succ_mul, Nat.add_assoc, Nat.add_comm each]

/-- The sum over the planes of a slot, when it is that of the rows plane by plane. -/
theorem SlotMade.sum_eq {page : PageSize} {pageLocked : Bool} {rows : List (Nat × Nat)} {planes : List PoolPlane}
    (h : SlotMade page pageLocked rows planes) {bytes : CpuAllocation → Nat} {of : Nat × Nat → Nat}
    (hof : ∀ {row plane}, PlaneMade page pageLocked row plane → bytes plane.allocation = of row) :
    (planes.map fun plane => bytes plane.allocation).sum = (rows.map of).sum := by
  refine congrArg List.sum (List.ext_getElem (by simp [h.length]) fun i hi hi' => ?_)
  rw [List.length_map] at hi hi'
  obtain ⟨plane, hplane, hmade⟩ := h.made (List.getElem?_eq_getElem hi')
  obtain ⟨_, hat⟩ := List.getElem?_eq_some_iff.mp hplane
  rw [List.getElem_map, List.getElem_map, hat]
  exact hof hmade

/-- The totals of the statistics are those of the planes of all slots, and of their whole pages. -/
def CpuPoolMemory.Counts (page : PageSize) (pageLocked : Bool) (m : CpuPoolMemory) (config : CpuFramePoolConfig) : Prop :=
  ∃ rows, slotRows config.pixelFormat config.width.toNat config.height.toNat = some rows ∧
    m.allocationBytes = UInt64.ofNat (config.capacity.toNat * (rows.map fun row => row.2 * row.1).sum) ∧
    m.pageLockedBytes = UInt64.ofNat
      (config.capacity.toNat * (rows.map fun row => if pageLocked then page.whole (row.2 * row.1) else 0).sum)

theorem CpuPoolMemory.Created.counts {page : PageSize} {pageLocked : Bool} {m : CpuPoolMemory} {config : CpuFramePoolConfig}
    {events : List (Resources.Event CpuMemory)} (h : m.Created page pageLocked config events) : m.Counts page pageLocked config := by
  obtain ⟨rows, hrows, hall⟩ := h.slots
  refine ⟨rows, hrows, ?_, ?_⟩
  · rw [h.allocationBytes, sumOfPlanes_eq fun planes hplanes => (hall planes hplanes).sum_eq fun hmade => hmade.size, h.length]
  · rw [h.pageLockedBytes, sumOfPlanes_eq fun planes hplanes => (hall planes hplanes).sum_eq fun hmade => hmade.lockedBytes, h.length]

/-- Whatever the system answers, nothing is lost, and a pool that is created counts what it has taken. -/
theorem pool_memory_returned (page : PageSize) (answers : CreationAnswers) (config : CpuFramePoolConfig) (memoryMode : CpuMemoryMode) :
    (createPool page answers config memoryMode).Returns ∧
      match (createPool page answers config memoryMode).pool with
      | none => True
      | some m => m.Counts page (decide (memoryMode = .pageLocked)) config := by
  refine ⟨createPool_returns page answers config memoryMode, ?_⟩
  cases hpool : (createPool page answers config memoryMode).pool with
  | none => trivial
  | some m => exact (createPool_created hpool).counts

/-! ## What a view shows -/

namespace CpuPoolMemory

variable {page : PageSize} {pageLocked : Bool} {m : CpuPoolMemory} {config : CpuFramePoolConfig}
  {events : List (Resources.Event CpuMemory)} {bytes : Nat → UInt8} {slot : Nat}

theorem Created.rowsFit (h : m.Created page pageLocked config events) : (m.view bytes slot).RowsFit (m.view bytes slot).width :=
  FrameView.rowsFit_of_le _ (h.width.trans_le h.width_le)

/-- A slot of the pool with the rows of its planes, which are those that a copy takes. -/
theorem Created.parts (h : m.Created page pageLocked config events) (hslot : slot < config.capacity.toNat) :
    ∃ rows planes, slotRows config.pixelFormat config.width.toNat config.height.toNat = some rows ∧ m.slots.getD slot [] ∈ m.slots ∧
      SlotMade page pageLocked rows (m.slots.getD slot []) ∧ copiedPlanes config.pixelFormat config.width.toNat config.height.toNat = some planes ∧
      config.pixelFormat.planes config.width.toNat config.height.toNat = some planes ∧ ∀ p ∈ planes, rows[p.1.val]? = some p.2 := by
  obtain ⟨rows, hrows, hall⟩ := h.slots
  obtain ⟨planes, hplanes, hindex⟩ := slotRows_copiedPlanes hrows
  have hmem : m.slots.getD slot [] ∈ m.slots := by
    rw [List.getD_eq_getElem _ _ (h.length ▸ hslot)]
    exact List.getElem_mem _
  have hcopied : copiedPlanes m.pixelFormat m.width m.height = m.pixelFormat.planes m.width m.height :=
    @FrameView.copiedPlanes_eq (m.view (fun _ => 0) slot) h.rowsFit
  rw [h.format, h.width, h.height, hplanes] at hcopied
  exact ⟨rows, planes, hrows, hmem, hall _ hmem, hplanes, hcopied.symm, hindex⟩

variable (bytes) (i : Fin 4) in
/-- A plane of a view. -/
theorem view_plane {row : Nat × Nat} {plane : PoolPlane} (hplane : (m.slots.getD slot [])[i.val]? = some plane)
    (hmade : PlaneMade page pageLocked row plane) : ∃ address, plane.allocation.data = some address ∧
      (m.view bytes slot).planes i = some ⟨address, fun k => bytes (address + k)⟩ ∧ (m.view bytes slot).strides i = row.1 := by
  obtain ⟨block, -, hdata, -⟩ := hmade.block
  exact ⟨block.address, hdata, by simp only [view, hplane, Option.bind_some, hdata, Option.map_some],
    by simp only [view, hplane, Option.map_some, Option.getD_some, hmade.stride]⟩

theorem looselyLaid_eq {frame : FrameView} {i : Fin 4} {plane : Plane} {rowBytes alignment : Nat} (hplane : frame.planes i = some plane)
    (hstride : frame.strides i = rowBytes) (hlt : rowBytes < 2 ^ 31) :
    frame.looselyLaid i rowBytes alignment = (decide (plane.address % alignment ≠ 0) || decide (rowBytes % alignment ≠ 0)) := by
  have hmod : ((rowBytes : Int) % 2 ^ 32).toNat = rowBytes := by omega
  simp only [FrameView.looselyLaid, hplane, hstride, asInt32_of_lt hlt, hmod]
  simp

theorem Created.valid (h : m.Created page pageLocked config events) (hslot : slot < config.capacity.toNat) : (m.view bytes slot).Valid := by
  obtain ⟨rows, planes, hrows, -, hmade, -, hplanes, hindex⟩ := h.parts hslot
  refine ⟨h.width_pos.trans_eq h.width.symm, h.height_pos.trans_eq h.height.symm, (congrArg (· % 2) h.width).trans h.width_even,
    (congrArg (· % 2) h.height).trans h.height_even, planes, ?_, fun p hp => ?_⟩
  · rw [← h.format, ← h.width, ← h.height] at hplanes
    exact hplanes
  · obtain ⟨plane, hplane, hfits⟩ := hmade.made (hindex p hp)
    obtain ⟨address, -, hshown, hstride⟩ := view_plane bytes p.1.castSucc hplane hfits
    have hlt := slotRows_lt hrows h.width_le config.height.toNat_lt _ (List.mem_of_getElem? (hindex p hp))
    rw [hshown, hstride]
    exact ⟨rfl, Int.le_refl _, by omega⟩

theorem Created.borrowed (h : m.Created page pageLocked config events) (hslot : slot < config.capacity.toNat) :
    (validateBorrowedFrame (m.view bytes slot)).result = .ok :=
  (h.valid hslot).borrowed

/-- Copying always accepts the view of a slot. The strict layout does when its pointers and strides have the alignment. -/
theorem Created.layout (h : m.Created page pageLocked config events) (hslot : slot < config.capacity.toNat) (alignment : Nat) :
    validateCpuFrameLayout (m.view bytes slot) config.width.toNat config.height.toNat .allowCopy alignment = .ok ∧
      ((validateCpuFrameLayout (m.view bytes slot) config.width.toNat config.height.toNat .strict alignment).result = .ok ↔
        m.Aligned slot alignment) := by
  obtain ⟨rows, planes, hrows, -, hmade, -⟩ := h.parts hslot
  obtain ⟨rowBytes, hlayout, hbytes⟩ := slotRows_layoutRows hrows
  rw [← h.format] at hlayout
  have hplane {i : Fin 4} (hi : i.val < rows.length) : ∃ plane address, (m.slots.getD slot [])[i.val]? = some plane ∧
      plane.allocation.data = some address ∧ (m.view bytes slot).planes i = some ⟨address, fun k => bytes (address + k)⟩ ∧
      (m.view bytes slot).strides i = rowBytes i ∧ plane.stride = rowBytes i ∧ rowBytes i < 2 ^ 31 := by
    have hrow := List.getElem?_eq_getElem hi
    obtain ⟨plane, hplane, hfits⟩ := hmade.made hrow
    obtain ⟨address, hdata, hshown, hstride⟩ := view_plane bytes i hplane hfits
    have hlt := slotRows_lt hrows h.width_le config.height.toNat_lt _ (List.getElem_mem hi)
    rw [hbytes i _ hrow]
    exact ⟨plane, address, hplane, hdata, hshown, hstride, hfits.stride, hlt.1⟩
  have hgood : ¬ ∃ i : Fin 4, i.val < rows.length ∧ (m.view bytes slot).badPlane i (rowBytes i) = true := by
    rintro ⟨i, hi, hbad⟩
    obtain ⟨plane, address, -, -, hshown, hstride, -, hlt⟩ := hplane hi
    have hfine : (m.view bytes slot).badPlane i (rowBytes i) = false :=
      (FrameView.badPlane_eq_false i hlt).mpr ⟨by rw [hshown]; rfl, Int.le_of_eq hstride.symm⟩
    rw [hfine] at hbad
    cases hbad
  have hunused : ¬ ∃ i : Fin 4, rows.length ≤ i.val ∧
      (((m.view bytes slot).planes i).isSome = true ∨ (m.view bytes slot).strides i ≠ 0) := by
    rintro ⟨i, hi, hused⟩
    have hnone : (m.slots.getD slot [])[i.val]? = none := List.getElem?_eq_none (hmade.length ▸ hi)
    simp only [view, hnone, Option.bind_none, Option.isSome_none, Option.map_none, Option.getD_none] at hused
    simp at hused
  have hloose : (∃ i : Fin 4, i.val < rows.length ∧ (m.view bytes slot).looselyLaid i (rowBytes i) alignment = true) ↔
      ¬ m.Aligned slot alignment := by
    constructor
    · rintro ⟨i, hi, hloose⟩ haligned
      obtain ⟨plane, address, hat, hdata, hshown, hstride, heq, hlt⟩ := hplane hi
      obtain ⟨haddress, hmod⟩ := haligned plane (List.mem_of_getElem? hat)
      rw [heq, Int.toNat_natCast] at hmod
      simp [looselyLaid_eq hshown hstride hlt, haddress address hdata, hmod] at hloose
    · intro hnot
      by_contra hall
      refine hnot fun plane hmem => ?_
      obtain ⟨k, hk⟩ := List.mem_iff_getElem?.mp hmem
      have hlt := (List.getElem?_eq_some_iff.mp hk).1
      have hcount := slotRows_length hrows
      have hi : k < rows.length := hmade.length ▸ hlt
      obtain ⟨plane', address, hat, hdata, hshown, hstride, heq, hlt'⟩ := hplane (i := ⟨k, by omega⟩) hi
      obtain rfl : plane = plane' := Option.some.inj (hk.symm.trans hat)
      have htight : ¬ (m.view bytes slot).looselyLaid ⟨k, by omega⟩ (rowBytes ⟨k, by omega⟩) alignment = true :=
        fun hloose => hall ⟨_, hi, hloose⟩
      rw [looselyLaid_eq hshown hstride hlt'] at htight
      simp only [Bool.or_eq_true, decide_eq_true_eq, not_or, ne_eq, not_not] at htight
      refine ⟨fun address' hdata' => ?_, ?_⟩
      · obtain rfl : address = address' := Option.some.inj (hdata.symm.trans hdata')
        exact htight.1
      · rw [heq, Int.toNat_natCast]
        exact htight.2
  have hdims : ¬ ((m.view bytes slot).width ≠ config.width.toNat ∨ (m.view bytes slot).height ≠ config.height.toNat ∨
      config.width.toNat = 0 ∨ config.height.toNat = 0 ∨ config.width.toNat % 2 ≠ 0 ∨ config.height.toNat % 2 ≠ 0) := by
    have hwidth : (m.view bytes slot).width = config.width.toNat := h.width
    have hheight : (m.view bytes slot).height = config.height.toNat := h.height
    have := h.width_pos
    have := h.height_pos
    have := h.width_even
    have := h.height_even
    omega
  unfold validateCpuFrameLayout
  rw [if_neg hdims, if_neg hdims, show (m.view bytes slot).pixelFormat = m.pixelFormat from rfl, hlayout]
  simp only
  rw [if_neg hgood, if_neg hgood, if_pos trivial, if_neg (by simp)]
  refine ⟨rfl, ?_⟩
  by_cases haligned : m.Aligned slot alignment
  · rw [if_neg fun hl => hloose.mp hl haligned, if_neg hunused]
    simp [haligned]
  · rw [if_pos (hloose.mpr haligned)]
    simp [haligned]

/-- The picture of a slot is made of the bytes that the slot covers. -/
theorem Created.picture (h : m.Created page pageLocked config events) (hslot : slot < config.capacity.toNat) {bytes' : Nat → UInt8}
    (hsame : ∀ a, m.Covers slot a → bytes' a = bytes a) : (m.view bytes' slot).picture = (m.view bytes slot).picture := by
  obtain ⟨rows, planes, hrows, -, hmade, hplanes, -, hindex⟩ := h.parts hslot
  rw [← h.format, ← h.width, ← h.height] at hplanes
  have hvisible : ∀ p ∈ planes, (m.view bytes' slot).visiblePlane p.1 p.2.1 p.2.2 = (m.view bytes slot).visiblePlane p.1 p.2.1 p.2.2 := by
    intro p hp
    obtain ⟨plane, hplane, hfits⟩ := hmade.made (hindex p hp)
    obtain ⟨address, hdata, hshown, hstride⟩ := view_plane bytes p.1.castSucc hplane hfits
    obtain ⟨address', hdata', hshown', hstride'⟩ := view_plane bytes' p.1.castSucc hplane hfits
    obtain rfl : address = address' := Option.some.inj (hdata.symm.trans hdata')
    simp only [FrameView.visiblePlane, hshown, hshown', hstride, hstride', Plane.rows, Int.toNat_natCast]
    refine RowMajor.store_congr fun row hr column hc => hsame _ ⟨plane, List.mem_of_getElem? hplane, address, hdata, ?_, ?_⟩
    · exact Nat.le_add_right _ _
    · have hend : (row + 1) * p.2.1 ≤ p.2.2 * p.2.1 := Nat.mul_le_mul_right _ hr
      rw [Nat.succ_mul] at hend
      rw [hfits.size]
      omega
  have hcopied (bytes : Nat → UInt8) : (m.view bytes slot).picture = ⟨m.pixelFormat, m.width, m.height, -1,
      planes.map fun p => (m.view bytes slot).visiblePlane p.1 p.2.1 p.2.2⟩ := by
    simp only [FrameView.picture, view, hplanes, Option.getD_some]
  rw [hcopied, hcopied, List.map_congr_left hvisible]

/-! ## Slots lie apart -/

/-- The block behind a byte of a slot. -/
theorem Created.block (h : m.Created page pageLocked config events) (hslot : slot < config.capacity.toNat) {a : Nat} (ha : m.Covers slot a) :
    ∃ planes, m.slots[slot]? = some planes ∧ ∃ plane ∈ planes, ∃ block : MemoryBlock, block.address ≤ a ∧ a < block.address + block.bytes ∧
      (.vector block ∈ plane.allocation.held ∨ .mapping block ∈ plane.allocation.held) := by
  obtain ⟨rows, -, -, -, hmade, -⟩ := h.parts hslot
  obtain ⟨plane, hplane, address, hdata, hle, hlt⟩ := ha
  obtain ⟨row, -, hfits⟩ := hmade.of_mem hplane
  obtain ⟨block, hheld, hdata', hsize⟩ := hfits.block
  obtain rfl : address = block.address := Option.some.inj (hdata.symm.trans hdata')
  have hat : m.slots[slot]? = some (m.slots.getD slot []) := by
    rw [List.getD_eq_getElem _ _ (h.length ▸ hslot)]
    exact List.getElem?_eq_getElem _
  exact ⟨_, hat, plane, hplane, block, hle, by omega, hheld⟩

/-- No byte belongs to two slots. -/
theorem Created.apart (h : m.Created page pageLocked config events) (hsystem : Legal (Fresh CpuMemory.Apart) events) {slot' : Nat}
    (hslot : slot < config.capacity.toNat) (hslot' : slot' < config.capacity.toNat) (hne : slot ≠ slot') {a : Nat}
    (ha : m.Covers slot a) : ¬ m.Covers slot' a := by
  intro ha'
  obtain ⟨planes, hat, plane, hplane, block, hle, hlt, hheld⟩ := h.block hslot ha
  obtain ⟨planes', hat', plane', hplane', block', hle', hlt', hheld'⟩ := h.block hslot' ha'
  obtain ⟨r, hr, hr'⟩ : ∃ r ∈ plane.allocation.held, r.block = block ∧ ∀ b, r ≠ .pageLock b := by
    rcases hheld with hheld | hheld <;> exact ⟨_, hheld, rfl, by simp⟩
  obtain ⟨q, hq, hq'⟩ : ∃ q ∈ plane'.allocation.held, q.block = block' ∧ ∀ b, q ≠ .pageLock b := by
    rcases hheld' with hheld' | hheld' <;> exact ⟨_, hheld', rfl, by simp⟩
  have hin : r ∈ planes.reverse.flatMap fun plane => plane.allocation.held :=
    List.mem_flatMap.mpr ⟨plane, List.mem_reverse.mpr hplane, hr⟩
  have hin' : q ∈ planes'.reverse.flatMap fun plane => plane.allocation.held :=
    List.mem_flatMap.mpr ⟨plane', List.mem_reverse.mpr hplane', hq⟩
  have hrq : r ≠ q := by
    rintro rfl
    exact RecordList.disjoint_of_nodup_flatMap h.holds.nodup hat hat' hne hin hin'
  have hof : r ∈ heldBySlots m.slots := List.mem_flatMap.mpr ⟨planes, List.mem_of_getElem? hat, hin⟩
  have hof' : q ∈ heldBySlots m.slots := List.mem_flatMap.mpr ⟨planes', List.mem_of_getElem? hat', hin'⟩
  have hapart := live_apart (fun _ _ => CpuMemory.Apart.symm) hsystem ((h.holds.created_iff r).mpr (.inl hof))
    ((h.holds.created_iff q).mpr (.inl hof')) (h.holds.live r hof) (h.holds.live q hof') hrq
  rcases hapart.of_memory hr'.2 hq'.2 with hleft | hright
  · rw [hr'.1, hq'.1] at hleft
    omega
  · rw [hr'.1, hq'.1] at hright
    omega

end CpuPoolMemory

/-! ## The views of leases -/

/-- What a caller may do with the view of a lease, of a pool that was made with this configuration. -/
structure LeasedView (m : CpuPoolMemory) (config : CpuFramePoolConfig) (s : CpuPoolState) (bytes : Nat → UInt8) (k : Nat)
    (lease : CpuBufferLease) (view : FrameView) : Prop where
  format : view.pixelFormat = config.pixelFormat
  valid : view.Valid
  borrowed : (validateBorrowedFrame view).result = .ok
  layout : ∀ alignment, validateCpuFrameLayout view config.width.toNat config.height.toNat .allowCopy alignment = .ok
  strict : ∀ alignment, (validateCpuFrameLayout view config.width.toNat config.height.toNat .strict alignment).result = .ok ↔
    m.Aligned lease.slot alignment
  /-- The picture is made of the bytes of the slot. -/
  picture : ∀ bytes', (∀ a, m.Covers lease.slot a → bytes' a = bytes a) → (m.view bytes' lease.slot).picture = view.picture
  /-- No other lease has a byte of the slot. -/
  alone : ∀ k' lease', s.lease k' = some lease' → k' ≠ k → ∀ a, m.Covers lease.slot a → ¬ m.Covers lease'.slot a

/-- In every state that a pool can reach, `get_view` of a lease shows a frame that the encoder accepts, whatever its bytes are,
and that no other lease can change, when the system hands out no block that overlaps another one. -/
theorem leased_views_sound {page : PageSize} {answers : CreationAnswers} {config : CpuFramePoolConfig} {memoryMode : CpuMemoryMode}
    {m : CpuPoolMemory} {ls : List CpuPoolLabel} {s : CpuPoolState} {k : Nat} {lease : CpuBufferLease}
    (hcreate : (createPool page answers config memoryMode).pool = some m)
    (hsystem : Legal (Fresh CpuMemory.Apart) (createPool page answers config memoryMode).events)
    (hrun : Run CpuPoolState.Step (.init config.capacity) ls s) (hlease : s.lease k = some lease) (bytes : Nat → UInt8) :
    ∃ view, m.getView s.pool bytes lease.slot lease.generation = .ok view ∧ LeasedView m config s bytes k lease view := by
  have hcreated := createPool_created hcreate
  have hbooks : CpuPoolState.Books config.capacity s :=
    hrun.invariant (.init config.capacity) fun hs hst => (hs.step hst).books
  have hslot {k : Nat} {lease : CpuBufferLease} (hlease : s.lease k = some lease) :
      s.pool.slots[lease.slot]? = some ⟨true, lease.generation⟩ ∧ lease.slot < config.capacity.toNat := by
    have hheld : s.holds k = some (lease.slot, lease.generation) := by
      rw [CpuPoolState.holds, hlease]
      rfl
    have hat := hbooks.sound.exclusive.held hheld
    exact ⟨hat, hbooks.sound.length ▸ (List.getElem?_eq_some_iff.mp hat).1⟩
  obtain ⟨hat, hlt⟩ := hslot hlease
  have hview : m.getView s.pool bytes lease.slot lease.generation = .ok (m.view bytes lease.slot) := by
    simp [CpuPoolMemory.getView, CpuFramePool.getView, hat]
  refine ⟨_, hview, hcreated.format, hcreated.valid hlt, hcreated.borrowed hlt, fun alignment => (hcreated.layout hlt alignment).1,
    fun alignment => (hcreated.layout hlt alignment).2, fun bytes' hsame => hcreated.picture hlt hsame, fun k' lease' hlease' hne a ha => ?_⟩
  obtain ⟨-, hlt'⟩ := hslot hlease'
  refine hcreated.apart hsystem hlt hlt' (fun heq => hne ?_) ha
  have hheld' : s.ledger.holds k' = some (lease.slot, lease'.generation) := by
    simp [CpuPoolState.ledger, CpuPoolState.holds, hlease', heq]
  have hheld : s.ledger.holds k = some (lease.slot, lease.generation) := by
    simp [CpuPoolState.ledger, CpuPoolState.holds, hlease]
  exact hbooks.sound.exclusive.inj hheld' hheld

theorem PageSize.usual_pos : 0 < 4096 := by decide
theorem PageSize.usual_lt : 4096 < 2 ^ 63 := by decide

def PageSize.usual : PageSize := ⟨4096, usual_pos, usual_lt⟩

/-- A system that puts the buffers of vectors one page after the other. -/
def CreationAnswers.pages : CreationAnswers := ⟨none, fun number => ⟨.ok (4096 * (number + 1)), none, false, ""⟩, none⟩

/-- The second of two leases of a pool with frames of 2 x 2 pixels. -/
theorem leased_views_sound_small : ∃ m s view,
    (createPool .usual .pages ⟨.bgr24, 2, 2, 2⟩ .pageable).pool = some m ∧
      Run CpuPoolState.Step (.init 2) [.acquire 0 0, .acquire 0 0] s ∧ s.lease 1 = some ⟨1, 1, true⟩ ∧
      m.getView s.pool (fun _ => 7) 1 1 = .ok view ∧ view.picture.visible = [List.replicate 12 7] ∧
      LeasedView m ⟨.bgr24, 2, 2, 2⟩ s (fun _ => 7) 1 ⟨1, 1, true⟩ view := by
  obtain ⟨m, hcreate, hshows⟩ : ∃ m, (createPool .usual .pages ⟨.bgr24, 2, 2, 2⟩ .pageable).pool = some m ∧
      (m.view (fun _ => 7) 1).picture.visible = [List.replicate 12 7] := ⟨_, rfl, rfl⟩
  have hevents : (createPool .usual .pages ⟨.bgr24, 2, 2, 2⟩ .pageable).events =
      [.create (.vector ⟨1, 8192, 12⟩), .create (.vector ⟨0, 4096, 12⟩)] := rfl
  have hsystem : Legal (Fresh CpuMemory.Apart) (createPool .usual .pages ⟨.bgr24, 2, 2, 2⟩ .pageable).events := by
    rw [hevents]
    refine ⟨fun r hr _ => ?_, fun r hr _ => ?_, trivial⟩
    · obtain rfl : r = .vector ⟨0, 4096, 12⟩ := by simpa using hr
      exact .inr (by decide)
    · cases hr
  obtain ⟨s, hrun, hlease⟩ : ∃ s, Run CpuPoolState.Step (.init 2) [.acquire 0 0, .acquire 0 0] s ∧ s.lease 1 = some ⟨1, 1, true⟩ :=
    ⟨_, Run.of_exec rfl, rfl⟩
  obtain ⟨view, hview, hsound⟩ := leased_views_sound hcreate hsystem hrun hlease fun _ => 7
  have hpicture := hsound.picture (fun _ => 7) fun _ _ => rfl
  exact ⟨m, s, view, hcreate, hrun, hlease, hview, hpicture ▸ hshows, hsound⟩

end MkvCodec.Encoder
