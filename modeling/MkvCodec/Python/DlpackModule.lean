import MkvCodec.Concurrency.Transition

/-!
# The DLPack extension module

`_dlpack_module.c`: capsules around managed tensors, owners that are retained until a tensor is deleted, the
consumption of an NV12 tensor, and the holders of external owners. The interpreter runs, and its lock is held in every
step. The calls of deleters are steps of their own, as the code that a dereferenced owner runs may do anything in
between. As in `interop/dlpack.py`, a bare address goes into one capsule, or its tensor is reclaimed.
-/

namespace MkvCodec.Python.Dlpack

/-! ## Tensors -/

/-- The value of the `deleter` of a `DLManagedTensor`: null, that of its producer, or `retained_owner_delete`. -/
inductive Deleter
  | null
  | original
  | retainedOwnerDelete
  deriving DecidableEq

/-- `DLTensor`, as far as `consume_nv12` reads it. -/
structure DLTensor where
  data : Nat
  deviceType : Int
  deviceId : Int
  ndim : Int
  code : Nat
  bits : Nat
  lanes : Nat
  shape : Option (List Int)
  strides : Option (List Int)
  byteOffset : Nat

/-- A capsule: whether it has the name `dltensor`, and its references. It is destroyed with the last one. -/
structure Capsule where
  valid : Bool
  refs : Nat

/-- A `DLManagedTensor` with everything that may have to delete it: those who have its bare address, its capsule, the
consumers of a renamed capsule, and the holders of `consume_nv12` with the references of their capsules. `running` are
the deleters that have been called for it, `runs` counts those of the producer, and `ended` the ends of a chain of
deleters. -/
structure ManagedTensor where
  tensor : DLTensor
  original : Bool
  deleter : Deleter
  callers : Nat
  capsule : Option Capsule
  consumers : Nat
  holders : List Nat
  running : List Deleter
  runs : Nat
  ended : Nat

/-- `RetainedOwnerRecord`. A retained owner is the number of the reference that was taken. -/
structure Record where
  tensor : Nat
  sourceDeleter : Deleter
  owner : Nat
  deriving DecidableEq

namespace ManagedTensor

/-- Its deleter is called, if there is one. -/
def callDeleter (m : ManagedTensor) : ManagedTensor :=
  if m.deleter = .null then { m with ended := m.ended + 1 } else { m with running := m.running ++ [m.deleter] }

/-- `Py_DECREF` of the capsule, with `capsule_destructor`. -/
def decrefCapsule (m : ManagedTensor) (c : Capsule) : ManagedTensor :=
  if c.refs - 1 = 0 then
    if c.valid then { m with capsule := some ⟨c.valid, 0⟩ }.callDeleter else { m with capsule := some ⟨c.valid, 0⟩ }
  else { m with capsule := some ⟨c.valid, c.refs - 1⟩ }

/-- `Py_DECREF` of the capsule of a holder with `refs` references, with `dlpack_owner_destructor`. -/
def decrefHolder (m : ManagedTensor) (h refs : Nat) : ManagedTensor :=
  if refs - 1 = 0 then { m with holders := m.holders.set h 0 }.callDeleter
  else { m with holders := m.holders.set h (refs - 1) }

end ManagedTensor

/-! ## The module -/

inductive DlpackError
  | valueError (message : String)
  | overflowError (message : String)
  | memoryError
  | raised
  deriving DecidableEq

/-- What a call returns. `consumed` has the address, the device and the pitch; its owner is the last holder. -/
inductive Reply
  | none
  | capsule (t : Nat)
  | consumed (t address : Nat) (deviceId pitch : Int)
  | holder (owner : Nat)

/-- The managed tensors, `retained_owners` from its head on, and the live holders of external owners. References to
owners are numbered as they are taken; `dropped` are those that were given back, `retained` all records there were. -/
structure Extension where
  tensors : List ManagedTensor
  records : List Record
  externals : List Nat
  taken : Nat
  dropped : List Nat
  retained : List Record

/-- What `PyLong_AsVoidPtr` makes of an argument. -/
inductive Address
  | raises
  | null
  | pointer (n : Nat)

/-- What calls outside of the module answer in `retain_owner`; `false` is a failure. -/
structure RetainAnswer where
  parses : Bool
  pointer : Bool
  calloc : Bool

/-- What the `__dlpack__` of a provider does. A capsule comes with a reference. -/
inductive Provider
  | raises
  | other
  | capsule (t : Nat)

/-- The same in `consume_nv12`. -/
structure ConsumeAnswer where
  parses : Bool
  provider : Provider
  pointer : Bool
  malloc : Bool
  setName : Bool
  capsuleNew : Bool
  buildValue : Bool

/-- The same in `external_owner_create`. -/
inductive ExternalAnswer
  | malloc
  | pack
  | ok

/-- The check of `consume_nv12`: the address, the device and the pitch of an NV12 tensor. -/
def DLTensor.nv12 (d : DLTensor) (width height : Nat) : Except DlpackError (Nat × Int × Int) :=
  let expectedRows : Int := height + (height / 2 : Nat)
  let pitch : Int := d.strides.elim (width : Int) (·.getD 0 0)
  let columnStride : Int := d.strides.elim 1 (·.getD 1 0)
  let shape := d.shape.getD []
  if d.deviceType ≠ 2 ∨ d.deviceId < 0 ∨ d.data = 0 ∨ d.ndim ≠ 2 ∨ d.shape.isNone ∨ d.code ≠ 1 ∨ d.bits ≠ 8 ∨
      d.lanes ≠ 1 ∨ shape.getD 0 0 ≠ expectedRows ∨ shape.getD 1 0 ≠ width ∨ pitch < width ∨ columnStride ≠ 1 then
    .error (.valueError "DLPack NV12 must be CUDA uint8[height*3/2,width] with unit columns")
  else if d.byteOffset > 2 ^ 64 - 1 - d.data then
    .error (.overflowError "DLPack byte offset overflows a pointer")
  else .ok (d.data + d.byteOffset, d.deviceId, pitch)

namespace Extension

def setTensor (s : Extension) (t : Nat) (m : ManagedTensor) : Extension := { s with tensors := s.tensors.set t m }

/-- A producer makes a managed tensor and gives its address away. -/
def produce (s : Extension) (tensor : DLTensor) (original : Bool) : Extension :=
  { s with
    tensors := s.tensors ++
      [⟨tensor, original, if original then .original else .null, 1, none, 0, [], [], 0, 0⟩] }

/-- `capsule_from_address` of a tensor; without a new capsule the address stays where it is. -/
def capsuleFromAddress (s : Extension) (t : Nat) (m : ManagedTensor) (capsuleNew : Bool) :
    Except DlpackError Reply × Extension :=
  if !capsuleNew then (.error .raised, s)
  else (.ok (.capsule t), s.setTensor t { m with callers := m.callers - 1, capsule := some ⟨true, 1⟩ })

/-- `retain_owner`. -/
def retainOwner (s : Extension) (t : Nat) (m : ManagedTensor) (c : Capsule) (answer : RetainAnswer) :
    Except DlpackError Reply × Extension :=
  if !answer.parses then (.error .raised, s)
  else if !c.valid then (.error (.valueError "retain_owner requires an unused dltensor capsule"), s)
  else if !answer.pointer then (.error .raised, s)
  else if !answer.calloc then (.error .memoryError, s)
  else
    let record : Record := ⟨t, m.deleter, s.taken⟩
    (.ok (.capsule t),
      { s.setTensor t { m with deleter := .retainedOwnerDelete, capsule := some ⟨c.valid, c.refs + 1⟩ } with
        records := record :: s.records
        retained := record :: s.retained
        taken := s.taken + 1 })

/-- `consume_nv12` from the capsule of a provider on. -/
def consumeCapsule (s : Extension) (t : Nat) (m : ManagedTensor) (c : Capsule) (width height : Nat)
    (answer : ConsumeAnswer) : Except DlpackError Reply × Extension :=
  if !c.valid then
    (.error (.valueError "__dlpack__ did not return a dltensor capsule"), s.setTensor t (m.decrefCapsule c))
  else if !answer.pointer then (.error .raised, s.setTensor t (m.decrefCapsule c))
  else
    match m.tensor.nv12 width height with
    | .error e => (.error e, s.setTensor t (m.decrefCapsule c))
    | .ok (address, deviceId, pitch) =>
        if !answer.malloc then (.error .memoryError, s.setTensor t (m.decrefCapsule c))
        else if !answer.setName then (.error .raised, s.setTensor t (m.decrefCapsule c))
        else
          -- the capsule has the name `used_dltensor` when its reference goes
          let used := m.decrefCapsule ⟨false, c.refs⟩
          if !answer.capsuleNew then (.error .raised, s.setTensor t used.callDeleter)
          else
            let held := { used with holders := used.holders ++ [1] }
            if !answer.buildValue then (.error .raised, s.setTensor t (held.decrefHolder used.holders.length 1))
            else (.ok (.consumed t address deviceId pitch), s.setTensor t held)

/-- `consume_nv12`. -/
def consumeNv12 (s : Extension) (width height : Nat) (answer : ConsumeAnswer) :
    Option (Except DlpackError Reply × Extension) :=
  if !answer.parses then some (.error .raised, s)
  else if width = 0 ∨ height = 0 ∨ width % 2 ≠ 0 ∨ height % 2 ≠ 0 then
    some (.error (.valueError "NV12 dimensions must be positive and even"), s)
  else
    match answer.provider with
    | .raises => some (.error .raised, s)
    | .other => some (.error (.valueError "__dlpack__ did not return a dltensor capsule"), s)
    | .capsule t => do
        let m ← s.tensors[t]?
        let c ← m.capsule
        if c.refs = 0 then none else some (s.consumeCapsule t m c width height answer)

/-- The next step of the deleter that was called first for a tensor. -/
def resume (s : Extension) (t : Nat) (m : ManagedTensor) (d : Deleter) (rest : List Deleter) : Extension :=
  match d with
  | .null => s.setTensor t { m with running := rest, ended := m.ended + 1 }
  | .original => s.setTensor t { m with running := rest, runs := m.runs + 1, ended := m.ended + 1 }
  | .retainedOwnerDelete =>
      match s.records.find? (·.tensor = t) with
      | none => s.setTensor t { m with running := rest }
      | some r =>
          let s := { s with records := s.records.eraseP (·.tensor = t), dropped := r.owner :: s.dropped }
          if r.sourceDeleter = .null then s.setTensor t { m with running := rest, ended := m.ended + 1 }
          else s.setTensor t { m with running := r.sourceDeleter :: rest }

/-- `external_owner_create`; `pack` stands for a number or a tuple that is not made. -/
def externalOwnerCreate (s : Extension) : ExternalAnswer → Except DlpackError Reply × Extension
  | .malloc => (.error .memoryError, s)
  | .pack => (.error .raised, { s with taken := s.taken + 1, dropped := s.taken :: s.dropped })
  | .ok => (.ok (.holder s.taken), { s with taken := s.taken + 1, externals := s.taken :: s.externals })

/-- `external_owner_cancel` and `external_owner_release` of a live holder. -/
def freeExternal (s : Extension) (owner : Nat) : Extension :=
  { s with externals := s.externals.erase owner, dropped := owner :: s.dropped }

/-- Calls of the module, of the reference counts of its capsules and of the deleters. `foreign` is a consumer that
renames a capsule and `delete` one that calls the deleter of its tensor; so does a caller with the bare address by
`reclaim`. -/
inductive Op
  | produce (tensor : DLTensor) (original : Bool)
  | capsuleFromAddress (address : Address) (capsuleNew : Bool)
  | reclaim (t : Nat)
  | incref (t : Nat)
  | decref (t : Nat)
  | retainOwner (t : Nat) (answer : RetainAnswer)
  | foreign (t : Nat)
  | delete (t : Nat)
  | consumeNv12 (width height : Nat) (answer : ConsumeAnswer)
  | increfHolder (t h : Nat)
  | decrefHolder (t h : Nat)
  | resume (t : Nat)
  | externalOwnerCreate (answer : ExternalAnswer)
  | externalOwnerCancel (argument : Address)
  | externalOwnerRelease (opaquePointer : Option Nat)

/-- A live capsule of a tensor. -/
def live (s : Extension) (t : Nat) : Option (ManagedTensor × Capsule) := do
  let m ← s.tensors[t]?
  let c ← m.capsule
  if c.refs = 0 then none else some (m, c)

/-- The references of a live holder. -/
def liveHolder (s : Extension) (t h : Nat) : Option (ManagedTensor × Nat) := do
  let m ← s.tensors[t]?
  let refs ← m.holders[h]?
  if refs = 0 then none else some (m, refs)

/-- An operation is possible on what is alive. -/
def run (s : Extension) : Op → Option (Except DlpackError Reply × Extension)
  | .produce tensor original => some (.ok .none, s.produce tensor original)
  | .capsuleFromAddress .raises _ => some (.error .raised, s)
  | .capsuleFromAddress .null _ => some (.error (.valueError "DLManagedTensor address is null"), s)
  | .capsuleFromAddress (.pointer t) capsuleNew => do
      let m ← s.tensors[t]?
      if m.callers = 0 then none else some (s.capsuleFromAddress t m capsuleNew)
  | .reclaim t => do
      let m ← s.tensors[t]?
      if m.callers = 0 then none
      else some (.ok .none, s.setTensor t { m with callers := m.callers - 1 }.callDeleter)
  | .incref t => do
      let (m, c) ← s.live t
      some (.ok .none, s.setTensor t { m with capsule := some ⟨c.valid, c.refs + 1⟩ })
  | .decref t => do
      let (m, c) ← s.live t
      some (.ok .none, s.setTensor t (m.decrefCapsule c))
  | .retainOwner t answer => do
      let (m, c) ← s.live t
      some (s.retainOwner t m c answer)
  | .foreign t => do
      let (m, c) ← s.live t
      if !c.valid then none
      else some (.ok .none, s.setTensor t { m with capsule := some ⟨false, c.refs⟩, consumers := m.consumers + 1 })
  | .delete t => do
      let m ← s.tensors[t]?
      if m.consumers = 0 then none
      else some (.ok .none, s.setTensor t { m with consumers := m.consumers - 1 }.callDeleter)
  | .consumeNv12 width height answer => s.consumeNv12 width height answer
  | .increfHolder t h => do
      let (m, refs) ← s.liveHolder t h
      some (.ok .none, s.setTensor t { m with holders := m.holders.set h (refs + 1) })
  | .decrefHolder t h => do
      let (m, refs) ← s.liveHolder t h
      some (.ok .none, s.setTensor t (m.decrefHolder h refs))
  | .resume t => do
      let m ← s.tensors[t]?
      match m.running with
      | [] => none
      | d :: rest => some (.ok .none, s.resume t m d rest)
  | .externalOwnerCreate answer => some (s.externalOwnerCreate answer)
  | .externalOwnerCancel .raises => some (.error .raised, s)
  | .externalOwnerCancel .null => some (.ok .none, s)
  | .externalOwnerCancel (.pointer owner) =>
      if owner ∈ s.externals then some (.ok .none, s.freeExternal owner) else none
  | .externalOwnerRelease none => some (.ok .none, s)
  | .externalOwnerRelease (some owner) =>
      if owner ∈ s.externals then some (.ok .none, s.freeExternal owner) else none

def step (s : Extension) (op : Op) : Option Extension := (s.run op).map Prod.snd

end Extension

end MkvCodec.Python.Dlpack
