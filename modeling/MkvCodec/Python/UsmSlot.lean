import MkvCodec.Concurrency.Transition

/-!
# Slots of an Intel USM pool

`intel_usm_slot.py` with the reservation of `gpu_pool.py` below it: a slot is writable until it is given back or an import
takes its reservation over to the owner of a frame. The holder of `external_owner_create` and the leases of the native frame
decide when that owner goes. What a call raises is decided outside.
-/

namespace MkvCodec.Python

open Concurrency (Run Restrict exec)

/-! ## Reservations -/

/-- What `_GpuResourceReservation.close` meets. It may raise before or behind the native release. -/
inductive CloseAnswer
  | ok
  | raises (released : Bool)
  deriving DecidableEq

/-- `_GpuResourceReservation`: whether its `_handle` is set, and how often it was released. -/
structure GpuReservation where
  handle : Bool
  releases : Nat

/-- The result says whether the call raises. -/
def GpuReservation.close (r : GpuReservation) (answer : CloseAnswer) : Bool × GpuReservation :=
  if r.handle then
    match answer with
    | .ok => (false, ⟨false, r.releases + 1⟩)
    | .raises true => (true, ⟨true, r.releases + 1⟩)
    | .raises false => (true, r)
  else (false, r)

/-! ## Slots and owners -/

/-- `_UsmPoolFrameOwner`. Objects outside are numbers. -/
structure UsmFrameOwner where
  reservation : Bool
  allocationOwner : Option Nat
  producerOwner : Option Nat

def UsmFrameOwner.close (o : UsmFrameOwner) (r : GpuReservation) (answer : CloseAnswer) :
    Bool × UsmFrameOwner × GpuReservation :=
  if o.reservation then
    match r.close answer with
    | (true, r) => (true, o, r)
    | (false, r) => (false, ⟨false, none, none⟩, r)
  else (false, o, r)

theorem UsmFrameOwner.close_free {o : UsmFrameOwner} (h : o.reservation = false) (r : GpuReservation)
    (answer : CloseAnswer) : o.close r answer = (false, o, r) := by
  rw [close, h]
  rfl

/-- `_SlotLeaseState`. -/
inductive SlotState
  | writable
  | transferred
  | released
  deriving DecidableEq

/-- `IntelUsmPoolSlot`, without the descriptor that it passes on. -/
structure UsmPoolSlot where
  reservation : Bool
  resource : Option Nat
  dependencyRegistrar : Option Nat
  state : SlotState

def UsmPoolSlot.close (s : UsmPoolSlot) (r : GpuReservation) (answer : CloseAnswer) :
    Bool × UsmPoolSlot × GpuReservation :=
  if decide (s.state = .writable) && s.reservation then
    match r.close answer with
    | (true, r) => (true, s, r)
    | (false, r) => (false, ⟨false, none, none, .released⟩, r)
  else (false, s, r)

/-- Who has the holder of `external_owner_create`. A lost one is freed by nobody. -/
inductive OwnerHolder
  | absent
  | lost
  | native
  deriving DecidableEq

/-- Where a native import raises, if it does: before the holder is there, with the holder, or when the native frame has it and
no `GpuFrame` has the frame. `cancelled` says that it raises an `Exception` where `external_owner_cancel` sees it. -/
inductive ImportAnswer
  | imported
  | rejected
  | failed (cancelled : Bool)
  | interrupted (cancelled : Bool)
  deriving DecidableEq

inductive SlotError
  | runtimeError (message : String)
  | valueError (message : String)
  | importRaised
  | closeRaised
  deriving DecidableEq

/-- A slot, from its construction until the slot, the owner of its frame and all leases are gone. `inCall` says that
`import_frame`, or the traceback it has left, refers to the owner; `leases` counts the leases of the native frame and
`frames` those of them that somebody has. -/
structure UsmLease where
  slot : Option UsmPoolSlot
  owner : Option UsmFrameOwner
  inCall : Bool
  holder : OwnerHolder
  leases : Nat
  frames : Nat
  reservation : GpuReservation

namespace UsmLease

def new (resource : Nat) (dependencyRegistrar : Option Nat) : UsmLease :=
  ⟨some ⟨true, some resource, dependencyRegistrar, .writable⟩, none, false, .absent, 0, 0, ⟨true, 0⟩⟩

/-- `IntelUsmPoolSlot.close`, which `release` and `__exit__` call too. -/
def close (w : UsmLease) (slot : UsmPoolSlot) (answer : CloseAnswer) : Except SlotError Unit × UsmLease :=
  let (raised, slot, reservation) := slot.close w.reservation answer
  (if raised then .error .closeRaised else .ok (), { w with slot := some slot, reservation := reservation })

/-- The finalizer of the reservation itself, when the last object that refers to it goes. -/
def finalizeReservation (w : UsmLease) (held : Bool) (last : CloseAnswer) : UsmLease :=
  if held then { w with reservation := (w.reservation.close last).2 } else w

/-- `IntelUsmPoolSlot.__del__`. -/
def finalizeSlot (w : UsmLease) (slot : UsmPoolSlot) (answer last : CloseAnswer) : UsmLease :=
  let (_, slot, reservation) := slot.close w.reservation answer
  { w with slot := none, reservation := reservation }.finalizeReservation slot.reservation last

/-- `_UsmPoolFrameOwner.__del__`, when nothing refers to the owner any more. -/
def dropOwner (w : UsmLease) (answer last : CloseAnswer) : UsmLease :=
  if w.inCall || decide (w.holder ≠ .absent) then w
  else
    match w.owner with
    | none => w
    | some owner =>
        let (_, owner, reservation) := owner.close w.reservation answer
        { w with owner := none, reservation := reservation }.finalizeReservation owner.reservation last

/-- The holder and the native leases behind a native import. -/
def nativeImport (w : UsmLease) : ImportAnswer → UsmLease
  | .imported => { w with inCall := false, holder := .native, leases := 1, frames := 1 }
  | .rejected => w
  | .failed cancelled => { w with holder := if cancelled then .absent else .lost }
  | .interrupted cancelled => { w with holder := if cancelled then .absent else .native, leases := 1 }

/-- The handler around the native import closes the owner. -/
def closeOwner (w : UsmLease) (answer : CloseAnswer) : Except SlotError Unit × UsmLease :=
  match w.owner with
  | none => (.error .importRaised, w)
  | some owner =>
      let (raised, owner, reservation) := owner.close w.reservation answer
      (.error (if raised then .closeRaised else .importRaised),
        { w with owner := some owner, reservation := reservation })

/-- `IntelUsmPoolSlot.import_frame`. -/
def importFrame (w : UsmLease) (slot : UsmPoolSlot) (event : Nat) (producerOwner : Option Nat) (answer : ImportAnswer)
    (close : CloseAnswer) : Except SlotError Unit × UsmLease :=
  if decide (slot.state ≠ .writable) || !slot.reservation then
    (.error (.runtimeError "Intel USM pool slot is released or already imported"), w)
  else if decide (event ≠ 0) && producerOwner.isNone then
    (.error (.valueError "event-backed acquisition requires producer_owner"), w)
  else
    let handedOver := { w with
      slot := some ⟨false, none, none, .transferred⟩
      owner := some ⟨true, slot.resource, producerOwner⟩
      inCall := true }
    match answer with
    | .imported => (.ok (), handedOver.nativeImport .imported)
    | answer => (handedOver.nativeImport answer).closeOwner close

/-- A frame, or a tensor of it, takes a lease of its own. -/
def retainFrame (w : UsmLease) : UsmLease := { w with leases := w.leases + 1, frames := w.frames + 1 }

/-- A lease is given back. The native frame frees the holder with the last one. -/
def releaseFrame (w : UsmLease) (answer last : CloseAnswer) : UsmLease :=
  if w.leases - 1 = 0 then
    { w with leases := w.leases - 1, frames := w.frames - 1, holder := .absent }.dropOwner answer last
  else { w with leases := w.leases - 1, frames := w.frames - 1 }

/-- The traceback of a failed import goes. -/
def dropTraceback (w : UsmLease) (answer last : CloseAnswer) : UsmLease :=
  { w with inCall := false }.dropOwner answer last

/-- `last` is what the finalizer of the reservation meets, where an operation gets that far. -/
inductive Op
  | importFrame (event : Nat) (producerOwner : Option Nat) (answer : ImportAnswer) (close : CloseAnswer)
  | close (answer : CloseAnswer)
  | exit (answer : CloseAnswer)
  | finalizeSlot (answer last : CloseAnswer)
  | retainFrame
  | releaseFrame (answer last : CloseAnswer)
  | dropTraceback (answer last : CloseAnswer)

/-- An operation needs the slot, a frame or a traceback that is still there. -/
def run (w : UsmLease) : Op → Option (Except SlotError Unit × UsmLease)
  | .importFrame event producerOwner answer close =>
      w.slot.map fun slot => w.importFrame slot event producerOwner answer close
  | .close answer => w.slot.map fun slot => w.close slot answer
  | .exit answer => w.slot.map fun slot => w.close slot answer
  | .finalizeSlot answer last => w.slot.map fun slot => (.ok (), w.finalizeSlot slot answer last)
  | .retainFrame => if w.frames = 0 then none else some (.ok (), w.retainFrame)
  | .releaseFrame answer last => if w.frames = 0 then none else some (.ok (), w.releaseFrame answer last)
  | .dropTraceback answer last => if w.inCall then some (.ok (), w.dropTraceback answer last) else none

def step (w : UsmLease) (op : Op) : Option UsmLease := (w.run op).map Prod.snd

/-! ## Who has the reservation -/

/-- No reservation is released and raises all the same, or is lost because its own finalizer raises. No exception comes when
the native frame has the holder, and an owner whose holder is lost gets closed. -/
def Careful (_ : UsmLease) : Op → Prop
  | .importFrame _ _ answer close =>
      close ≠ .raises true ∧ (∀ cancelled, answer ≠ .interrupted cancelled) ∧ (answer = .failed false → close = .ok)
  | .close answer => answer ≠ .raises true
  | .exit answer => answer ≠ .raises true
  | .finalizeSlot answer last => answer ≠ .raises true ∧ (answer = .raises false → last = .ok)
  | .retainFrame => True
  | .releaseFrame answer last => answer ≠ .raises true ∧ (answer = .raises false → last = .ok)
  | .dropTraceback answer last => answer ≠ .raises true ∧ (answer = .raises false → last = .ok)

instance (w : UsmLease) : (op : Op) → Decidable (w.Careful op)
  | .importFrame _ _ answer close => inferInstanceAs (Decidable (close ≠ .raises true ∧
      (∀ cancelled, answer ≠ .interrupted cancelled) ∧ (answer = .failed false → close = .ok)))
  | .close answer => inferInstanceAs (Decidable (answer ≠ .raises true))
  | .exit answer => inferInstanceAs (Decidable (answer ≠ .raises true))
  | .finalizeSlot answer last =>
      inferInstanceAs (Decidable (answer ≠ .raises true ∧ (answer = .raises false → last = .ok)))
  | .retainFrame => isTrue trivial
  | .releaseFrame answer last =>
      inferInstanceAs (Decidable (answer ≠ .raises true ∧ (answer = .raises false → last = .ok)))
  | .dropTraceback answer last =>
      inferInstanceAs (Decidable (answer ≠ .raises true ∧ (answer = .raises false → last = .ok)))

/-- A slot that is gone, or has left the writable state. -/
def Left (slot : Option UsmPoolSlot) : Prop := ∀ s, slot = some s → s.state ≠ .writable ∧ s.reservation = false

/-- Where the reservation is: in the slot, in the owner of a frame with leases, in the owner that a failed import has left, or
back in the pool. -/
inductive Sound : UsmLease → Prop
  | writable {slot : UsmPoolSlot} : slot.state = .writable → slot.reservation = true →
      Sound ⟨some slot, none, false, .absent, 0, 0, ⟨true, 0⟩⟩
  | imported {slot : Option UsmPoolSlot} {owner : UsmFrameOwner} {n : Nat} : Left slot → owner.reservation = true →
      Sound ⟨slot, some owner, false, .native, n + 1, n + 1, ⟨true, 0⟩⟩
  | failed {slot : Option UsmPoolSlot} {owner : UsmFrameOwner} : Left slot → owner.reservation = true →
      Sound ⟨slot, some owner, true, .absent, 0, 0, ⟨true, 0⟩⟩
  | released {slot : Option UsmPoolSlot} {owner : Option UsmFrameOwner} {inCall : Bool} {holder : OwnerHolder} :
      Left slot → (∀ o, owner = some o → o.reservation = false) → Sound ⟨slot, owner, inCall, holder, 0, 0, ⟨false, 1⟩⟩

variable {w w' : UsmLease} {slot : UsmPoolSlot} {owner : UsmFrameOwner} {answer last : CloseAnswer}

theorem left_none : Left none := nofun

theorem left_some (hstate : slot.state ≠ .writable) (hreservation : slot.reservation = false) : Left (some slot) := by
  rintro s ⟨⟩
  exact ⟨hstate, hreservation⟩

theorem Left.close {r : GpuReservation} (h : Left (some slot)) : slot.close r answer = (false, slot, r) := by
  rw [UsmPoolSlot.close, (h slot rfl).2, Bool.and_false]
  rfl

/-- A reservation that is not released and raises at the same time. -/
theorem close_cases (h : answer ≠ .raises true) :
    answer = .ok ∧ GpuReservation.close ⟨true, 0⟩ answer = (false, ⟨false, 1⟩) ∨
      answer = .raises false ∧ GpuReservation.close ⟨true, 0⟩ answer = (true, ⟨true, 0⟩) := by
  cases answer with
  | ok => exact .inl ⟨rfl, rfl⟩
  | raises released =>
      cases released with
      | true => exact absurd rfl h
      | false => exact .inr ⟨rfl, rfl⟩

namespace Sound

/-- A slot is writable, or another one that has left could be in its place. -/
theorem of_slot (h : Sound w) (hslot : w.slot = some slot) :
    (slot.state = .writable ∧ slot.reservation = true ∧ w = ⟨some slot, none, false, .absent, 0, 0, ⟨true, 0⟩⟩) ∨
      Left (some slot) ∧ ∀ slot', Left slot' → Sound { w with slot := slot' } := by
  cases h with
  | writable hstate hreservation =>
      cases hslot
      exact .inl ⟨hstate, hreservation, rfl⟩
  | imported hleft howner => exact .inr ⟨hslot ▸ hleft, fun _ hleft' => .imported hleft' howner⟩
  | failed hleft howner => exact .inr ⟨hslot ▸ hleft, fun _ hleft' => .failed hleft' howner⟩
  | released hleft howner => exact .inr ⟨hslot ▸ hleft, fun _ hleft' => .released hleft' howner⟩

theorem close (h : Sound w) (hslot : w.slot = some slot) (ha : answer ≠ .raises true) : Sound (w.close slot answer).2 := by
  rcases h.of_slot hslot with ⟨hstate, hreservation, rfl⟩ | ⟨hleft, hother⟩
  · rcases close_cases ha with ⟨-, hclose⟩ | ⟨-, hclose⟩
    · simp only [UsmLease.close, UsmPoolSlot.close, hstate, hreservation, hclose, decide_true, Bool.and_true, if_true]
      exact .released (left_some nofun rfl) nofun
    · simp only [UsmLease.close, UsmPoolSlot.close, hstate, hreservation, hclose, decide_true, Bool.and_true, if_true]
      exact .writable hstate hreservation
  · rw [UsmLease.close, hleft.close]
    exact hother _ hleft

theorem finalizeSlot (h : Sound w) (hslot : w.slot = some slot) (ha : answer ≠ .raises true)
    (hlast : answer = .raises false → last = .ok) : Sound (w.finalizeSlot slot answer last) := by
  rcases h.of_slot hslot with ⟨hstate, hreservation, rfl⟩ | ⟨hleft, hother⟩
  · rcases close_cases ha with ⟨-, hclose⟩ | ⟨hraises, hclose⟩
    · simp only [UsmLease.finalizeSlot, UsmPoolSlot.close, hstate, hreservation, hclose, decide_true, Bool.and_true,
        if_true]
      exact .released left_none nofun
    · rw [hlast hraises]
      simp only [UsmLease.finalizeSlot, UsmPoolSlot.close, hstate, hreservation, hclose, decide_true, Bool.and_true,
        if_true]
      exact .released left_none nofun
  · rw [UsmLease.finalizeSlot, hleft.close]
    simp only [finalizeReservation, (hleft slot rfl).2]
    exact hother _ left_none

/-- An owner that nothing refers to any more gives the reservation back. -/
theorem dropOwner {slot : Option UsmPoolSlot} (hleft : Left slot) (howner : owner.reservation = true)
    (ha : answer ≠ .raises true) (hlast : answer = .raises false → last = .ok) :
    Sound (UsmLease.dropOwner ⟨slot, some owner, false, .absent, 0, 0, ⟨true, 0⟩⟩ answer last) := by
  rcases close_cases ha with ⟨-, hclose⟩ | ⟨hraises, hclose⟩
  · simp only [UsmLease.dropOwner, UsmFrameOwner.close, howner, hclose, if_true]
    exact .released hleft nofun
  · rw [hlast hraises]
    simp only [UsmLease.dropOwner, UsmFrameOwner.close, howner, hclose, if_true]
    exact .released hleft nofun

/-- An owner without the reservation goes. -/
theorem dropOwner_released {slot : Option UsmPoolSlot} {owner : Option UsmFrameOwner} {holder : OwnerHolder}
    (hleft : Left slot) (howner : ∀ o, owner = some o → o.reservation = false) :
    Sound (UsmLease.dropOwner ⟨slot, owner, false, holder, 0, 0, ⟨false, 1⟩⟩ answer last) := by
  unfold UsmLease.dropOwner
  split
  · exact .released hleft howner
  cases owner with
  | none => exact .released hleft howner
  | some o =>
      simp only [UsmFrameOwner.close_free (howner o rfl), finalizeReservation, howner o rfl]
      exact .released hleft nofun

theorem dropTraceback (h : Sound w) (ha : answer ≠ .raises true) (hlast : answer = .raises false → last = .ok)
    (hinCall : w.inCall = true) : Sound (w.dropTraceback answer last) := by
  cases h with
  | writable => cases hinCall
  | imported => cases hinCall
  | failed hleft howner => exact dropOwner hleft howner ha hlast
  | released hleft howner => exact dropOwner_released hleft howner

theorem retainFrame (h : Sound w) (hframes : w.frames ≠ 0) : Sound w.retainFrame := by
  cases h with
  | imported hleft howner => exact .imported hleft howner
  | writable => exact absurd rfl hframes
  | failed => exact absurd rfl hframes
  | released => exact absurd rfl hframes

theorem releaseFrame (h : Sound w) (ha : answer ≠ .raises true) (hlast : answer = .raises false → last = .ok)
    (hframes : w.frames ≠ 0) : Sound (w.releaseFrame answer last) := by
  cases h with
  | @imported slot owner n hleft howner =>
      unfold UsmLease.releaseFrame
      cases n with
      | zero => exact dropOwner hleft howner ha hlast
      | succ n => exact .imported hleft howner
  | writable => exact absurd rfl hframes
  | failed => exact absurd rfl hframes
  | released => exact absurd rfl hframes

/-- The handler behind an import that has raised, when no native frame has the holder. -/
theorem closeOwner {slot : Option UsmPoolSlot} {holder : OwnerHolder} (hleft : Left slot) (howner : owner.reservation = true)
    (ha : answer ≠ .raises true) (hlost : holder ≠ .absent → answer = .ok) :
    Sound (UsmLease.closeOwner ⟨slot, some owner, true, holder, 0, 0, ⟨true, 0⟩⟩ answer).2 := by
  rcases close_cases ha with ⟨-, hclose⟩ | ⟨hraises, hclose⟩
  · simp only [UsmLease.closeOwner, UsmFrameOwner.close, howner, hclose, if_true]
    refine .released hleft ?_
    rintro o ⟨⟩
    rfl
  · simp only [UsmLease.closeOwner, UsmFrameOwner.close, howner, hclose, if_true]
    cases holder with
    | absent => exact .failed hleft howner
    | lost => exact absurd (hraises.symm.trans (hlost nofun)) nofun
    | native => exact absurd (hraises.symm.trans (hlost nofun)) nofun

theorem importFrame (h : Sound w) (hslot : w.slot = some slot) {event : Nat} {producerOwner : Option Nat}
    {import_ : ImportAnswer} (hc : w.Careful (.importFrame event producerOwner import_ answer)) :
    Sound (w.importFrame slot event producerOwner import_ answer).2 := by
  obtain ⟨ha, hinterrupted, hlost⟩ := hc
  rcases h.of_slot hslot with ⟨-, -, rfl⟩ | ⟨hleft, -⟩
  · unfold UsmLease.importFrame
    split
    · exact h
    split
    · exact h
    have hleft : Left (some ⟨false, none, none, .transferred⟩) := left_some nofun rfl
    cases import_ with
    | imported => exact .imported hleft rfl
    | rejected => exact closeOwner hleft rfl ha (absurd rfl ·)
    | failed cancelled =>
        cases cancelled with
        | true => exact closeOwner hleft rfl ha (absurd rfl ·)
        | false => exact closeOwner hleft rfl ha fun _ => hlost rfl
    | interrupted cancelled => exact absurd rfl (hinterrupted cancelled)
  · rw [UsmLease.importFrame, (hleft slot rfl).2]
    simp only [Bool.not_false, Bool.or_true, if_true]
    exact h

theorem step (h : Sound w) {op : Op} (hst : w.step op = some w') (hc : w.Careful op) : Sound w' := by
  obtain ⟨result, hrun, rfl⟩ := Option.map_eq_some_iff.mp hst
  cases op with
  | importFrame event producerOwner answer close =>
      obtain ⟨slot, hslot, rfl⟩ := Option.map_eq_some_iff.mp hrun
      exact h.importFrame hslot hc
  | close answer =>
      obtain ⟨slot, hslot, rfl⟩ := Option.map_eq_some_iff.mp hrun
      exact h.close hslot hc
  | exit answer =>
      obtain ⟨slot, hslot, rfl⟩ := Option.map_eq_some_iff.mp hrun
      exact h.close hslot hc
  | finalizeSlot answer last =>
      obtain ⟨slot, hslot, rfl⟩ := Option.map_eq_some_iff.mp hrun
      exact h.finalizeSlot hslot hc.1 hc.2
  | retainFrame =>
      simp only [run, Option.ite_none_left_eq_some, Option.some.injEq] at hrun
      obtain ⟨hframes, rfl⟩ := hrun
      exact h.retainFrame hframes
  | releaseFrame answer last =>
      simp only [run, Option.ite_none_left_eq_some, Option.some.injEq] at hrun
      obtain ⟨hframes, rfl⟩ := hrun
      exact h.releaseFrame hc.1 hc.2 hframes
  | dropTraceback answer last =>
      simp only [run, Option.ite_none_right_eq_some, Option.some.injEq] at hrun
      obtain ⟨hinCall, rfl⟩ := hrun
      exact h.dropTraceback hc.1 hc.2 hinCall

end Sound

/-! ## Runs -/

/-- The slot, while there is one, holds the reservation. -/
def SlotHolds (w : UsmLease) : Prop := ∃ s, w.slot = some s ∧ s.reservation = true

def OwnerHolds (w : UsmLease) : Prop := ∃ o, w.owner = some o ∧ o.reservation = true

/-- What is expected in every state. A slot that has left the writable state stays so and takes no import. Until the release
either the slot or the owner holds the reservation, and neither does behind it; there is one release at most, none while
there is a lease, and one when the slot, the leases and the traceback of a failed import are gone. -/
structure UsedOnce (w : UsmLease) : Prop where
  leaves : ∀ s, w.slot = some s → s.state ≠ .writable → ∀ op w', w.step op = some w' → ∀ s', w'.slot = some s' →
    s'.state = s.state
  refused : OwnerHolds w ∨ w.reservation.releases ≠ 0 → ∀ s, w.slot = some s → s.state ≠ .writable ∧
    ∀ event producerOwner answer close, w.importFrame s event producerOwner answer close =
      (.error (.runtimeError "Intel USM pool slot is released or already imported"), w)
  held : w.reservation.releases = 0 → SlotHolds w ∧ ¬ OwnerHolds w ∨ OwnerHolds w ∧ ¬ SlotHolds w
  free : w.reservation.releases ≠ 0 → ¬ SlotHolds w ∧ ¬ OwnerHolds w
  once : w.reservation.releases ≤ 1
  live : 0 < w.leases → w.reservation.releases = 0 ∧ OwnerHolds w
  gone : w.slot = none → w.leases = 0 → w.inCall = false → w.reservation.releases = 1

/-- A slot that has left the writable state is not changed by any operation. -/
theorem slot_of_left (hslot : w.slot = some slot) (hstate : slot.state ≠ .writable) {op : Op} (hst : w.step op = some w')
    {slot' : UsmPoolSlot} (hslot' : w'.slot = some slot') : slot'.state = slot.state := by
  have hclose : ∀ answer, (slot.close w.reservation answer).2.1 = slot := by
    intro answer
    rw [UsmPoolSlot.close, if_neg (by simp [hstate])]
  have hfinalize : ∀ (w : UsmLease) held last, (w.finalizeReservation held last).slot = w.slot := by
    intro w held last
    unfold finalizeReservation
    split <;> rfl
  have hdrop : ∀ (w : UsmLease) answer last, (w.dropOwner answer last).slot = w.slot := by
    intro w answer last
    unfold dropOwner
    split
    · rfl
    split
    · rfl
    · exact hfinalize _ _ _
  obtain ⟨result, hrun, rfl⟩ := Option.map_eq_some_iff.mp hst
  have hsame : result.2.slot = w.slot → slot'.state = slot.state := by
    intro h
    rw [h, hslot] at hslot'
    cases hslot'
    rfl
  cases op with
  | importFrame event producerOwner answer close =>
      rw [run, hslot, Option.map_some, Option.some.injEq] at hrun
      refine hsame ?_
      rw [← hrun, importFrame, if_pos (by simp [hstate])]
  | close answer =>
      rw [run, hslot, Option.map_some, Option.some.injEq] at hrun
      refine hsame ?_
      rw [← hrun, close]
      exact (congrArg some (hclose answer)).trans hslot.symm
  | exit answer =>
      rw [run, hslot, Option.map_some, Option.some.injEq] at hrun
      refine hsame ?_
      rw [← hrun, close]
      exact (congrArg some (hclose answer)).trans hslot.symm
  | finalizeSlot answer last =>
      rw [run, hslot, Option.map_some, Option.some.injEq] at hrun
      rw [← hrun, finalizeSlot, hfinalize] at hslot'
      cases hslot'
  | retainFrame =>
      simp only [run, Option.ite_none_left_eq_some, Option.some.injEq] at hrun
      exact hsame (by rw [← hrun.2]; rfl)
  | releaseFrame answer last =>
      simp only [run, Option.ite_none_left_eq_some, Option.some.injEq] at hrun
      refine hsame ?_
      rw [← hrun.2]
      unfold releaseFrame
      split
      · exact hdrop _ _ _
      · rfl
  | dropTraceback answer last =>
      simp only [run, Option.ite_none_right_eq_some, Option.some.injEq] at hrun
      refine hsame ?_
      rw [← hrun.2]
      exact hdrop _ _ _

theorem refused_of_left {slot : Option UsmPoolSlot} (hleft : Left slot) (w : UsmLease) (s : UsmPoolSlot)
    (hs : slot = some s) : s.state ≠ .writable ∧ ∀ event producerOwner answer close,
      w.importFrame s event producerOwner answer close =
        (.error (.runtimeError "Intel USM pool slot is released or already imported"), w) := by
  obtain ⟨hstate, hreservation⟩ := hleft s hs
  refine ⟨hstate, fun event producerOwner answer close => ?_⟩
  rw [importFrame, if_pos (by simp [hstate])]

theorem not_slotHolds (hleft : Left w.slot) : ¬ SlotHolds w := by
  rintro ⟨s, hs, hreservation⟩
  rw [(hleft s hs).2] at hreservation
  cases hreservation

theorem Sound.usedOnce (h : Sound w) : UsedOnce w := by
  have hleaves : ∀ s, w.slot = some s → s.state ≠ .writable → ∀ op w', w.step op = some w' → ∀ s', w'.slot = some s' →
      s'.state = s.state := fun s hs hstate op w' hst s' hs' => slot_of_left hs hstate hst hs'
  cases h with
  | @writable slot hstate hreservation =>
      have howner : ¬ OwnerHolds ⟨some slot, none, false, .absent, 0, 0, ⟨true, 0⟩⟩ := by
        rintro ⟨o, ho, -⟩
        cases ho
      exact {
        leaves := hleaves
        refused := fun h => (h.elim howner fun h => h rfl).elim
        held := fun _ => .inl ⟨⟨slot, rfl, hreservation⟩, howner⟩
        free := fun h => absurd rfl h
        once := Nat.zero_le 1
        live := nofun
        gone := nofun }
  | @imported slot owner n hleft howner => exact {
      leaves := hleaves
      refused := fun _ => refused_of_left hleft _
      held := fun _ => .inr ⟨⟨owner, rfl, howner⟩, not_slotHolds hleft⟩
      free := fun h => absurd rfl h
      once := Nat.zero_le 1
      live := fun _ => ⟨rfl, owner, rfl, howner⟩
      gone := nofun }
  | @failed slot owner hleft howner => exact {
      leaves := hleaves
      refused := fun _ => refused_of_left hleft _
      held := fun _ => .inr ⟨⟨owner, rfl, howner⟩, not_slotHolds hleft⟩
      free := fun h => absurd rfl h
      once := Nat.zero_le 1
      live := nofun
      gone := nofun }
  | released hleft howner => exact {
      leaves := hleaves
      refused := fun _ => refused_of_left hleft _
      held := nofun
      free := fun _ => ⟨not_slotHolds hleft, fun ⟨o, ho, h⟩ => by rw [howner o ho] at h; cases h⟩
      once := Nat.le_refl 1
      live := nofun
      gone := fun _ _ _ => rfl }

/-- In every run of calls, finalizers and releases of frames, with imports and reservations that raise as the condition allows,
a slot is used once and its reservation is released once. -/
theorem used_and_released_once {resource : Nat} {dependencyRegistrar : Option Nat} {ops : List Op}
    (h : Run (Restrict (fun w op w' => w.step op = some w') Careful) (UsmLease.new resource dependencyRegistrar) ops w) :
    UsedOnce w := by
  have hsound : Sound w :=
    Run.invariant (I := Sound) h (.writable rfl rfl) fun hs hst => hs.step hst.1 hst.2
  exact hsound.usedOnce

/-- A slot whose first `close` raises, an import, a second one that is refused, and two leases, of which the last finds a
reservation that raises once. -/
def importedTwice : List Op :=
  [.close (.raises false), .importFrame 5 (some 2) .imported .ok, .importFrame 0 none .imported .ok, .retainFrame,
    .exit .ok, .releaseFrame .ok .ok, .finalizeSlot .ok .ok, .releaseFrame (.raises false) .ok]

theorem used_and_released_once_small : ∃ w, exec step (new 1 none) importedTwice = some w ∧ UsedOnce w ∧
    w.reservation.releases = 1 := by
  have hrun : exec (fun w op => if Careful w op then step w op else none) (new 1 none) importedTwice = some _ := rfl
  exact ⟨_, rfl, used_and_released_once (Run.restrict_of_exec hrun), rfl⟩

/-- An exception between the native import and its `GpuFrame` releases the reservation of a frame with a lease. A reservation
that is released and raises is released again, and one whose own finalizer raises is never released. -/
theorem interrupted_import_releases :
    (∃ w, Run (fun w op w' => w.step op = some w') (new 1 none) [.importFrame 0 none (.interrupted false) .ok] w ∧
      w.leases = 1 ∧ w.reservation.releases = 1 ∧ ¬ UsedOnce w) ∧
    (exec step (new 1 none) [.close (.raises true), .close .ok]).map (·.reservation.releases) = some 2 ∧
    (exec step (new 1 none) [.finalizeSlot (.raises false) (.raises false)]).map
      (fun w => (w.slot.isSome, w.leases, w.inCall, w.reservation.releases)) = some (false, 0, false, 0) := by
  refine ⟨⟨_, .single rfl, rfl, rfl, fun h => ?_⟩, rfl, rfl⟩
  exact absurd (h.live Nat.one_pos).1 (by decide)

end UsmLease

end MkvCodec.Python
