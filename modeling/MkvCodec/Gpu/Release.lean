import MkvCodec.Gpu.Leases

/-!
# The owner of an imported GPU frame

Until an import has returned, nobody but its thread can do anything with the frame. Behind that, every call of the
recycle callback of an accepted import calls the release callback.
-/

namespace MkvCodec.Gpu

open Concurrency

variable {C : Type*}

/-! ## The import -/

/-- Where the thread of an import stands. A frame that it still has to wrap is not recycled, and a reply that it
already has is an error. -/
inductive Importing (a : Frame C) : Pc C → Prop
  | importFrame {config out} : Importing a (.importFrame config out)
  | acquire (hr : a.core.recycled = false) : Importing a (.acquire .importer)
  | wrap (hr : a.core.recycled = false) : Importing a (.wrap .importer)
  | accept {n} (hr : a.core.recycled = false) : Importing a (.accept n)
  | release {what} : Importing a (.releaseExternal (.rethrow .importer what))
  | callback {generation what} : Importing a (.callback generation (.rethrow .importer what))
  | dropCore {reply} (herror : reply.status.result ≠ .ok) : Importing a (.dropCore (some reply))
  | destroyWait {rest reply} (herror : reply.status.result ≠ .ok) : Importing a (.destroyWait rest (some reply))
  | destroyed {generation reply} (herror : reply.status.result ≠ .ok) :
      Importing a (.callback generation (.destroyed (some reply)))

/-- Nobody has got hold of the frame. -/
structure Unshared (a : Frame C) : Prop where
  imported : a.imported = none
  accepted : a.accepted = false
  owned : ∀ handle ∈ a.handles, handle.owned = 0
  bare : a.bare = 0
  holders : a.holders = 0

/-- The import has returned, and its flag says whether it has accepted the frame. -/
def Returned (a : Frame C) : Prop :=
  ∃ status, a.imported = some status ∧ (a.accepted = true ↔ status.result = .ok)

theorem Importing.busy {a : Frame C} {pc : Pc C} (h : Importing a pc) : pc.busy = 1 := by
  cases h <;> rfl

theorem Unshared.returned {a : Frame C} (h : Unshared a) {reply : Reply} (herror : reply.status.result ≠ .ok) :
    Returned (finish { a with imported := some reply.status } none (some reply)).shared := by
  refine ⟨reply.status, rfl, ?_⟩
  simp [h.accepted, herror]

/-- The import goes on, or it returns. -/
theorem Importing.move {a : Frame C} {pc : Pc C} {e : Choice C} {o : Section C} (hpc : Importing a pc)
    (hu : Unshared a) (h : Move a pc e o) :
    Unshared o.shared ∧ Importing o.shared o.pc ∨ Returned o.shared ∧ o.pc = .idle := by
  have hinternal (what : Option String) : (guard "unknown external GPU frame import failure" what).result ≠ .ok := by
    simp [guard]
  obtain ⟨himported, haccepted, howned, hbare, hholders⟩ := id hu
  cases hpc with
  | importFrame =>
      cases h with
      | imported hcore =>
          exact .inl ⟨⟨himported, haccepted, howned, hbare, hholders⟩, .acquire (importExternal_ok hcore).1⟩
      | @importFails _ _ _ status hstatus =>
          have herror : (Reply.of status).status.result ≠ .ok := hstatus
          exact .inr ⟨hu.returned herror, rfl⟩
      | settle hrec => cases hrec
      | recycle hrec => cases hrec
      | asked hask => rcases hask with hask | ⟨t, hask⟩ <;> cases hask
  | acquire hr =>
      cases h with
      | acquireThrows hr' => rw [hr] at hr'; cases hr'
      | acquired => exact .inl ⟨⟨himported, haccepted, howned, hbare, hholders⟩, .wrap hr⟩
      | settle hrec => cases hrec
      | recycle hrec => cases hrec
      | asked hask => rcases hask with hask | ⟨t, hask⟩ <;> cases hask
  | wrap hr =>
      cases h with
      | wrappedImport =>
          refine .inl ⟨⟨himported, haccepted, fun handle hmem => ?_, hbare, hholders⟩, .accept hr⟩
          rcases List.mem_append.mp hmem with hmem | hmem
          · exact howned handle hmem
          · rw [List.mem_singleton.mp hmem]
            rfl
      | wrapThrows => exact .inl ⟨hu, .release⟩
      | settle hrec => cases hrec
      | recycle hrec => cases hrec
      | asked hask => rcases hask with hask | ⟨t, hask⟩ <;> cases hask
  | accept hr =>
      cases h with
      | accept => exact .inr ⟨⟨.ok, rfl, by simp [Gpu.accept]⟩, rfl⟩
      | settle hrec => cases hrec
      | recycle hrec => cases hrec
      | asked hask => rcases hask with hask | ⟨t, hask⟩ <;> cases hask
  | release =>
      cases h with
      | settle hrec =>
          cases hrec
          exact .inl ⟨⟨himported, haccepted, howned, hbare, hholders⟩, .dropCore (hinternal _)⟩
      | recycle hrec =>
          cases hrec
          exact .inl ⟨⟨himported, haccepted, howned, hbare, hholders⟩, .callback⟩
      | asked hask => rcases hask with hask | ⟨t, hask⟩ <;> cases hask
  | callback =>
      cases h with
      | callback => exact .inl ⟨⟨himported, haccepted, howned, hbare, hholders⟩, .dropCore (hinternal _)⟩
      | settle hrec => cases hrec
      | recycle hrec => cases hrec
      | asked hask => rcases hask with hask | ⟨t, hask⟩ <;> cases hask
  | dropCore herror =>
      cases h with
      | dropCore => exact .inl ⟨⟨himported, haccepted, howned, hbare, hholders⟩, .destroyWait herror⟩
      | dropRecycled => exact .inr ⟨⟨_, rfl, by simp [proceed, haccepted, herror]⟩, rfl⟩
      | settle hrec => cases hrec
      | recycle hrec => cases hrec
      | asked hask => rcases hask with hask | ⟨t, hask⟩ <;> cases hask
  | destroyWait herror =>
      cases h with
      | destroyWait => exact .inl ⟨hu, .destroyWait herror⟩
      | settle hrec =>
          cases hrec
          exact .inr ⟨⟨_, rfl, by simp [proceed, haccepted, herror]⟩, rfl⟩
      | recycle hrec =>
          cases hrec
          exact .inl ⟨⟨himported, haccepted, howned, hbare, hholders⟩, .destroyed herror⟩
      | asked hask => rcases hask with hask | ⟨t, hask⟩ <;> cases hask
  | destroyed herror =>
      cases h with
      | callback => exact .inr ⟨⟨_, rfl, by simp [Gpu.callback, proceed, haccepted, herror]⟩, rfl⟩
      | settle hrec => cases hrec
      | recycle hrec => cases hrec
      | asked hask => rcases hask with hask | ⟨t, hask⟩ <;> cases hask

/-- Nothing else begins before the import has returned. -/
theorem Unshared.not_idle {a : Frame C} {pc : Pc C} {e : Choice C} {o : Section C} (hu : Unshared a)
    (hcalls : a.calls ≠ 0) (h : Move a pc e o) : pc ≠ .idle := by
  cases h with
  | use hn _ howned =>
      rw [hu.owned _ (List.mem_of_getElem? hn)] at howned
      cases howned
  | release hn _ howned =>
      rw [hu.owned _ (List.mem_of_getElem? hn)] at howned
      cases howned
  | library _ hheld => rw [hu.holders] at hheld; cases hheld
  | releaseBare hb => rw [hu.bare] at hb; cases hb
  | drop hheld => rw [hu.holders] at hheld; cases hheld
  | destroy _ hzero => exact absurd hzero hcalls
  | settle hrec => cases hrec <;> exact nofun
  | recycle hrec => cases hrec <;> exact nofun
  | asked hpc => rcases hpc with rfl | ⟨t, rfl⟩ <;> exact nofun
  | _ => exact nofun

/-! ## Behind the import -/

def Next.imports : Next → Bool
  | .rethrow .importer _ | .destroyed (some _) => true
  | _ => false

/-- Only the thread of an import stands here. -/
def Pc.imports : Pc C → Bool
  | .importFrame _ _ | .acquire .importer | .wrap .importer | .accept _ => true
  | .poll next | .releaseExternal next | .callback _ next => next.imports
  | .dropCore (some _) | .destroyWait _ (some _) => true
  | _ => false

theorem proceed_imports (a : Frame C) {next : Next} (h : next.imports = false) :
    (proceed a next).pc.imports = false ∧ (proceed a next).shared.imported = a.imported := by
  cases next with
  | finish handle reply => exact ⟨rfl, leave_imported a handle⟩
  | delete handle => exact ⟨rfl, rfl⟩
  | rethrow who what =>
      cases who with
      | importer => cases h
      | _ => exact ⟨rfl, leave_imported a none⟩
  | destroyed reply =>
      cases reply with
      | none => exact ⟨rfl, rfl⟩
      | some reply => cases h

theorem Recycles.imports {a : Frame C} {pc : Pc C} {core : GpuFrameCore C} {next : Next}
    (h : Recycles a pc core next) (hpc : pc.imports = false) : next.imports = false := by
  cases h with
  | poll => exact hpc
  | release => exact hpc
  | @destroy reply =>
      cases reply with
      | none => rfl
      | some reply => cases hpc

/-- What the import has returned stays. -/
theorem Move.imports {a : Frame C} {pc : Pc C} {e : Choice C} {o : Section C} (h : Move a pc e o)
    (hpc : pc.imports = false) :
    o.pc.imports = false ∧ o.shared.imported = a.imported ∧ o.shared.accepted = a.accepted := by
  cases h with
  | library hlib => rcases hlib with rfl | rfl | ⟨c, rfl⟩ | rfl <;> exact ⟨rfl, rfl, rfl⟩
  | goOn _ _ hnext => rcases hnext with rfl | rfl | ⟨t, rfl⟩ | rfl <;> exact ⟨rfl, rfl, rfl⟩
  | asked hask => rcases hask with rfl | ⟨t, rfl⟩ <;> exact ⟨rfl, rfl, rfl⟩
  | imported => cases hpc
  | importFails => cases hpc
  | wrappedImport => cases hpc
  | accept => cases hpc
  | @acquireThrows who =>
      have hwho : (Next.rethrow who (some GpuFrameCore.recycledError)).imports = false := by
        cases who <;> first | rfl | cases hpc
      exact ⟨(proceed_imports a hwho).1, (proceed_imports a hwho).2, proceed_accepted a (.rethrow who _)⟩
  | @acquired who => cases who <;> first | exact ⟨rfl, rfl, rfl⟩ | cases hpc
  | @wrapThrows who => cases who <;> first | exact ⟨rfl, rfl, rfl⟩ | cases hpc
  | @settle pc core next hrec =>
      have hnext := proceed_imports { a with core := core } (hrec.imports hpc)
      exact ⟨hnext.1, hnext.2, proceed_accepted _ _⟩
  | recycle hrec => exact ⟨hrec.imports hpc, rfl, rfl⟩
  | @callback generation next =>
      have hnext := proceed_imports
        { a with
          recycles := a.recycles ++ [generation]
          releases := if a.accepted then a.releases + 1 else a.releases } hpc
      exact ⟨hnext.1, hnext.2, proceed_accepted _ _⟩
  | @dropCore reply => cases reply <;> first | exact ⟨rfl, rfl, rfl⟩ | cases hpc
  | @dropRecycled reply => cases reply <;> first | exact ⟨rfl, rfl, rfl⟩ | cases hpc
  | @destroyWait completion rest reply => cases reply <;> first | exact ⟨rfl, rfl, rfl⟩ | cases hpc
  | _ => exact ⟨rfl, by simp [Frame.modify, Frame.enter], by simp [Frame.modify, Frame.enter]⟩

/-! ## What a section does to the owner -/

/-- The release callback is called from the recycle callback, once the import has been accepted. -/
theorem Move.releases {a : Frame C} {pc : Pc C} {e : Choice C} {o : Section C} (h : Move a pc e o) :
    o.shared.accepted = a.accepted ∧
        (o.shared.recycles = a.recycles ∧ o.shared.releases = a.releases ∨
          (∃ generation, o.shared.recycles = a.recycles ++ [generation]) ∧
            o.shared.releases = if a.accepted then a.releases + 1 else a.releases) ∨
      (∃ n, pc = .accept n) ∧ o.shared.accepted = true ∧ o.shared.recycles = a.recycles ∧
        o.shared.releases = a.releases := by
  cases h with
  | @callback generation next =>
      refine .inl ⟨by simp [Gpu.callback], .inr ⟨⟨generation, by simp [Gpu.callback]⟩, by simp [Gpu.callback]⟩⟩
  | @accept n => exact .inr ⟨⟨n, rfl⟩, rfl, rfl, rfl⟩
  | @acquireThrows who =>
      obtain ⟨-, -, -, -, hrec, hacc, hrel⟩ := proceed_same a (.rethrow who (some GpuFrameCore.recycledError))
      exact .inl ⟨hacc, .inl ⟨hrec, hrel⟩⟩
  | _ =>
      refine .inl ⟨by simp [Frame.modify, Frame.enter], .inl ⟨?_, ?_⟩⟩
      · simp [Frame.modify, Frame.enter]
      · simp [Frame.modify, Frame.enter]

/-- The section that recycles the frame calls nothing yet. -/
theorem Move.flips {a : Frame C} {pc : Pc C} {e : Choice C} {o : Section C} (h : Move a pc e o)
    (hold : a.core.recycled = false) (hnew : o.shared.core.recycled = true) :
    o.shared.recycles = a.recycles ∧ o.shared.releases = a.releases := by
  cases h with
  | callback =>
      rw [Gpu.callback, proceed_core] at hnew
      rw [hold] at hnew
      cases hnew
  | @acquireThrows who =>
      obtain ⟨-, -, -, -, hrec, -, hrel⟩ := proceed_same a (.rethrow who (some GpuFrameCore.recycledError))
      exact ⟨hrec, hrel⟩
  | _ => simp [Frame.modify, Frame.enter, Gpu.accept]

theorem Recycles.producer {a : Frame C} {pc : Pc C} {core : GpuFrameCore C} {next : Next}
    (h : Recycles a pc core next) : core.producer = a.core.producer := by
  cases h <;> rfl

theorem Move.producer {a : Frame C} {pc : Pc C} {e : Choice C} {o : Section C} (h : Move a pc e o)
    (hlife : a.life ≠ .unborn) : o.shared.core.producer = a.core.producer := by
  cases h with
  | imported _ hunborn => exact absurd hunborn hlife
  | settle hrec => rw [proceed_core]; exact hrec.producer
  | recycle hrec => exact hrec.producer
  | @addConsumer c =>
      rw [finish_shared, leave_core]
      unfold GpuFrameCore.addConsumer
      split
      · rfl
      · split <;> rfl
  | _ => simp [Frame.modify, Frame.enter, Gpu.accept, Gpu.callback]

/-- Only the import brings a core to life, which then has a producer. -/
theorem Move.born {a : Frame C} {pc : Pc C} {e : Choice C} {o : Section C} (h : Move a pc e o)
    (hpc : a.life = .unborn → pc = .idle ∨ ∃ config out, pc = .importFrame config out) (hold : a.life = .unborn)
    (hnew : o.shared.life ≠ .unborn) : o.shared.core.producer ≠ none := by
  have hpc := hpc hold
  cases h with
  | imported hcore => exact (importExternal_ok hcore).2.2.1
  | settle hrec => cases hrec <;> simp at hpc
  | recycle hrec => cases hrec <;> simp at hpc
  | asked hask => rcases hask with rfl | ⟨t, rfl⟩ <;> simp at hpc
  | use | release | library | releaseBare | drop | destroy | importFails => exact absurd hold hnew
  | _ => simp at hpc

/-- A poll or the release of a lease goes on with something else than the destructor. -/
def Pc.calm : Pc C → Prop
  | .poll next | .releaseExternal next => ¬ next.destroys
  | _ => True

theorem proceed_calm (a : Frame C) (next : Next) : (proceed a next).pc.calm := by
  cases next with
  | rethrow who what => cases who <;> trivial
  | destroyed reply => cases reply <;> trivial
  | _ => trivial

theorem Move.calm {a : Frame C} {pc : Pc C} {e : Choice C} {o : Section C} (h : Move a pc e o) : o.pc.calm := by
  cases h with
  | library hlib => rcases hlib with rfl | rfl | ⟨c, rfl⟩ | rfl <;> first | trivial | exact id
  | goOn _ _ hnext => rcases hnext with rfl | rfl | ⟨t, rfl⟩ | rfl <;> trivial
  | acquireThrows => exact proceed_calm a (.rethrow _ _)
  | settle => exact proceed_calm _ _
  | callback => exact proceed_calm _ _
  | dropRecycled => exact proceed_calm _ _
  | asked | releaseBare | wrapThrows | dropLast => exact id
  | _ => trivial

theorem proceed_alive (a : Frame C) {next : Next} (h : ¬ next.destroys) : (proceed a next).shared.life = a.life := by
  cases next with
  | finish handle reply => exact leave_life a handle
  | delete handle => rfl
  | rethrow who what => cases who <;> rfl
  | destroyed reply => exact absurd trivial h

/-- A core whose destructor ends is recycled, unless the destructor has found a completion pending again. -/
theorem Move.destroyed {a : Frame C} {pc : Pc C} {e : Choice C} {o : Section C} (h : Move a pc e o)
    (hlife : o.shared.life = .destroyed) (hcalm : pc.calm)
    (hold : a.life = .destroyed → a.core.recycled = true)
    (hcallback : ∀ generation next, pc = .callback generation next → a.core.recycled = true)
    (hterminal : ∀ reply, pc = .destroyWait [] reply → a.core.Terminal a.states) : o.shared.core.recycled = true := by
  by_cases hl : a.life = .destroyed
  · exact h.recycled_mono (hold hl) (by rw [hl]; exact nofun)
  · cases h with
    | settle hrec hkeep =>
        cases hrec with
        | poll => exact absurd ((proceed_alive a hcalm).symm.trans hlife) hl
        | release => exact absurd ((proceed_alive { a with core := _ } hcalm).symm.trans hlife) hl
        | @destroy reply =>
            rw [proceed_core]
            rcases hkeep with hr | hleases | hpending
            · exact hr
            · exact absurd rfl hleases
            · exact absurd (hterminal reply rfl) hpending
    | recycle => rfl
    | callback =>
        rw [Gpu.callback, proceed_core]
        exact hcallback _ _ rfl
    | dropRecycled _ _ hr =>
        rw [proceed_core]
        exact hr
    | @acquireThrows who =>
        have hsame : (proceed a (.rethrow who (some GpuFrameCore.recycledError))).shared.life = a.life :=
          proceed_alive a id
        exact absurd (hsame.symm.trans hlife) hl
    | imported => cases hlife
    | dropCore => cases hlife
    | _ => exact absurd (by simpa [Frame.modify, Frame.enter, Gpu.accept] using hlife) hl

section

variable {ι : Type*}

/-- Either the import is alone with the frame, or it has returned and nobody stands where it stood. -/
inductive Owner (importer : ι) (a : Frame C) (ks : ι → Client C) : Prop
  | importing (hu : Unshared a) (hpc : Importing a (ks importer).pc) (hidle : ∀ j, j ≠ importer → (ks j).pc = .idle)
  | returned (hr : Returned a) (hpc : ∀ i, (ks i).pc.imports = false)

variable [DecidableEq ι] [Fintype ι] {importer : ι}

theorem Owner.move {a : Frame C} {ks : ι → Client C} {i : ι} {e : Choice C} {o : Section C}
    (ho : Owner importer a ks) (hm : Mortal a ks) (h : Move a (ks i).pc e o) :
    Owner importer o.shared (Function.update ks i ((ks i).after o)) := by
  have hself : (Function.update ks i ((ks i).after o) i).pc = o.pc := by rw [Function.update_self]; rfl
  have hother {j : ι} (hj : j ≠ i) : (Function.update ks i ((ks i).after o) j).pc = (ks j).pc := by
    rw [Function.update_of_ne hj]
  cases ho with
  | importing hu hpc hidle =>
      have hcalls : a.calls ≠ 0 := by
        have := le_sum_pc Pc.busy ks importer
        rw [hpc.busy, ← hm.calls] at this
        omega
      obtain rfl : i = importer := by
        by_contra hi
        exact hu.not_idle hcalls h (hidle i hi)
      rcases hpc.move hu h with ⟨hu', hpc'⟩ | ⟨hr', hpc'⟩
      · exact .importing hu' (hself ▸ hpc') fun j hj => (hother hj).trans (hidle j hj)
      · refine .returned hr' fun j => ?_
        by_cases hj : j = i
        · subst hj
          rw [hself, hpc']
          rfl
        · rw [hother hj, hidle j hj]
          rfl
  | returned hr hpc =>
      obtain ⟨hpc', himported, haccepted⟩ := h.imports (hpc i)
      refine .returned (by rw [Returned, himported, haccepted]; exact hr) fun j => ?_
      by_cases hj : j = i
      · subst hj
        rw [hself]
        exact hpc'
      · rw [hother hj]
        exact hpc j

variable [DecidableEq C] {config : Option (ExternalFrameConfig C)} {out : Bool} {desc : GpuFrameDesc}
  {states : C → CompletionState} {s : FrameState C ι} {ls : List (FrameLabel C ι)}

theorem frame_owner (h : Run Step (.importing importer config out desc states) ls s) :
    Owner importer s.shared s.client := by
  have h₀ : Fresh (FrameState.importing importer config out desc states) := .inr ⟨_, _, _, _, _, rfl⟩
  induction h with
  | nil =>
      refine .importing ⟨rfl, rfl, nofun, rfl, rfl⟩ ?_ fun j hj => ?_
      · simp only [FrameState.importing, Function.update_self]
        exact .importFrame
      · simp [FrameState.importing, hj]
  | @snoc ls s l t hrun hst ih =>
      cases l with
      | worker e =>
          obtain ⟨c, state, rfl, hshared, hclient⟩ := Step.driver_inv hst
          rw [hshared, hclient]
          cases ih with
          | importing hu hpc hidle =>
              obtain ⟨himported, haccepted, howned, hbare, hholders⟩ := hu
              refine .importing ⟨himported, haccepted, howned, hbare, hholders⟩ ?_ hidle
              generalize (s.client importer).pc = pc at hpc
              cases hpc with
              | importFrame => exact .importFrame
              | acquire hr => exact .acquire hr
              | wrap hr => exact .wrap hr
              | accept hr => exact .accept hr
              | release => exact .release
              | callback => exact .callback
              | dropCore herror => exact .dropCore herror
              | destroyWait herror => exact .destroyWait herror
              | destroyed herror => exact .destroyed herror
          | returned hr hpc => exact .returned hr hpc
      | client i e =>
          obtain ⟨o, hmove, hshared, hclient⟩ := Step.client_move hst
          rw [hshared, hclient]
          exact ih.move (frame_mortal hrun h₀) hmove
      | wakeWorker => rw [hst.wakeWorker_inv]; exact ih
      | wake i => rw [hst.wake_inv]; exact ih

omit [DecidableEq ι] [Fintype ι] [DecidableEq C] in
/-- What the import is about to accept has not been recycled. -/
theorem Owner.fresh {a : Frame C} {ks : ι → Client C} {i : ι} {n : Nat} (ho : Owner importer a ks)
    (hpc : (ks i).pc = .accept n) : a.accepted = false ∧ a.core.recycled = false := by
  cases ho with
  | importing hu himp hidle =>
      obtain rfl : i = importer := by
        by_contra hi
        rw [hidle i hi] at hpc
        cases hpc
      rw [hpc] at himp
      cases himp
      exact ⟨hu.accepted, ‹_›⟩
  | returned _ hall =>
      have := hall i
      rw [hpc] at this
      cases this

/-! ## The calls of the release callback -/

/-- Once the import has been accepted, the two callbacks are called together; before, only one of them is. -/
theorem frame_releases (h : Run Step (.importing importer config out desc states) ls s) :
    s.shared.releases = if s.shared.accepted then s.shared.recycles.length else 0 := by
  induction h with
  | nil => rfl
  | @snoc ls s l t hrun hst ih =>
      cases l with
      | worker e =>
          obtain ⟨c, state, rfl, hshared, hclient⟩ := Step.driver_inv hst
          rw [hshared]
          exact ih
      | client i e =>
          obtain ⟨o, hmove, hshared, hclient⟩ := Step.client_move hst
          rw [hshared]
          rcases hmove.releases with ⟨hacc, ⟨hrec, hrel⟩ | ⟨⟨generation, hrec⟩, hrel⟩⟩ | ⟨⟨n, hpc⟩, hacc, hrec, hrel⟩
          · rw [hacc, hrec, hrel, ih]
          · rw [hacc, hrec, hrel, ih]
            split <;> simp
          · obtain ⟨hold, hr⟩ := (frame_owner hrun).fresh hpc
            have hdue := frame_due hrun (.inr ⟨_, _, _, _, _, rfl⟩)
            rw [hr] at hdue
            have hnone : s.shared.recycles.length = 0 := Nat.eq_zero_of_add_eq_zero_right hdue
            rw [hacc, hrec, hrel, ih, hold, hnone]
            rfl
      | wakeWorker => rw [hst.wakeWorker_inv]; exact ih
      | wake i => rw [hst.wake_inv]; exact ih

/-! ## The destructor -/

/-- What the destructor asks again behind its waits is not pending. -/
def Answers (s : FrameState C ι) : FrameLabel C ι → Prop
  | .client i _ =>
      match (s.client i).pc with
      | .destroyWait [] _ => ∀ completion ∈ s.shared.core.completions,
          (completion.query s.shared.states).isPending = false
      | _ => True
  | _ => True

omit [Fintype ι] in
theorem frame_producer (h : Run Step (.importing importer config out desc states) ls s)
    (hlife : s.shared.life ≠ .unborn) : s.shared.core.producer ≠ none := by
  induction h with
  | nil => exact absurd rfl hlife
  | @snoc ls s l t hrun hst ih =>
      cases l with
      | worker e =>
          obtain ⟨c, state, rfl, hshared, hclient⟩ := Step.driver_inv hst
          rw [hshared] at hlife ⊢
          exact ih hlife
      | client i e =>
          obtain ⟨o, hmove, hshared, hclient⟩ := Step.client_move hst
          rw [hshared] at hlife ⊢
          by_cases hold : s.shared.life = .unborn
          · exact hmove.born (fun hl => (frame_unborn hrun (.inr ⟨_, _, _, _, _, rfl⟩) hl).idle i) hold hlife
          · rw [hmove.producer hold]
            exact ih hold
      | wakeWorker => rw [hst.wakeWorker_inv] at hlife ⊢; exact ih hlife
      | wake i => rw [hst.wake_inv] at hlife ⊢; exact ih hlife

omit [Fintype ι] in
theorem frame_calm (h : Run Step (.importing importer config out desc states) ls s) (i : ι) : (s.client i).pc.calm := by
  refine frame_invariant (P := fun _ _ => True) (I := fun _ ks => ∀ i : ι, (ks i).pc.calm)
    (h.mono fun _ _ _ hst => ⟨hst, trivial⟩) ?_ (fun hs _ => hs) ?_ i
  · intro j
    by_cases hj : j = importer
    · subst hj
      simp [FrameState.importing, Pc.calm]
    · simp [FrameState.importing, hj, Pc.calm]
  · intro s i e o hs _ hmove j
    by_cases hj : j = i
    · subst hj
      rw [Function.update_self]
      exact hmove.calm
    · rw [Function.update_of_ne hj]
      exact hs j

theorem frame_destroyed (h : Run (Restrict Step Answers) (.importing importer config out desc states) ls s)
    (hlife : s.shared.life = .destroyed) : s.shared.core.recycled = true := by
  have h₀ : Fresh (FrameState.importing importer config out desc states) := .inr ⟨_, _, _, _, _, rfl⟩
  induction h with
  | nil => cases hlife
  | @snoc ls s l t hrun hst ih =>
      obtain ⟨hst, hanswers⟩ := hst
      have hrun' := hrun.of_restrict
      cases l with
      | worker e =>
          obtain ⟨c, state, rfl, hshared, hclient⟩ := Step.driver_inv hst
          rw [hshared] at hlife ⊢
          exact ih hlife
      | client i e =>
          obtain ⟨o, hmove, hshared, hclient⟩ := Step.client_move hst
          rw [hshared] at hlife ⊢
          refine hmove.destroyed hlife (frame_calm hrun' i) ih (fun generation next hpc => ?_) (fun reply hpc => ?_)
          · have hdue := frame_due hrun' h₀
            have hone : (s.client i).pc.due = 1 := by rw [hpc]; rfl
            have hsum := le_sum_pc Pc.due s.client i
            rw [← Bool.toNat_eq_one]
            have := Bool.toNat_le s.shared.core.recycled
            omega
          · have hdying := (frame_mortal hrun' h₀).destroying i (by rw [hpc]; trivial)
            refine ⟨frame_producer hrun' (by rw [hdying]; exact nofun), ?_⟩
            simpa only [Answers, hpc] using hanswers
      | wakeWorker => rw [hst.wakeWorker_inv] at hlife ⊢; exact ih hlife
      | wake i => rw [hst.wake_inv] at hlife ⊢; exact ih hlife

/-- When the destructor does not find a completion pending again behind its waits, the release callback of an
accepted import is called exactly once by the end of the core; that of a rejected one is never called. It is not
called before a state in which there is no lease and no completion is pending. -/
theorem release_once (h : Run (Restrict Step Answers) (.importing importer config out desc states) ls s) :
    s.shared.releases ≤ 1 ∧
      (s.shared.imported = some .ok → s.shared.life = .destroyed → s.shared.releases = 1) ∧
      (∀ status, s.shared.imported = some status → status.result ≠ .ok → s.shared.releases = 0) ∧
      (s.shared.releases ≠ 0 → ∃ ls₁ u ls₂, ls = ls₁ ++ ls₂ ∧
        Run Step (.importing importer config out desc states) ls₁ u ∧ Run Step u ls₂ s ∧
        u.shared.releases = 0 ∧ u.shared.core.externalLeases = 0 ∧ u.shared.core.Terminal u.shared.states) := by
  have h₀ : Fresh (FrameState.importing importer config out desc states) := .inr ⟨_, _, _, _, _, rfl⟩
  have hrun := h.of_restrict
  have hreleases := frame_releases hrun
  have hdue := frame_due hrun h₀
  have hle : s.shared.core.recycled.toNat ≤ 1 := Bool.toNat_le _
  have hreturned {status : Status} (himported : s.shared.imported = some status) :
      s.shared.accepted = true ↔ status.result = .ok := by
    cases frame_owner hrun with
    | importing hu => rw [hu.imported] at himported; cases himported
    | returned hr =>
        obtain ⟨status', himported', haccepted⟩ := hr
        rw [himported] at himported'
        cases himported'
        exact haccepted
  refine ⟨?_, fun himported hlife => ?_, fun status himported herror => ?_, fun hne => ?_⟩
  · rw [hreleases]
    split <;> omega
  · have hr := frame_destroyed h hlife
    have hm := frame_mortal hrun h₀
    have hcalls : s.shared.calls = 0 := by
      have := (hm.dead (.inr hlife)).calls
      simpa [hlife] using this
    have hidle (i : ι) : (s.client i).pc = .idle := by
      have := le_sum_pc Pc.busy s.client i
      rw [← hm.calls, hcalls] at this
      exact Pc.idle_of_busy (Nat.le_zero.mp this)
    have hnone : ∑ i, (s.client i).pc.due = 0 :=
      Finset.sum_eq_zero fun i _ => by rw [hidle i]; rfl
    rw [hnone, hr] at hdue
    rw [hreleases, if_pos ((hreturned himported).mpr rfl)]
    exact hdue
  · rw [hreleases, if_neg (mt (hreturned himported).mp herror)]
  · have hlen : s.shared.recycles.length ≠ 0 := by
      rw [hreleases] at hne
      split at hne
      · exact hne
      · exact absurd rfl hne
    have hr : s.shared.core.recycled = true := by
      rw [← Bool.toNat_eq_one]
      omega
    obtain ⟨ls₁, u, l, v, ls₂, hu, hst, hv, hold, hnew, rfl⟩ :=
      hrun.exists_flip (P := fun s => s.shared.core.recycled = true) nofun hr
    have hnone : v.shared.releases = 0 ∧ v.shared.core.externalLeases = 0 ∧ v.shared.core.Terminal v.shared.states := by
      cases l with
      | worker e =>
          obtain ⟨c, state, rfl, hshared, -⟩ := Step.driver_inv hst
          rw [hshared] at hnew
          exact absurd hnew hold
      | client i e =>
          obtain ⟨o, hmove, hshared, -⟩ := Step.client_move hst
          have hnew' := hnew
          rw [hshared] at hnew' ⊢
          have hr' : u.shared.core.recycled = false := by simpa using hold
          obtain ⟨hrec, hrel⟩ := hmove.flips hr' hnew'
          rcases hmove.recycled hnew' with ⟨hr'', -⟩ | ⟨-, hleases, hterminal⟩
          · exact absurd hr'' hold
          · refine ⟨?_, hleases, hterminal⟩
            have hdue := frame_due hu h₀
            rw [hr'] at hdue
            have hnone : u.shared.recycles.length = 0 := Nat.eq_zero_of_add_eq_zero_right hdue
            rw [hrel, frame_releases hu, hnone, ite_self]
      | wakeWorker => rw [hst.wakeWorker_inv] at hnew; exact absurd hnew hold
      | wake i => rw [hst.wake_inv] at hnew; exact absurd hnew hold
    exact ⟨ls₁ ++ [l], v, ls₂, by simp, .snoc hu hst, hv, hnone⟩

end

/-! ## A completion that is pending again -/

def smallConfig : ExternalFrameConfig Unit :=
  ⟨232, 1, smallDesc, ⟨64, 1, .cudaPointer, 1, 0, 7, fun _ => 1⟩, some (), true⟩

/-- A thread that imports a frame whose completion is pending. -/
def FrameState.smallImport : FrameState Unit Unit := .importing () (some smallConfig) true smallDesc fun _ => .pending

/-- The frame is imported and released; the completion answers the destructor's wait, and then `again`. -/
def lastQuery (again : CompletionState) : List (FrameLabel Unit Unit) :=
  [.client () .run, .client () .run, .client () .run, .client () .run, .client () (.call (.release 0)),
    .client () .run, .client () .run, .client () .run, .client () (.call .destroy), .client () .run,
    .worker (.signal () .complete), .client () .run, .worker (.signal () again), .client () .run]

/-- `Answers` as a test. -/
def answers (s : FrameState Unit Unit) : FrameLabel Unit Unit → Bool
  | .client i _ =>
      match (s.client i).pc with
      | .destroyWait [] _ => s.shared.core.completions.all fun completion =>
          !(completion.query s.shared.states).isPending
      | _ => true
  | _ => true

theorem answers_of_test {s : FrameState Unit Unit} {l : FrameLabel Unit Unit} (h : answers s l = true) :
    Answers s l := by
  cases l with
  | client i e =>
      simp only [answers, Answers] at h ⊢
      split
      · rename_i hpc
        rw [hpc] at h
        simpa using h
      · trivial
  | _ => trivial

theorem release_once_small : ∃ s : FrameState Unit Unit,
    Run (Restrict Step Answers) .smallImport (lastQuery .complete ++ [.client () .run]) s ∧
      s.shared.life = .destroyed ∧ s.shared.releases = 1 := by
  have h : Run (Restrict Step Answers) .smallImport (lastQuery .complete ++ [.client () .run]) _ :=
    Program.restrict_of_exec rfl (f := answers) rfl fun _ _ => answers_of_test
  exact ⟨_, h, rfl, (release_once h).2.1 rfl rfl⟩

/-- The frame has been accepted and is destroyed, and its owner has not been called. -/
theorem owner_not_called : ∃ s : FrameState Unit Unit, Run Step .smallImport (lastQuery .pending) s ∧
    s.shared.imported = some .ok ∧ s.shared.life = .destroyed ∧ s.shared.releases = 0 :=
  ⟨_, Program.run_of_exec rfl, rfl, rfl, rfl⟩

end MkvCodec.Gpu
