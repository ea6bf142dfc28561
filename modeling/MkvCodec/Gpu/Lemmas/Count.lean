import MkvCodec.Gpu.Lemmas.Move

/-!
# Counting leases and references

What one section does to the counters of a frame and of its handles, against the shares of them that calls in
progress have in their hands.
-/

namespace MkvCodec.Gpu

open Concurrency

variable {C : Type*}

/-! ## Handles by number -/

theorem countP_modify {α : Type*} {p : α → Bool} {f : α → α} {l : List α} {n : Nat} {x : α} (h : l[n]? = some x) :
    (l.modify n f).countP p + (p x).toNat = l.countP p + (p (f x)).toNat := by
  induction l generalizing n with
  | nil => cases h
  | cons y l ih =>
      cases n with
      | zero =>
          cases h
          simp only [List.modify_zero_cons, List.countP_cons]
          cases p x <;> cases p (f x) <;> simp
      | succ n =>
          have := ih (by simpa using h)
          simp only [List.modify_succ_cons, List.countP_cons]
          omega

theorem countP_modify_same {α : Type*} {p : α → Bool} {f : α → α} (hf : ∀ x, p (f x) = p x) (l : List α) (n : Nat) :
    (l.modify n f).countP p = l.countP p := by
  cases hn : l[n]? with
  | none => rw [List.modify_eq_self (List.getElem?_eq_none_iff.mp hn)]
  | some x =>
      have := countP_modify (p := p) (f := f) hn
      rw [hf] at this
      omega

/-- A number of a handle; 0 of one that does not exist. -/
def Frame.at (a : Frame C) (g : GpuFrameHandle → Nat) (n : Nat) : Nat := (a.handles[n]?.map g).getD 0

/-- The handles that have a reference. -/
def Frame.live (a : Frame C) : Nat := a.handles.countP fun h => decide (h.references ≠ 0)

section

variable {a : Frame C} {g : GpuFrameHandle → Nat} {f : GpuFrameHandle → GpuFrameHandle} {n m : Nat} {h : GpuFrameHandle}

theorem at_eq (hn : a.handles[n]? = some h) : a.at g n = g h := by simp [Frame.at, hn]

theorem exists_of_at (hn : a.at g n ≠ 0) : ∃ h, a.handles[n]? = some h ∧ a.at g n = g h := by
  cases hh : a.handles[n]? with
  | none => simp [Frame.at, hh] at hn
  | some h => exact ⟨h, rfl, at_eq hh⟩

theorem at_modify_self (hn : a.handles[n]? = some h) : (a.modify n f).at g n = g (f h) := by
  simp [Frame.at, Frame.modify, hn]

theorem at_modify_ne (hne : m ≠ n) : (a.modify m f).at g n = a.at g n := by
  simp only [Frame.at, Frame.modify, List.getElem?_modify, hne, ↓reduceIte]
  cases a.handles[n]? <;> rfl

theorem at_modify (hm : a.handles[m]? = some h) :
    (a.modify m f).at g n = if m = n then g (f h) else a.at g n := by
  split
  · rename_i hmn
    subst hmn
    exact at_modify_self hm
  · exact at_modify_ne ‹_›

theorem at_modify_same (hf : ∀ h, g (f h) = g h) : (a.modify m f).at g n = a.at g n := by
  simp only [Frame.at, Frame.modify, List.getElem?_modify]
  cases a.handles[n]? with
  | none => rfl
  | some h =>
      simp only [Option.map_eq_map, Option.map_some, Option.getD_some]
      split
      · exact hf h
      · rfl

theorem at_append (h : GpuFrameHandle) :
    ({ a with handles := a.handles ++ [h] } : Frame C).at g n =
      if n = a.handles.length then g h else a.at g n := by
  simp only [Frame.at, List.getElem?_append, List.getElem?_singleton]
  split
  · rename_i hlt
    rw [if_neg (Nat.ne_of_lt hlt)]
  · rename_i hge
    split
    · rename_i heq
      simp [Nat.le_antisymm (Nat.sub_eq_zero_iff_le.mp heq) (Nat.not_lt.mp hge)]
    · rename_i hne
      rw [if_neg fun heq => hne (by omega), List.getElem?_eq_none (Nat.not_lt.mp hge)]

theorem at_append_zero {h : GpuFrameHandle} (hg : g h = 0) :
    ({ a with handles := a.handles ++ [h] } : Frame C).at g n = a.at g n := by
  rw [at_append]
  split
  · rename_i hn
    simp [hg, hn, Frame.at]
  · rfl

theorem live_modify_same (hf : ∀ h, (f h).references = h.references) : (a.modify m f).live = a.live :=
  countP_modify_same (fun h => by rw [hf]) _ _

theorem live_append (h : GpuFrameHandle) (href : h.references ≠ 0) :
    ({ a with handles := a.handles ++ [h] } : Frame C).live = a.live + 1 := by
  simp [Frame.live, href]

end

abbrev Frame.references (a : Frame C) (n : Nat) : Nat := a.at (·.references) n

abbrev Frame.owned (a : Frame C) (n : Nat) : Nat := a.at (·.owned) n

abbrev Frame.users (a : Frame C) (n : Nat) : Nat := a.at (·.users) n

/-! ## Shares of a call -/

/-- The use of a handle by a call. -/
def Next.uses (n : Nat) : Next → Nat
  | .finish (some m) _ => if m = n then 1 else 0
  | _ => 0

def Pc.uses (n : Nat) : Pc C → Nat
  | .check m _ | .addReference m | .query m | .wait m _ | .native m => if m = n then 1 else 0
  | .poll next | .releaseExternal next | .callback _ next => next.uses n
  | _ => 0

/-- The reference of a handle that a call is about to drop, or that an import has not yet returned. -/
def Pc.refs (n : Nat) : Pc C → Nat
  | .dropReference m | .accept m => if m = n then 1 else 0
  | _ => 0

def Pc.leases : Pc C → Nat
  | .wrap _ | .releaseExternal _ => 1
  | _ => 0

section

variable (a : Frame C) (handle : Option Nat) (next : Next) (n : Nat)

@[simp] theorem leave_references : (a.leave handle).references n = a.references n := by
  cases handle with
  | none => rfl
  | some m => exact at_modify_same fun _ => rfl

@[simp] theorem leave_owned : (a.leave handle).owned n = a.owned n := by
  cases handle with
  | none => rfl
  | some m => exact at_modify_same fun _ => rfl

@[simp] theorem leave_live : (a.leave handle).live = a.live := by
  cases handle with
  | none => rfl
  | some m => exact live_modify_same fun _ => rfl

theorem leave_users {m : Nat} : (a.leave (some m)).users n = a.users n - if m = n then 1 else 0 := by
  by_cases hm : m = n
  · subst hm
    cases hh : a.handles[m]? with
    | none => simp [Frame.leave, Frame.modify, Frame.at, hh]
    | some h => simp [Frame.leave, Frame.modify, Frame.at, hh, GpuFrameHandle.unuse]
  · rw [if_neg hm]
    exact at_modify_ne hm

theorem proceed_counts : (proceed a next).shared.references n = a.references n ∧
    (proceed a next).shared.owned n = a.owned n ∧ (proceed a next).shared.live = a.live ∧
    (proceed a next).pc.refs n = 0 ∧ (proceed a next).pc.uses n = 0 ∧ (proceed a next).pc.leases = 0 := by
  cases next with
  | finish handle reply => simp [proceed, Pc.refs, Pc.uses, Pc.leases]
  | delete handle => simp [proceed, Pc.refs, Pc.uses, Pc.leases]
  | rethrow who what =>
      rcases rethrow_cases a who what with ⟨heq, -⟩ | heq <;> simp [proceed, heq, Pc.refs, Pc.uses, Pc.leases]
  | destroyed reply => cases reply <;> simp [proceed, Pc.refs, Pc.uses, Pc.leases] <;> exact ⟨rfl, rfl, rfl⟩

theorem proceed_users (h : next.uses n ≤ a.users n) :
    (proceed a next).shared.users n + next.uses n = a.users n := by
  cases next with
  | finish handle reply =>
      cases handle with
      | none => rfl
      | some m =>
          simp only [Next.uses] at h
          simp only [proceed, finish_shared, leave_users, Next.uses]
          omega
  | delete handle => rfl
  | rethrow who what => rcases rethrow_cases a who what with ⟨heq, -⟩ | heq <;> rw [proceed, heq] <;> rfl
  | destroyed reply => cases reply <;> rfl

end

/-! ## One section -/

section

variable {a : Frame C} {pc : Pc C} {e : Choice C} {o : Section C} {n : Nat}

theorem Recycles.shares {core : GpuFrameCore C} {next : Next} (h : Recycles a pc core next) :
    pc.refs n = 0 ∧ pc.uses n = next.uses n := by
  cases h <;> exact ⟨rfl, rfl⟩

theorem finish_users {b : Frame C} {handle : Option Nat} {reply : Option Reply} (hb : b.users n = a.users n)
    (huses : (Next.finish handle reply).uses n ≤ a.users n) :
    (finish b handle reply).shared.users n + (Next.finish handle reply).uses n = a.users n := by
  rw [← hb]
  exact proceed_users b (.finish handle reply) n (hb ▸ huses)

/-- The uses of a handle by calls in progress. -/
theorem Move.uses (h : Move a pc e o) (huses : pc.uses n ≤ a.users n) :
    o.shared.users n + pc.uses n = a.users n + o.pc.uses n := by
  cases h with
  | @use m op h hn =>
      by_cases hm : m = n
      · subst hm
        have hself : (a.modify m .use).users m = a.users m + 1 := by
          rw [Frame.users, Frame.users, at_modify_self hn, at_eq hn]
          rfl
        exact hself.trans (by simp [Pc.uses])
      · have hother : (a.modify m .use).users n = a.users n := at_modify_ne hm
        exact hother.trans (by simp [Pc.uses, hm])
  | library hpc => rcases hpc with rfl | rfl | ⟨c, rfl⟩ | rfl <;> rfl
  | goOn hn hvalid hpc => rcases hpc with rfl | rfl | ⟨t, rfl⟩ | rfl <;> rfl
  | asked hpc => rcases hpc with rfl | ⟨t, rfl⟩ <;> rfl
  | @acquireThrows who =>
      have hsame := proceed_users a (.rethrow who (some GpuFrameCore.recycledError)) n (Nat.zero_le _)
      have hpc := (proceed_counts a (.rethrow who (some GpuFrameCore.recycledError)) n).2.2.2.2.1
      rw [proceed] at hsame hpc
      rw [hpc]
      exact hsame
  | @settle pc core next hrec =>
      rw [(hrec.shares (n := n)).2] at huses ⊢
      rw [proceed_users { a with core := core } next n huses,
        (proceed_counts { a with core := core } next n).2.2.2.2.1]
      rfl
  | recycle hrec => rw [(hrec.shares (n := n)).2]; rfl
  | @callback generation next =>
      have hsame := proceed_users { a with
        recycles := a.recycles ++ [generation]
        releases := if a.accepted then a.releases + 1 else a.releases } next n huses
      have hpc := (proceed_counts { a with
        recycles := a.recycles ++ [generation]
        releases := if a.accepted then a.releases + 1 else a.releases } next n).2.2.2.2.1
      exact hsame.trans (by rw [Gpu.callback, hpc]; rfl)
  | @dropRecycled reply => cases reply <;> rfl
  | wrapped => exact finish_users (at_append_zero rfl) (Nat.zero_le _)
  | wrappedImport => exact at_append_zero rfl
  | accept => exact finish_users (at_modify_same fun _ => rfl) (Nat.zero_le _)
  | rejected | replied | core | native => exact finish_users rfl huses
  | addReference => exact finish_users (at_modify_same fun _ => rfl) huses
  | delete => exact finish_users (at_modify_same fun _ => rfl) (Nat.zero_le _)
  | dropReference => exact finish_users (at_modify_same fun _ => rfl) (Nat.zero_le _)
  | release => exact at_modify_same fun _ => rfl
  | dropLast => exact at_modify_same fun _ => rfl
  | _ => rfl

/-- A section that leaves references and owned references of all handles alone. -/
theorem same_refs {b : Frame C} (href : b.references n = a.references n) (hown : b.owned n = a.owned n) :
    b.references n + a.owned n + 0 = a.references n + b.owned n + 0 := by
  rw [href, hown]

/-- The references of a handle are those that the application owns and those in the hands of calls. -/
theorem Move.refs (h : Move a pc e o) (hshare : ∀ n, pc.refs n ≤ a.references n)
    (hadd : ∀ m, pc = .addReference m → a.references m ≠ 0 ∧ a.references m + 1 < 2 ^ 32) :
    o.shared.references n + a.owned n + pc.refs n = a.references n + o.shared.owned n + o.pc.refs n := by
  cases h with
  | use => exact same_refs (at_modify_same fun _ => rfl) (at_modify_same fun _ => rfl)
  | @release m h hm hlive howned =>
      have hown : (a.modify m .disown).owned n = if m = n then h.owned - 1 else a.owned n := at_modify hm
      have href : (a.modify m .disown).references n = a.references n := at_modify_same fun _ => rfl
      change (a.modify m .disown).references n + a.owned n + 0 =
        a.references n + (a.modify m .disown).owned n + (if m = n then 1 else 0)
      rw [hown, href]
      by_cases hmn : m = n
      · subst hmn
        rw [if_pos rfl, if_pos rfl, Frame.owned, at_eq hm]
        omega
      · simp [hmn]
  | library hpc => rcases hpc with rfl | rfl | ⟨c, rfl⟩ | rfl <;> exact same_refs rfl rfl
  | goOn hn hvalid hpc => rcases hpc with rfl | rfl | ⟨t, rfl⟩ | rfl <;> exact same_refs rfl rfl
  | asked hpc => rcases hpc with rfl | ⟨t, rfl⟩ <;> exact same_refs rfl rfl
  | @acquireThrows who =>
      obtain ⟨href, hown, -, hpc, -⟩ := proceed_counts a (.rethrow who (some GpuFrameCore.recycledError)) n
      rw [proceed] at href hown hpc
      rw [hpc]
      exact same_refs href hown
  | @settle pc core next hrec =>
      obtain ⟨href, hown, -, hpc, -⟩ := proceed_counts { a with core := core } next n
      rw [hpc, (hrec.shares (n := n)).1]
      exact same_refs href hown
  | recycle hrec =>
      rw [(hrec.shares (n := n)).1]
      exact same_refs rfl rfl
  | @callback generation next =>
      obtain ⟨href, hown, -, hpc, -⟩ := proceed_counts { a with
        recycles := a.recycles ++ [generation]
        releases := if a.accepted then a.releases + 1 else a.releases } next n
      rw [Gpu.callback, hpc]
      exact same_refs href hown
  | @dropRecycled reply => cases reply <;> exact same_refs rfl rfl
  | wrapped =>
      have href : ({ a with handles := a.handles ++ [newHandle a 1] } : Frame C).references n =
          if n = a.handles.length then 1 else a.references n := at_append _
      have hown : ({ a with handles := a.handles ++ [newHandle a 1] } : Frame C).owned n =
          if n = a.handles.length then 1 else a.owned n := at_append _
      simp only [finish_shared, leave_references, leave_owned, finish_pc, Pc.refs]
      rw [href, hown]
      by_cases hn : n = a.handles.length
      · subst hn
        simp [Frame.at]
      · simp [hn]
  | wrappedImport =>
      have href : ({ a with handles := a.handles ++ [newHandle a 0] } : Frame C).references n =
          if n = a.handles.length then 1 else a.references n := at_append _
      have hown : ({ a with handles := a.handles ++ [newHandle a 0] } : Frame C).owned n =
          if n = a.handles.length then 0 else a.owned n := at_append _
      simp only [Pc.refs]
      rw [href, hown]
      by_cases hn : n = a.handles.length
      · subst hn
        simp [Frame.at]
      · simp [hn, Ne.symm hn]
  | @accept m =>
      have hm : a.references m ≠ 0 := by
        have := hshare m
        simp only [Pc.refs, ↓reduceIte] at this
        omega
      obtain ⟨h, hm, -⟩ := exists_of_at hm
      have hown : (a.modify m .own).owned n = if m = n then h.owned + 1 else a.owned n := at_modify hm
      have href : (a.modify m .own).references n = a.references n := at_modify_same fun _ => rfl
      simp only [Gpu.accept, finish_shared, leave_references, leave_owned, finish_pc]
      change (a.modify m .own).references n + a.owned n + (if m = n then 1 else 0) =
        a.references n + (a.modify m .own).owned n + 0
      rw [hown, href]
      by_cases hmn : m = n
      · subst hmn
        rw [if_pos rfl, if_pos rfl, Frame.owned, at_eq hm]
        omega
      · simp [hmn]
  | rejected | replied | core | native => exact same_refs (leave_references ..) (leave_owned ..)
  | @addReference m =>
      obtain ⟨hne, hsmall⟩ := hadd m rfl
      obtain ⟨h, hm, hrefs⟩ := exists_of_at hne
      have hown : (a.modify m .addReference).owned n = if m = n then h.owned + 1 else a.owned n := at_modify hm
      have href : (a.modify m .addReference).references n =
          if m = n then u32 (h.references + 1) else a.references n := at_modify hm
      simp only [finish_shared, leave_references, leave_owned, finish_pc]
      rw [hown, href]
      by_cases hmn : m = n
      · subst hmn
        rw [Frame.references, hrefs] at hsmall
        rw [if_pos rfl, if_pos rfl, Frame.owned, Frame.references, at_eq hm, hrefs, u32_of_lt hsmall]
        simp only [Pc.refs]
        omega
      · simp [hmn, Pc.refs]
  | @dropReference m h hm =>
      have hshare := hshare m
      have hown : (a.modify m .dropReference).owned n = a.owned n := at_modify_same fun _ => rfl
      have href : (a.modify m .dropReference).references n =
          if m = n then h.dropReference.references else a.references n := at_modify hm
      simp only [finish_shared, leave_references, leave_owned, finish_pc]
      rw [hown, href]
      by_cases hmn : m = n
      · subst hmn
        simp only [Pc.refs, ↓reduceIte, Frame.references, at_eq hm] at hshare ⊢
        simp only [GpuFrameHandle.dropReference]
        rw [if_neg (by omega)]
        omega
      · simp [hmn, Pc.refs]
  | @dropLast m h hm =>
      have hshare := hshare m
      have hown : (a.modify m .dropReference).owned n = a.owned n := at_modify_same fun _ => rfl
      have href : (a.modify m .dropReference).references n =
          if m = n then h.dropReference.references else a.references n := at_modify hm
      rw [hown, href]
      by_cases hmn : m = n
      · subst hmn
        simp only [Pc.refs, ↓reduceIte, Frame.references, at_eq hm] at hshare ⊢
        simp only [GpuFrameHandle.dropReference]
        rw [if_neg (by omega)]
        omega
      · simp [hmn, Pc.refs]
  | @delete m =>
      have hown : (a.modify m .delete).owned n = a.owned n := at_modify_same fun _ => rfl
      have href : (a.modify m .delete).references n = a.references n := at_modify_same fun _ => rfl
      exact same_refs ((leave_references ..).trans href) ((leave_owned ..).trans hown)
  | importFails | bare | addConsumer => exact same_refs (leave_references ..) (leave_owned ..)
  | _ => exact same_refs rfl rfl

/-- Only `retain`, a release and a new handle touch the reference count of a handle. -/
theorem Move.references (h : Move a pc e o) : o.shared.references n = a.references n ∨ pc = .addReference n ∨
    pc = .dropReference n ∨ ∃ who, pc = .wrap who := by
  cases h with
  | use => exact .inl (at_modify_same fun _ => rfl)
  | release => exact .inl (at_modify_same fun _ => rfl)
  | @acquireThrows who => exact .inl (proceed_counts a (.rethrow who (some GpuFrameCore.recycledError)) n).1
  | @settle pc core next => exact .inl (proceed_counts { a with core := core } next n).1
  | @callback generation next => exact .inl (proceed_counts { a with
      recycles := a.recycles ++ [generation]
      releases := if a.accepted then a.releases + 1 else a.releases } next n).1
  | @dropRecycled reply => cases reply <;> exact .inl rfl
  | wrapped | wrappedImport | wrapThrows => exact .inr (.inr (.inr ⟨_, rfl⟩))
  | @accept m =>
      have hown : (a.modify m .own).references n = a.references n := at_modify_same fun _ => rfl
      exact .inl ((leave_references ..).trans hown)
  | @addReference m =>
      by_cases hmn : m = n
      · exact .inr (.inl (by rw [hmn]))
      · have hother : (a.modify m .addReference).references n = a.references n := at_modify_ne hmn
        exact .inl ((leave_references ..).trans hother)
  | @dropReference m | @dropLast m =>
      by_cases hmn : m = n
      · exact .inr (.inr (.inl (by rw [hmn])))
      · have hother : (a.modify m .dropReference).references n = a.references n := at_modify_ne hmn
        exact .inl (by simpa using hother)
  | @delete m =>
      have hsame : (a.modify m .delete).references n = a.references n := at_modify_same fun _ => rfl
      exact .inl ((leave_references ..).trans hsame)
  | rejected | replied | native | importFails | bare | addConsumer => exact .inl (leave_references ..)
  | core => exact .inl (leave_references { a with holders := a.holders + 1 } _ n)
  | _ => exact .inl rfl

theorem leave_users_le (b : Frame C) (handle : Option Nat) (n : Nat) : (b.leave handle).users n ≤ b.users n := by
  cases handle with
  | none => exact Nat.le_refl _
  | some m =>
      rw [leave_users]
      exact Nat.sub_le _ _

theorem proceed_users_le (b : Frame C) (next : Next) (n : Nat) :
    (proceed b next).shared.users n ≤ b.users n := by
  cases next with
  | finish handle reply => exact leave_users_le b handle n
  | delete handle => exact Nat.le_refl _
  | rethrow who what =>
      rcases rethrow_cases b who what with ⟨heq, -⟩ | heq
      · rw [proceed, heq]
      · rw [proceed, heq]
        exact leave_users_le b none n
  | destroyed reply => cases reply <;> exact Nat.le_refl _

theorem used_of_le {b : Frame C} (hused : a.users n ≠ 0 → a.owned n ≠ 0) (hu : b.users n ≤ a.users n)
    (ho : a.owned n ≤ b.owned n) : b.users n ≠ 0 → b.owned n ≠ 0 := by
  intro hb
  have := hused (by omega)
  omega

/-- The application has a reference to a handle that it uses. -/
theorem Move.used (h : Move a pc e o) (hused : a.users n ≠ 0 → a.owned n ≠ 0)
    (hshare : ∀ m, pc.refs m ≤ a.references m) (hadd : ∀ m, pc = .addReference m → a.references m ≠ 0) :
    o.shared.users n ≠ 0 → o.shared.owned n ≠ 0 := by
  cases h with
  | @use m op h hm hlive howned =>
      intro hu
      have hown : (a.modify m .use).owned n = a.owned n := at_modify_same fun _ => rfl
      have huser : (a.modify m .use).users n = if m = n then h.users + 1 else a.users n := at_modify hm
      change (a.modify m .use).users n ≠ 0 at hu
      change (a.modify m .use).owned n ≠ 0
      rw [hown]
      by_cases hmn : m = n
      · subst hmn
        rw [Frame.owned, at_eq hm]
        exact Nat.pos_iff_ne_zero.mp howned
      · rw [huser, if_neg hmn] at hu
        exact hused hu
  | @release m h hm hlive howned hlast =>
      intro hu
      have hown : (a.modify m .disown).owned n = if m = n then h.owned - 1 else a.owned n := at_modify hm
      have huser : (a.modify m .disown).users n = a.users n := at_modify_same fun _ => rfl
      change (a.modify m .disown).users n ≠ 0 at hu
      change (a.modify m .disown).owned n ≠ 0
      rw [huser] at hu
      rw [hown]
      by_cases hmn : m = n
      · subst hmn
        rw [Frame.users, at_eq hm] at hu
        rw [if_pos rfl]
        omega
      · rw [if_neg hmn]
        exact hused hu
  | library | releaseBare | drop | destroy | imported | acquired | wrapThrows | goOn | asked => exact hused
  | recycle | dropCore | destroyWait => exact hused
  | @dropLast m =>
      have hown : (a.modify m .dropReference).owned n = a.owned n := at_modify_same fun _ => rfl
      have huser : (a.modify m .dropReference).users n = a.users n := at_modify_same fun _ => rfl
      exact used_of_le hused (Nat.le_of_eq huser) (Nat.le_of_eq hown.symm)
  | @acquireThrows who =>
      exact used_of_le hused (proceed_users_le a (.rethrow who _) n)
        (Nat.le_of_eq (proceed_counts a (.rethrow who _) n).2.1.symm)
  | @settle pc core next =>
      exact used_of_le hused (proceed_users_le { a with core := core } next n)
        (Nat.le_of_eq (proceed_counts { a with core := core } next n).2.1.symm)
  | @callback generation next =>
      exact used_of_le hused
        (proceed_users_le { a with
          recycles := a.recycles ++ [generation]
          releases := if a.accepted then a.releases + 1 else a.releases } next n)
        (Nat.le_of_eq (proceed_counts { a with
          recycles := a.recycles ++ [generation]
          releases := if a.accepted then a.releases + 1 else a.releases } next n).2.1.symm)
  | @dropRecycled reply => cases reply <;> exact hused
  | wrapped =>
      refine used_of_le hused (Nat.le_of_eq (at_append_zero rfl)) ?_
      have hown : ({ a with handles := a.handles ++ [newHandle a 1] } : Frame C).owned n =
          if n = a.handles.length then 1 else a.owned n := at_append _
      rw [finish_shared, leave_owned, hown]
      split
      · rename_i hn
        subst hn
        simp [Frame.at]
      · exact Nat.le_refl _
  | wrappedImport => exact used_of_le hused (Nat.le_of_eq (at_append_zero rfl)) (Nat.le_of_eq (at_append_zero rfl).symm)
  | @accept m =>
      have hm : a.references m ≠ 0 := by
        have := hshare m
        simp only [Pc.refs, ↓reduceIte] at this
        omega
      obtain ⟨h, hm, -⟩ := exists_of_at hm
      have hown : (a.modify m .own).owned n = if m = n then h.owned + 1 else a.owned n := at_modify hm
      refine used_of_le hused (Nat.le_of_eq (at_modify_same fun _ => rfl)) ?_
      change a.owned n ≤ (a.modify m .own).owned n
      rw [hown]
      by_cases hmn : m = n
      · subst hmn
        rw [if_pos rfl, Frame.owned, at_eq hm]
        exact Nat.le_succ _
      · rw [if_neg hmn]
  | rejected | replied | native => exact used_of_le hused (leave_users_le ..) (Nat.le_of_eq (leave_owned ..).symm)
  | core =>
      exact used_of_le hused (leave_users_le ..)
        (Nat.le_of_eq (leave_owned { a with holders := a.holders + 1 } (some _) n).symm)
  | @addReference m =>
      obtain ⟨h, hm, -⟩ := exists_of_at (hadd m rfl)
      have hown : (a.modify m .addReference).owned n = if m = n then h.owned + 1 else a.owned n := at_modify hm
      have huser : (a.modify m .addReference).users n = a.users n := at_modify_same fun _ => rfl
      refine used_of_le hused ((leave_users_le ..).trans (Nat.le_of_eq huser)) ?_
      rw [finish_shared, leave_owned, hown]
      by_cases hmn : m = n
      · subst hmn
        rw [if_pos rfl, Frame.owned, at_eq hm]
        exact Nat.le_succ _
      · rw [if_neg hmn]
  | @dropReference m =>
      have hown : (a.modify m .dropReference).owned n = a.owned n := at_modify_same fun _ => rfl
      have huser : (a.modify m .dropReference).users n = a.users n := at_modify_same fun _ => rfl
      exact used_of_le hused (Nat.le_of_eq huser) (Nat.le_of_eq hown.symm)
  | @delete m =>
      have hown : (a.modify m .delete).owned n = a.owned n := at_modify_same fun _ => rfl
      have huser : (a.modify m .delete).users n = a.users n := at_modify_same fun _ => rfl
      exact used_of_le hused (Nat.le_of_eq huser) (Nat.le_of_eq hown.symm)
  | importFails | bare | addConsumer => exact hused

theorem live_modify {f : GpuFrameHandle → GpuFrameHandle} {m : Nat} {h : GpuFrameHandle}
    (hm : a.handles[m]? = some h) :
    (a.modify m f).live + (decide (h.references ≠ 0)).toNat = a.live + (decide ((f h).references ≠ 0)).toNat :=
  countP_modify hm

theorem same_leases {b : Frame C} (hleases : b.core.externalLeases = a.core.externalLeases) (hbare : b.bare = a.bare)
    (hlive : b.live = a.live) (w : Nat) :
    b.core.externalLeases + a.bare + a.live + w = a.core.externalLeases + b.bare + b.live + w := by
  rw [hleases, hbare, hlive]

theorem finish_leases {b : Frame C} {handle : Option Nat} {reply : Option Reply}
    (hleases : b.core.externalLeases = a.core.externalLeases) (hbare : b.bare = a.bare) (hlive : b.live = a.live) :
    (finish b handle reply).shared.core.externalLeases + a.bare + a.live + 0 =
      a.core.externalLeases + (finish b handle reply).shared.bare + (finish b handle reply).shared.live + 0 := by
  rw [finish_shared, leave_core, leave_bare, leave_live, hleases, hbare, hlive]

/-- Every lease is with a handle that has references, with a component, or with a call. -/
theorem Move.leases (h : Move a pc e o) (hlife : o.shared.life = .unborn ∨ o.shared.life = .alive)
    (hunborn : a.life = .unborn → a.core.externalLeases = 0) (hdestroys : ∀ rest reply,
      pc = .destroyWait rest reply → a.life = .dying)
    (hacquire : ∀ who, pc = .acquire who → a.core.externalLeases + 1 < 2 ^ 32)
    (hlease : pc.leases ≤ a.core.externalLeases) (hshare : ∀ m, pc.refs m ≤ a.references m)
    (hadd : ∀ m, pc = .addReference m → a.references m ≠ 0 ∧ a.references m + 1 < 2 ^ 32) :
    o.shared.core.externalLeases + a.bare + a.live + pc.leases =
      a.core.externalLeases + o.shared.bare + o.shared.live + o.pc.leases := by
  cases h with
  | @use m =>
      have hlive : (a.modify m .use).live = a.live := live_modify_same fun _ => rfl
      exact same_leases (a := a) (b := (a.modify m .use).enter) rfl rfl hlive 0
  | @release m =>
      have hlive : (a.modify m .disown).live = a.live := live_modify_same fun _ => rfl
      exact same_leases (a := a) (b := (a.modify m .disown).enter) rfl rfl hlive 0
  | library hpc => rcases hpc with rfl | rfl | ⟨c, rfl⟩ | rfl <;> exact same_leases rfl rfl rfl 0
  | goOn hn hvalid hpc => rcases hpc with rfl | rfl | ⟨t, rfl⟩ | rfl <;> exact same_leases rfl rfl rfl 0
  | asked hpc => rcases hpc with rfl | ⟨t, rfl⟩ <;> exact same_leases rfl rfl rfl 0
  | releaseBare hbare =>
      simp only [Frame.enter, Pc.leases, Frame.live]
      omega
  | imported hcore hl =>
      simp only [Pc.leases, Frame.live, (importExternal_ok hcore).2.1, hunborn hl]
  | @acquireThrows who =>
      obtain ⟨-, -, hlive, -, -, hpc⟩ := proceed_counts a (.rethrow who (some GpuFrameCore.recycledError)) 0
      rw [proceed] at hlive hpc
      rw [hpc]
      exact same_leases (congrArg _ (rethrow_core ..)) (proceed_bare a (.rethrow who _)) hlive 0
  | bare =>
      simp only [finish_shared, leave_core, leave_bare, leave_live, finish_pc, Pc.leases, u32_of_lt (hacquire _ rfl)]
      simp only [Frame.live]
      omega
  | acquired =>
      simp only [Pc.leases, Frame.live, u32_of_lt (hacquire _ rfl)]
      omega
  | wrapped =>
      have hlive := live_append (a := a) (newHandle a 1) (by simp [newHandle])
      simp only [finish_shared, leave_core, leave_bare, leave_live, finish_pc, Pc.leases]
      omega
  | wrappedImport =>
      have hlive := live_append (a := a) (newHandle a 0) (by simp [newHandle])
      simp only [Pc.leases]
      omega
  | @accept m =>
      have hlive : (a.modify m .own).live = a.live := live_modify_same fun _ => rfl
      exact finish_leases rfl rfl hlive
  | @addReference m =>
      obtain ⟨hne, hsmall⟩ := hadd m rfl
      obtain ⟨h, hm, hrefs⟩ := exists_of_at hne
      rw [Frame.references, hrefs] at hne hsmall
      have hlive : (a.modify m .addReference).live = a.live := by
        have hcount := live_modify (f := .addReference) hm
        simp only [GpuFrameHandle.addReference, u32_of_lt hsmall] at hcount
        simpa [hne] using hcount
      exact finish_leases rfl rfl hlive
  | @dropReference m h hm hone =>
      have hne : h.references ≠ 0 := by
        have := hshare m
        simp only [Pc.refs, ↓reduceIte, Frame.references, at_eq hm] at this
        omega
      have hlive : (a.modify m .dropReference).live = a.live := by
        have hcount := live_modify (f := .dropReference) hm
        simp only [GpuFrameHandle.dropReference, if_neg hne] at hcount
        have hpred : h.references - 1 ≠ 0 := by omega
        simpa [hne, hpred] using hcount
      exact finish_leases rfl rfl hlive
  | @dropLast m h hm hone =>
      have hcount := live_modify (f := .dropReference) hm
      simp only [GpuFrameHandle.dropReference, hone, Nat.one_ne_zero, ↓reduceIte, ne_eq, not_false_eq_true,
        decide_true, Nat.sub_self, not_true_eq_false, decide_false, Bool.toNat_true, Bool.toNat_false,
        Nat.add_zero] at hcount
      have hcore : (a.modify m .dropReference).core = a.core := rfl
      have hbare : (a.modify m .dropReference).bare = a.bare := rfl
      simp only [Pc.leases, hcore, hbare]
      omega
  | @settle pc core next hrec =>
      obtain ⟨-, -, hlive, -, -, hpc⟩ := proceed_counts { a with core := core } next 0
      rw [hpc, proceed_core, proceed_bare, hlive]
      cases hrec with
      | poll => rfl
      | release =>
          simp only [Pc.leases] at hlease
          simp only [Pc.leases, if_pos (Nat.pos_iff_ne_zero.mp hlease), Frame.live]
          omega
      | @destroy reply =>
          rw [hdestroys _ _ rfl] at *
          cases reply <;> simp [proceed] at hlife
  | @recycle pc core next hrec =>
      cases hrec with
      | poll => rfl
      | release =>
          simp only [Pc.leases] at hlease
          simp only [Pc.leases, if_pos (Nat.pos_iff_ne_zero.mp hlease), Frame.live]
          omega
      | destroy =>
          have := hdestroys _ _ rfl
          simp [this] at hlife
  | @callback generation next =>
      obtain ⟨-, -, hlive, -, -, hpc⟩ := proceed_counts { a with
        recycles := a.recycles ++ [generation]
        releases := if a.accepted then a.releases + 1 else a.releases } next 0
      rw [Gpu.callback, hpc]
      exact same_leases (congrArg _ (proceed_core ..)) (proceed_bare ..) hlive 0
  | @delete m =>
      have hlive : (a.modify m .delete).live = a.live := live_modify_same fun _ => rfl
      exact finish_leases rfl rfl hlive
  | @dropRecycled reply =>
      cases reply <;> simp [proceed] at hlife
  | @addConsumer c =>
      have hleases : (a.core.addConsumer c).2.externalLeases = a.core.externalLeases := by
        unfold GpuFrameCore.addConsumer
        split
        · rfl
        · split <;> rfl
      exact finish_leases hleases rfl rfl
  | rejected | replied | native | core | importFails => exact finish_leases rfl rfl rfl
  | _ => rfl

/-! ## Deletion -/

/-- A handle without references stays without, and no handle is forgotten. -/
theorem Move.unreferenced (h : Move a pc e o) (hlt : n < a.handles.length) (hzero : a.references n = 0)
    (hshare : ∀ m, pc.refs m ≤ a.references m) (hadd : ∀ m, pc = .addReference m → a.references m ≠ 0) :
    n < o.shared.handles.length ∧ o.shared.references n = 0 := by
  have hmodify {m : Nat} {f : GpuFrameHandle → GpuFrameHandle} : n < (a.modify m f).handles.length := by
    simpa [Frame.modify] using hlt
  have hleave {b : Frame C} (handle : Option Nat) (hb : n < b.handles.length) :
      n < (b.leave handle).handles.length := by
    cases handle with
    | none => exact hb
    | some m => simpa [Frame.leave, Frame.modify] using hb
  have hproceed {b : Frame C} (next : Next) (hb : n < b.handles.length) :
      n < (proceed b next).shared.handles.length := by
    cases next with
    | finish handle reply => exact hleave handle hb
    | delete handle => exact hb
    | rethrow who what =>
        rcases rethrow_cases b who what with ⟨heq, -⟩ | heq
        · rw [proceed, heq]
          exact hb
        · rw [proceed, heq]
          exact hb
    | destroyed reply => cases reply <;> exact hb
  cases h with
  | @use m =>
      have hsame : (a.modify m .use).references n = a.references n := at_modify_same fun _ => rfl
      exact ⟨hmodify, hsame.trans hzero⟩
  | @release m =>
      have hsame : (a.modify m .disown).references n = a.references n := at_modify_same fun _ => rfl
      exact ⟨hmodify, hsame.trans hzero⟩
  | acquireThrows => exact ⟨hproceed (.rethrow _ _) hlt, (proceed_counts a (.rethrow _ _) n).1.trans hzero⟩
  | settle => exact ⟨hproceed _ hlt, (proceed_counts _ _ n).1.trans hzero⟩
  | callback => exact ⟨hproceed _ hlt, (proceed_counts _ _ n).1.trans hzero⟩
  | @dropRecycled reply => cases reply <;> exact ⟨hlt, hzero⟩
  | wrapped =>
      refine ⟨?_, ?_⟩
      · simp only [finish_shared, Frame.leave, List.length_append]
        omega
      · have href : ({ a with handles := a.handles ++ [newHandle a 1] } : Frame C).references n =
            if n = a.handles.length then 1 else a.references n := at_append _
        rw [finish_shared, leave_references, href, if_neg (Nat.ne_of_lt hlt)]
        exact hzero
  | wrappedImport =>
      refine ⟨?_, ?_⟩
      · simp only [List.length_append]
        omega
      · have href : ({ a with handles := a.handles ++ [newHandle a 0] } : Frame C).references n =
            if n = a.handles.length then 1 else a.references n := at_append _
        rw [href, if_neg (Nat.ne_of_lt hlt)]
        exact hzero
  | @accept m =>
      have hsame : (a.modify m .own).references n = a.references n := at_modify_same fun _ => rfl
      exact ⟨hmodify, hsame.trans hzero⟩
  | rejected | replied | native => exact ⟨hleave _ hlt, (leave_references ..).trans hzero⟩
  | core => exact ⟨hleave _ hlt, (leave_references { a with holders := a.holders + 1 } _ n).trans hzero⟩
  | @addReference m =>
      have hmn : m ≠ n := by
        rintro rfl
        exact hadd m rfl hzero
      refine ⟨hleave _ hmodify, (leave_references ..).trans ?_⟩
      exact (at_modify_ne hmn).trans hzero
  | @dropReference m =>
      have hmn : m ≠ n := by
        rintro rfl
        have := hshare m
        simp [Pc.refs, hzero] at this
      exact ⟨hmodify, (at_modify_ne hmn).trans hzero⟩
  | @dropLast m =>
      have hmn : m ≠ n := by
        rintro rfl
        have := hshare m
        simp [Pc.refs, hzero] at this
      exact ⟨hmodify, (at_modify_ne hmn).trans hzero⟩
  | @delete m =>
      have hsame : (a.modify m .delete).references n = a.references n := at_modify_same fun _ => rfl
      exact ⟨hmodify, hsame.trans hzero⟩
  | _ => exact ⟨hlt, hzero⟩

def Next.deletes (n : Nat) : Next → Prop
  | .delete m => m = n
  | _ => False

/-- The call is going to delete the handle, whose last reference it has dropped. -/
def Pc.deletes (n : Nat) : Pc C → Prop
  | .poll next | .releaseExternal next | .callback _ next => next.deletes n
  | .delete m => m = n
  | _ => False

theorem proceed_deletes {b : Frame C} {next : Next} (h : (proceed b next).pc.deletes n) : next.deletes n := by
  cases next with
  | finish handle reply => cases h
  | delete handle => exact h
  | rethrow who what => cases who <;> cases h
  | destroyed reply => cases reply <;> cases h

theorem Recycles.deletes {core : GpuFrameCore C} {next : Next} (h : Recycles a pc core next)
    (hnext : next.deletes n) : pc.deletes n := by
  cases h with
  | poll => exact hnext
  | release => exact hnext
  | destroy => cases hnext

/-- Only the call that has dropped the last reference goes on to delete the handle. -/
theorem Move.deletes (h : Move a pc e o) (hdel : o.pc.deletes n) :
    pc.deletes n ∨ n < o.shared.handles.length ∧ o.shared.references n = 0 := by
  cases h with
  | library hpc => rcases hpc with rfl | rfl | ⟨c, rfl⟩ | rfl <;> cases hdel
  | goOn hn hvalid hpc => rcases hpc with rfl | rfl | ⟨t, rfl⟩ | rfl <;> cases hdel
  | @acquireThrows who => cases who <;> cases hdel
  | settle hrec => exact .inl (hrec.deletes (proceed_deletes hdel))
  | recycle hrec => exact .inl (hrec.deletes hdel)
  | callback => exact .inl (proceed_deletes hdel)
  | @dropRecycled reply => cases reply <;> cases hdel
  | @dropLast m h hm hone =>
      obtain rfl : m = n := hdel
      refine .inr ⟨?_, ?_⟩
      · simpa [Frame.modify] using (List.getElem?_eq_some_iff.mp hm).1
      · have href : (a.modify m .dropReference).references m = h.dropReference.references := at_modify_self hm
        rw [href]
        simp [GpuFrameHandle.dropReference, hone]
  | asked => cases hdel
  | _ => cases hdel

abbrev Frame.deleted (a : Frame C) (n : Nat) : Nat := a.at (fun h => h.deleted.toNat) n

theorem leave_deleted (b : Frame C) (handle : Option Nat) : (b.leave handle).deleted n = b.deleted n := by
  cases handle with
  | none => rfl
  | some m => exact at_modify_same fun _ => rfl

theorem proceed_deleted (b : Frame C) (next : Next) : (proceed b next).shared.deleted n = b.deleted n := by
  cases next with
  | finish handle reply => exact leave_deleted b handle
  | delete handle => rfl
  | rethrow who what =>
      rcases rethrow_cases b who what with ⟨heq, -⟩ | heq
      · rw [proceed, heq]
      · rw [proceed, heq]
        exact leave_deleted b none
  | destroyed reply => cases reply <;> rfl

theorem Move.deleted_eq (h : Move a pc e o) : o.shared.deleted n = a.deleted n ∨ pc = .delete n := by
  cases h with
  | @delete m =>
      by_cases hmn : m = n
      · exact .inr (congrArg _ hmn)
      · have hother : (a.modify m .delete).deleted n = a.deleted n := at_modify_ne hmn
        exact .inl ((leave_deleted _ none).trans hother)
  | @use m =>
      have hsame : (a.modify m .use).deleted n = a.deleted n := at_modify_same fun _ => rfl
      exact .inl hsame
  | @release m =>
      have hsame : (a.modify m .disown).deleted n = a.deleted n := at_modify_same fun _ => rfl
      exact .inl hsame
  | @accept m =>
      have hsame : (a.modify m .own).deleted n = a.deleted n := at_modify_same fun _ => rfl
      exact .inl hsame
  | @addReference m =>
      have hsame : (a.modify m .addReference).deleted n = a.deleted n := at_modify_same fun _ => rfl
      exact .inl ((leave_deleted _ (some m)).trans hsame)
  | @dropReference m =>
      have hsame : (a.modify m .dropReference).deleted n = a.deleted n := at_modify_same fun _ => rfl
      exact .inl hsame
  | @dropLast m =>
      have hsame : (a.modify m .dropReference).deleted n = a.deleted n := at_modify_same fun _ => rfl
      exact .inl hsame
  | wrapped | wrappedImport => exact .inl (at_append_zero rfl)
  | acquireThrows => exact .inl (proceed_deleted a (.rethrow _ _))
  | settle | callback | dropRecycled => exact .inl (proceed_deleted _ _)
  | rejected | replied | native => exact .inl (leave_deleted a _)
  | core => exact .inl (leave_deleted { a with holders := a.holders + 1 } _)
  | _ => exact .inl rfl

/-- A deleted handle has no references. -/
theorem Move.deleted (h : Move a pc e o) (hdel : a.deleted n ≠ 0 → a.references n = 0)
    (hdeletes : ∀ m, pc.deletes m → m < a.handles.length ∧ a.references m = 0)
    (hshare : ∀ m, pc.refs m ≤ a.references m) (hadd : ∀ m, pc = .addReference m → a.references m ≠ 0) :
    o.shared.deleted n ≠ 0 → o.shared.references n = 0 := by
  intro hn
  rcases h.deleted_eq (n := n) with heq | rfl
  · rw [heq] at hn
    obtain ⟨hh, hm, -⟩ := exists_of_at hn
    exact (h.unreferenced (List.getElem?_eq_some_iff.mp hm).1 (hdel hn) hshare hadd).2
  · obtain ⟨hlt, hzero⟩ := hdeletes n rfl
    exact (h.unreferenced hlt hzero hshare hadd).2

end

end MkvCodec.Gpu
