import MkvCodec.Gpu.Lemmas.Dlpack

/-!
# Leases of DLPack exports

An export that fails leaves the reference count of its frame as it was, one that succeeds adds one reference until
the deleter of its tensor has run, and it succeeds only behind the producer or with a dependency on it.
-/

namespace MkvCodec.Gpu.Dlpack

open Concurrency

variable {C ι : Type*}

/-! ## Sections -/

section

variable [Fintype ι] [DecidableEq ι] {nvidia : Bool} {x : Exports C} {ts : ι → Exporter C} {i : ι} {o : Act C}

theorem advance_effect {t : Exporter C} {k n : Nat} {account : Account} {answer : Answer}
    (haccount : x.accounts[k]? = some account) (hframe : account.request.frame = some n) (htask : t.task = some k)
    (hwork : t.Engaged x.frame.core.native account n) (hdependent : account.Dependent x.frame.core.native)
    (ho : advance nvidia answer x t k = some o) : ∃ account', Effect x t.pc k n account account' o := by
  simp only [advance, haccount, hframe] at ho
  split at ho
  · rename_i hm hidle
    cases hm
    exact adapterStep_effect hframe htask hidle hwork hdependent ho
  · rename_i m timeoutMs hm hpc
    cases hm
    cases answer with
    | throws =>
        cases ho
        unfold Exporter.Engaged at hwork
        rw [hpc] at hwork
        obtain ⟨hmn, hleases⟩ := hwork.waits
        rw [hmn] at hpc
        have hsame (m : Nat) : (x.frame.leave (some n)).references m = x.frame.references m := leave_references ..
        refine ⟨_, ⟨Account.turn (.unwind none) ∘ Account.charge x.frame _, List.modify_modify_eq .., rfl⟩, rfl,
          .leave hpc, ?_, ?_, fun m _ => hsame m, ?_, .inl ⟨htask, ?_⟩⟩
        all_goals rw [Function.comp, charge_eq _ hframe]
        · rfl
        · rfl
        · exact hdependent
        · simp only [Exporter.Engaged, Account.turn, goTo, hsame n, Int.sub_self, Int.add_zero, hleases]
          exact .unwind
    | _ => cases ho
  · cases ho

/-- The application, or a library component, uses the frame. -/
theorem Sound.free {e : Choice C} {s : Section C} (h : Sound x ts) (htask : (ts i).task = none)
    (hs : clientSection e x.frame (ts i).pc = some s)
    (hadd : ∀ n, (ts i).pc = .addReference n → x.frame.references n + 1 < 2 ^ 32) :
    Sound (x.record none s.shared) (Function.update ts i ((ts i).after s)) := by
  have hmove := clientSection_move hs
  have hnative := hmove.same_native h.born
  have htasks (j : ι) : (Function.update ts i ((ts i).after s) j).task = (ts j).task := by
    by_cases hj : j = i
    · subst hj
      rw [Function.update_self]
      rfl
    · rw [Function.update_of_ne hj]
  refine ⟨books_update (h.books.move hmove hadd), hmove.stays_born h.born, fun n => ?_, fun j k hj => ?_,
    fun j j' k hj hj' => ?_, fun k account hk hrest => ?_, fun k account hk => ?_⟩
  · have hold := h.total n
    have hothers : (x.record none s.shared).others n =
        x.others n + ((s.shared.references n : Int) - x.frame.references n) := rfl
    have hleased : (x.record none s.shared).leased n = x.leased n := rfl
    have hframe : (x.record none s.shared).frame = s.shared := rfl
    rw [hothers, hleased, hframe]
    omega
  · have hji : j ≠ i := by
      rintro rfl
      rw [htasks, htask] at hj
      cases hj
    rw [htasks] at hj
    rw [Function.update_of_ne hji]
    obtain ⟨account, n, haccount, hframe, hwork⟩ := h.tasks j k hj
    refine ⟨account, n, haccount, hframe, ?_⟩
    exact hnative ▸ hwork
  · rw [htasks] at hj hj'
    exact h.alone j j' k hj hj'
  · exact h.resting k account hk fun j hj => hrest j ((htasks j).trans hj)
  · exact hnative ▸ h.dependent k account hk

/-- A new export, which a thread works for or which has been refused. -/
theorem Sound.append (h : Sound x ts) {account : Account} {t : Exporter C} (hleases : account.leases = 0)
    (hregistered : account.registered = none) (hpc : t.pc = (ts i).pc)
    (ht : t = ts i ∧ account.Resting ∨ (ts i).task = none ∧ t.task = some x.accounts.length ∧
      ∃ n, account.request.frame = some n ∧ t.Engaged x.frame.core.native account n) :
    Sound { x with accounts := x.accounts ++ [account] } (Function.update ts i t) := by
  have hbooks : Books x.frame (Function.update (fun j => (ts j).pc) i t.pc) := by
    rw [hpc, Function.update_eq_self]
    exact h.books
  have hlt {j : ι} {k : Nat} (hj : (ts j).task = some k) : k < x.accounts.length := by
    obtain ⟨account, -, haccount, -⟩ := h.tasks j k hj
    exact (List.getElem?_eq_some_iff.mp haccount).1
  have hold {j : ι} {k : Nat} (hj : (Function.update ts i t j).task = some k) (hk : k ≠ x.accounts.length) :
      (ts j).task = some k := by
    by_cases hji : j = i
    · subst hji
      rw [Function.update_self] at hj
      rcases ht with ⟨rfl, -⟩ | ⟨-, htask, -⟩
      · exact hj
      · rw [htask] at hj
        exact absurd (Option.some.inj hj).symm hk
    · rwa [Function.update_of_ne hji] at hj
  have hnew {j : ι} (hj : (Function.update ts i t j).task = some x.accounts.length) : j = i := by
    by_contra hji
    rw [Function.update_of_ne hji] at hj
    exact absurd (hlt hj) (Nat.lt_irrefl _)
  refine ⟨books_update hbooks, h.born, fun n => ?_, fun j k hj => ?_, fun j j' k hj hj' => ?_,
    fun k other hk hrest => ?_, fun k other hk => ?_⟩
  · have hzero : account.on n = 0 := by
      unfold Account.on
      rw [hleases, ite_self]
    have := h.total n
    simp only [Exports.leased, List.map_append, List.sum_append, List.map_cons, List.map_nil, List.sum_cons,
      List.sum_nil, hzero] at this ⊢
    omega
  · by_cases hk : k = x.accounts.length
    · subst hk
      obtain rfl := hnew hj
      rw [Function.update_self] at hj ⊢
      rcases ht with ⟨rfl, -⟩ | ⟨-, -, n, hframe, hwork⟩
      · exact absurd (hlt hj) (Nat.lt_irrefl _)
      · exact ⟨account, n, by simp, hframe, hwork⟩
    · obtain ⟨other, n, hother, hframe, hwork⟩ := h.tasks j k (hold hj hk)
      refine ⟨other, n, ?_, hframe, ?_⟩
      · rw [List.getElem?_append_left (hlt (hold hj hk)), hother]
      · by_cases hji : j = i
        · subst hji
          rw [Function.update_self] at hj ⊢
          rcases ht with ⟨rfl, -⟩ | ⟨-, htask, -⟩
          · exact hwork
          · rw [htask] at hj
            exact absurd (Option.some.inj hj).symm hk
        · rwa [Function.update_of_ne hji]
  · by_cases hk : k = x.accounts.length
    · subst hk
      rw [hnew hj, hnew hj']
    · exact h.alone j j' k (hold hj hk) (hold hj' hk)
  · by_cases hlen : k < x.accounts.length
    · rw [List.getElem?_append_left hlen] at hk
      refine h.resting k other hk fun j hj => ?_
      by_cases hji : j = i
      · subst hji
        rcases ht with ⟨rfl, -⟩ | ⟨hnone, -⟩
        · exact hrest j (by rw [Function.update_self]; exact hj)
        · rw [hnone] at hj
          cases hj
      · exact hrest j (by rw [Function.update_of_ne hji]; exact hj)
    · have hk' : k = x.accounts.length := by
        have := (List.getElem?_eq_some_iff.mp hk).1
        simp only [List.length_append, List.length_singleton] at this
        omega
      subst hk'
      rcases ht with ⟨-, hresting⟩ | ⟨-, htask, -⟩
      · simp only [List.getElem?_append_right (Nat.le_refl _), Nat.sub_self, List.getElem?_cons_zero,
          Option.some.injEq] at hk
        exact hk ▸ hresting
      · exact absurd htask (by simpa using hrest i)
  · by_cases hlen : k < x.accounts.length
    · rw [List.getElem?_append_left hlen] at hk
      exact h.dependent k other hk
    · rw [List.getElem?_append_right (Nat.not_lt.mp hlen)] at hk
      obtain rfl := List.mem_singleton.mp (List.mem_of_getElem? hk)
      intro d hd
      rw [hregistered] at hd
      cases hd

theorem Account.Resting.settled {account : Account} (h : account.Resting) : account.stage.settled = true := by
  unfold Account.Resting at h
  cases hstage : account.stage with
  | failed result | exported tensor | deleted => rfl
  | _ =>
      rw [hstage] at h
      exact h.elim

omit [DecidableEq ι] in
theorem Sound.unattended (h : Sound x ts) {k : Nat} {account : Account} (haccount : x.accounts[k]? = some account)
    (hsettled : account.stage.settled = true) (j : ι) : (ts j).task ≠ some k := by
  intro hj
  obtain ⟨other, n, hother, -, hwork⟩ := h.tasks j k hj
  rw [haccount] at hother
  cases hother
  have hunsettled := Working.unsettled hwork
  rw [hsettled] at hunsettled
  cases hunsettled

/-- The sections of a thread by the account that they are for. -/
inductive Kind (x : Exports C) (t : Exporter C) (e : ExportChoice C) (o : Act C) : Prop
  | free {choice : Choice C} {s : Section C} (htask : t.task = none) (hs : clientSection choice x.frame t.pc = some s)
      (ho : o = (x.record none s.shared, t.after s))
  | refused {request : Request} {result : Option Status} (htask : t.task = none)
      (ho : o = ({ x with accounts := x.accounts ++ [⟨request, .failed result, 0, false, none⟩] }, t))
  | begun {request : Request} {n : Nat} (htask : t.task = none) (hidle : t.pc = .idle)
      (hframe : request.frame = some n)
      (ho : callAbi { x with accounts := x.accounts ++ [⟨request, .getDesc, 0, false, none⟩] }
        { t with task := some x.accounts.length } x.accounts.length .getDesc (.handle n (.getDesc true)) = some o)
  | work {k n : Nat} {account account' : Account} (htask : t.task = some k)
      (haccount : x.accounts[k]? = some account) (hframe : account.request.frame = some n)
      (ho : Effect x t.pc k n account account' o)
  | deleter {k n : Nat} {account account' : Account} {tensor : DLTensor} (htask : t.task = none)
      (he : e = .deleter k) (haccount : x.accounts[k]? = some account) (hframe : account.request.frame = some n)
      (hstage : account.stage = .exported tensor) (hidle : t.pc = .idle) (ho : Effect x t.pc k n account account' o)

omit [DecidableEq ι] in
theorem Sound.kind {e : ExportChoice C} (h : Sound x ts) (ho : exporterSection nvidia e x (ts i) = some o)
    (hadd : ∀ n, (ts i).pc = .addReference n → x.frame.references n + 1 < 2 ^ 32) : Kind x (ts i) e o := by
  unfold exporterSection at ho
  split at ho
  · rename_i htask
    split at ho
    · rename_i choice pc
      split at ho
      · obtain ⟨s, hs, rfl⟩ := Option.map_eq_some_iff.mp ho
        exact .free htask hs rfl
      · cases ho
    · rename_i request answer hidle
      unfold begin at ho
      split at ho
      · cases ho
        exact .refused htask rfl
      · split at ho
        · cases ho
        · exact .begun htask hidle ‹_› ho
    · rename_i k hidle
      unfold deleteManaged at ho
      split at ho
      · cases ho
      · rename_i account haccount
        split at ho
        · rename_i tensor n hstage hframe
          have hresting := h.resting k account haccount (h.unattended haccount (by rw [hstage]; rfl))
          have hleases : account.leases = 1 := by
            unfold Account.Resting at hresting
            rw [hstage] at hresting
            exact hresting.1
          obtain ⟨account', heffect⟩ := callAbi_effect hframe (t := { ts i with task := some k }) rfl hidle
            (h.dependent k account haccount) ho fun s hs => by
              obtain ⟨hpc, hreply⟩ := start_release hs
              rw [hpc, hleases]
              exact .drop rfl
          exact .deleter htask rfl haccount hframe hstage hidle heffect
        · cases ho
    · cases ho
  · rename_i k htask
    obtain ⟨account, n, haccount, hframe, hwork⟩ := h.tasks i k htask
    have hdependent := h.dependent k account haccount
    split at ho
    · obtain ⟨s, hs, rfl⟩ := Option.map_eq_some_iff.mp ho
      refine .work htask haccount hframe (section_effect hframe htask hwork hdependent hs (fun hpc => ?_) fun hpc => ?_)
      · exact ⟨h.books.referenced (i := i) (by simp [hpc, Pc.uses]), hadd n hpc⟩
      · have hshare := h.books.share (i := i) n
        simp only [hpc, Pc.refs, ↓reduceIte] at hshare
        omega
    · obtain ⟨account', heffect⟩ := advance_effect haccount hframe htask hwork hdependent ho
      exact .work htask haccount hframe heffect
    · cases ho

theorem Sound.step {e : ExportChoice C} (h : Sound x ts) (ho : exporterSection nvidia e x (ts i) = some o)
    (hadd : ∀ n, (ts i).pc = .addReference n → x.frame.references n + 1 < 2 ^ 32) :
    Sound o.1 (Function.update ts i o.2) := by
  cases h.kind ho hadd with
  | free htask hs heq =>
      rw [heq]
      exact h.free htask hs hadd
  | refused htask heq =>
      rw [heq]
      exact h.append rfl rfl rfl (.inl ⟨rfl, rfl⟩)
  | @begun request n htask hidle hframe hcall =>
      have hnew : Sound { x with accounts := x.accounts ++ [⟨request, .getDesc, 0, false, none⟩] }
          (Function.update ts i { ts i with task := some x.accounts.length }) := by
        refine h.append rfl rfl rfl (.inr ⟨htask, rfl, n, hframe, ?_⟩)
        simp only [Exporter.Engaged, hidle]
        exact .desc
      have hself : (x.accounts ++ [⟨request, .getDesc, 0, false, none⟩])[x.accounts.length]? =
          some ⟨request, .getDesc, 0, false, none⟩ := by simp
      have hthread : Function.update ts i { ts i with task := some x.accounts.length } i =
          { ts i with task := some x.accounts.length } := Function.update_self ..
      rw [← hthread] at hcall
      obtain ⟨account', heffect⟩ := callAbi_effect hframe (by rw [hthread]) (by rw [hthread, hidle])
        (hnew.dependent _ _ hself) hcall fun s hs => by
          obtain ⟨hpc, hreply⟩ := start_handle hs
          rw [hpc, hreply]
          exact .descCheck
      have hsound := hnew.effect hself hframe (fun j hj hk => hj (hnew.alone j i _ hk (by rw [hthread])))
        (.inr (by rw [hthread])) (fun m hpc => by simp [hidle] at hpc) heffect
      rwa [Function.update_idem] at hsound
  | work htask haccount hframe heffect =>
      exact h.effect haccount hframe (fun j hj hk => hj (h.alone j i _ hk htask)) (.inr htask) hadd heffect
  | deleter htask he haccount hframe hstage hidle heffect =>
      exact h.effect haccount hframe (fun j _ => h.unattended haccount (by rw [hstage]; rfl) j) (.inl htask) hadd heffect

omit [Fintype ι] [DecidableEq ι] in
/-- A section leaves an account alone that its thread does not work for and that it does not take from the consumer
of a tensor. -/
theorem Kind.keeps {t : Exporter C} {e : ExportChoice C} {k : Nat} {account : Account} (h : Kind x t e o)
    (haccount : x.accounts[k]? = some account) (htask : t.task ≠ some k)
    (hdeleter : e = .deleter k → ∀ tensor, account.stage ≠ .exported tensor) : o.1.accounts[k]? = some account := by
  have hlt : k < x.accounts.length := (List.getElem?_eq_some_iff.mp haccount).1
  cases h with
  | free _ _ heq =>
      rw [heq]
      exact haccount
  | refused _ heq =>
      rw [heq]
      exact (List.getElem?_append_left hlt).trans haccount
  | begun _ _ _ hcall =>
      obtain ⟨s, -, rfl⟩ := Option.map_eq_some_iff.mp hcall
      have hne : x.accounts.length ≠ k := Nat.ne_of_gt hlt
      simp only [Exports.turn, Exports.record]
      rw [getElem?_modify_of_ne hne, getElem?_modify_of_ne hne, List.getElem?_append_left hlt]
      exact haccount
  | @work k' _ _ _ hwork _ _ heffect =>
      obtain ⟨f, haccounts, -⟩ := heffect.accounts
      have hne : k' ≠ k := by
        rintro rfl
        exact htask hwork
      rw [haccounts, getElem?_modify_of_ne hne, haccount]
  | @deleter k' _ other _ tensor _ he hother _ hstage _ heffect =>
      obtain ⟨f, haccounts, -⟩ := heffect.accounts
      have hne : k' ≠ k := by
        rintro rfl
        rw [haccount] at hother
        cases hother
        exact hdeleter he tensor hstage
      rw [haccounts, getElem?_modify_of_ne hne, haccount]

end

/-! ## Runs -/

section

variable [Fintype ι] [DecidableEq ι] [DecidableEq C] {nvidia : Bool} {s₀ s t : ExportState C ι}
  {ls ls' : List (ExportLabel C ι)}

/-- No reference count wraps. -/
def Unwrapped (s : ExportState C ι) : ExportLabel C ι → Prop
  | .client i _ =>
      match (s.client i).pc with
      | .addReference n => s.shared.frame.references n + 1 < 2 ^ 32
      | _ => True
  | _ => True

omit [Fintype ι] [DecidableEq ι] [DecidableEq C] in
theorem Unwrapped.add {i : ι} {e : ExportChoice C} (h : Unwrapped s (.client i e)) (n : Nat)
    (hpc : (s.client i).pc = .addReference n) : s.shared.frame.references n + 1 < 2 ^ 32 := by
  simpa only [Unwrapped, hpc] using h

omit [DecidableEq ι] [DecidableEq C] in
theorem Quiet.sound (h : Quiet s) : Sound s.shared s.client := by
  refine ⟨⟨fun n => ?_, fun n => ?_, fun n hn => absurd (h.users n) hn⟩, h.born, fun n => ?_, fun i k hk => ?_,
    fun i j k hk => ?_, fun k account hk => ?_, fun k account hk => ?_⟩
  · simp [(h.idle _).1, Pc.refs, h.references n]
  · simp [(h.idle _).1, Pc.uses, h.users n]
  · simp [Exports.leased, h.accounts, h.others n]
  · rw [(h.idle i).2] at hk
    cases hk
  · rw [(h.idle i).2] at hk
    cases hk
  · simp [h.accounts] at hk
  · simp [h.accounts] at hk

theorem Sound.next {l : ExportLabel C ι} (h : Sound s.shared s.client) (hst : Step nvidia s l t)
    (hl : Unwrapped s l) : Sound t.shared t.client := by
  cases l with
  | worker e =>
      obtain ⟨-, o, ho, rfl⟩ := hst.worker_inv
      cases e with
      | signal c state =>
          cases ho
          obtain ⟨hbooks, hborn, htotal, htasks, halone, hresting, hdependent⟩ := h
          exact ⟨⟨hbooks.refs, hbooks.users, hbooks.used⟩, hborn, htotal, htasks, halone, hresting, hdependent⟩
      | _ => cases ho
  | client i e =>
      obtain ⟨-, o, ho, rfl⟩ := hst.client_inv
      obtain ⟨act, hact, rfl⟩ := Option.map_eq_some_iff.mp ho
      exact h.step hact hl.add
  | wakeWorker => rw [hst.wakeWorker_inv]; exact h
  | wake i => rw [hst.wake_inv]; exact h

theorem run_sound (h : Run (Restrict (Step nvidia) Unwrapped) s ls t) (hs : Sound s.shared s.client) :
    Sound t.shared t.client :=
  h.invariant (I := fun s => Sound s.shared s.client) hs fun hs hst => hs.next hst.1 hst.2

/-- An export that has failed, a tensor that nobody deletes, and one that has been deleted stay what they are. -/
theorem Sound.stays (h : Sound s.shared s.client) {k : Nat} {account : Account}
    (haccount : s.shared.accounts[k]? = some account) (hsettled : account.stage.settled = true)
    (hrun : Run (Restrict (Step nvidia) Unwrapped) s ls t)
    (hdeleter : ∀ tensor, account.stage = .exported tensor → ∀ i, .client i (.deleter k) ∉ ls) :
    t.shared.accounts[k]? = some account := by
  induction hrun with
  | nil => exact haccount
  | @snoc ls u l v hrun hst ih =>
      have hkept := ih fun tensor hstage i hmem => hdeleter tensor hstage i (List.mem_append_left _ hmem)
      have hsound := run_sound hrun h
      obtain ⟨hst, hl⟩ := hst
      cases l with
      | worker e =>
          obtain ⟨-, o, ho, rfl⟩ := hst.worker_inv
          cases e with
          | signal c state => cases ho; exact hkept
          | _ => cases ho
      | client i e =>
          obtain ⟨-, o, ho, rfl⟩ := hst.client_inv
          obtain ⟨act, hact, rfl⟩ := Option.map_eq_some_iff.mp ho
          refine (hsound.kind hact hl.add).keeps hkept (hsound.unattended hkept hsettled i) ?_
          rintro rfl tensor hstage
          exact hdeleter tensor hstage i (by simp)
      | wakeWorker => rw [hst.wakeWorker_inv]; exact hkept
      | wake i => rw [hst.wake_inv]; exact hkept

/-- The reference count of a handle is what exports and all other calls have made of it. An export that fails has
added nothing to it, for good; one that succeeds has added one reference, which it keeps until the deleter runs and
which is gone for good behind it; and it has succeeded behind the producer or with a dependency on it. An export
whose call or deleter has ended is one of these. -/
theorem leases_kept (h : Run (Restrict (Step nvidia) Unwrapped) s₀ ls s) (h₀ : Quiet s₀) :
    (∀ n, (s.shared.frame.references n : Int) = s.shared.others n + s.shared.leased n) ∧
      ∀ (k : Nat) (account : Account), s.shared.accounts[k]? = some account →
        (∀ result, account.stage = .failed result → account.leases = 0) ∧
        (∀ tensor, account.stage = .exported tensor → account.leases = 1 ∧
          (account.complete = true ∨ ∃ native, s.shared.frame.core.native = some native ∧ native.handles 3 ≠ 0 ∧
            account.request.consumerStream ≠ 0 ∧
            account.registered = some ⟨native.handles 3, account.request.consumerStream⟩)) ∧
        (account.stage = .deleted → account.leases = 0) ∧
        ((∀ i, (s.client i).task ≠ some k) → account.stage.settled = true) ∧
        (account.stage.settled = true → ∀ ls' t, Run (Restrict (Step nvidia) Unwrapped) s ls' t →
          (∀ tensor, account.stage = .exported tensor → ∀ i, .client i (.deleter k) ∉ ls') →
          t.shared.accounts[k]? = some account) := by
  have hsound := run_sound h h₀.sound
  refine ⟨hsound.total, fun k account haccount => ?_⟩
  have hresting (hsettled : account.stage.settled = true) : account.Resting :=
    hsound.resting k account haccount (hsound.unattended haccount hsettled)
  refine ⟨fun result hstage => ?_, fun tensor hstage => ?_, fun hstage => ?_, fun hfree => ?_,
    fun hsettled ls' t hrun hdeleter => hsound.stays haccount hsettled hrun hdeleter⟩
  · have := hresting (by rw [hstage]; rfl)
    simpa only [Account.Resting, hstage] using this
  · have := hresting (by rw [hstage]; rfl)
    simp only [Account.Resting, hstage] at this
    refine ⟨this.1, this.2.imp_right fun hregistered => ?_⟩
    obtain ⟨d, hd⟩ := Option.isSome_iff_exists.mp hregistered
    obtain ⟨native, hnative, hevent, hstream, rfl⟩ := hsound.dependent k account haccount d hd
    exact ⟨native, hnative, hevent, hstream, hd⟩
  · have := hresting (by rw [hstage]; rfl)
    simpa only [Account.Resting, hstage] using this
  · exact (hsound.resting k account haccount hfree).settled

end

/-! ## A tensor and its deleter -/

/-- A CUDA frame of 2x2 pixels. -/
def smallDesc : GpuFrameDesc :=
  ⟨136, 1, .nvidia, .cudaPointer, 0, 7, .nv12, 2, 2, 2, fun plane => if plane = 1 then 4 else 0, fun _ => 2, 0, 0, 0, 0,
    0⟩

def smallNative : NativeHandleDesc :=
  ⟨72, 1, .cudaPointer, 1, 0, 7, fun handle => if handle = 0 then 4096 else 0⟩

/-- One thread and a frame whose producer is done, with one handle. -/
def ExportState.retained (references owned : Nat) (reply : Option Reply) (others : Nat → Int) :
    ExportState Empty Unit :=
  { shared :=
      { frame :=
          { core :=
              { desc := smallDesc, producer := some .completed, native := some smallNative, externalLeases := 1
                consumers := [], recycled := false }
            states := fun c => c.elim, handles := [⟨references, 7, owned, 0, false⟩], bare := 0, holders := 1, calls := 0
            life := .alive, recycles := [], imported := none, accepted := false, releases := 0 }
        accounts := [], others := others }
    worker := (), client := fun _ => ⟨.idle, reply, none⟩, workerSleep := none, sleep := fun _ => none }

def ExportState.small : ExportState Empty Unit := .retained 1 1 none fun n => if n = 0 then 1 else 0

theorem quiet_small : Quiet ExportState.small where
  idle _ := ⟨rfl, rfl⟩
  born := by simp [ExportState.small, ExportState.retained]
  references n := by cases n <;> simp [ExportState.small, ExportState.retained, Frame.at]
  users n := by cases n <;> simp [ExportState.small, ExportState.retained, Frame.at]
  accounts := rfl
  others n := by cases n <;> simp [ExportState.small, ExportState.retained, Frame.at]

/-- The luma plane is exported without a stream. -/
def smallExport : List (ExportLabel Empty Unit) :=
  [.client () (.begin ⟨some 0, 0, 0, none, true⟩ .ok), .client () .section, .client () (.advance .ok),
    .client () .section, .client () .section, .client () (.advance .ok), .client () .section, .client () .section,
    .client () (.advance .ok), .client () (.advance .ok), .client () .section, .client () .section,
    .client () .section, .client () (.advance .ok)]

def smallDeleter : List (ExportLabel Empty Unit) :=
  [.client () (.deleter 0), .client () .section, .client () (.advance .ok)]

theorem leases_kept_small :
    (∃ (s : ExportState Empty Unit) (account : Account) (tensor : DLTensor),
        Run (Restrict (Step true) Unwrapped) .small smallExport s ∧ s.shared.accounts[0]? = some account ∧
        account.stage = .exported tensor ∧ account.leases = 1) ∧
      ∃ (s : ExportState Empty Unit) (account : Account),
        Run (Restrict (Step true) Unwrapped) .small (smallExport ++ smallDeleter) s ∧
        s.shared.accounts[0]? = some account ∧ account.stage = .deleted ∧ account.leases = 0 := by
  constructor
  · have h : Run (Restrict (Step true) Unwrapped) .small smallExport _ :=
      Program.restrict_of_along rfl ⟨trivial, trivial, trivial, trivial, trivial, trivial, trivial,
        (by decide : 1 + 1 < 2 ^ 32), trivial, trivial, trivial, trivial, trivial, trivial, trivial⟩
    exact ⟨_, _, _, h, rfl, rfl, (((leases_kept h quiet_small).2 0 _ rfl).2.1 _ rfl).1⟩
  · have h : Run (Restrict (Step true) Unwrapped) .small (smallExport ++ smallDeleter) _ :=
      Program.restrict_of_along rfl ⟨trivial, trivial, trivial, trivial, trivial, trivial, trivial,
        (by decide : 1 + 1 < 2 ^ 32), trivial, trivial, trivial, trivial, trivial, trivial, trivial, trivial, trivial,
        trivial⟩
    exact ⟨_, _, h, rfl, rfl, ((leases_kept h quiet_small).2 0 _ rfl).2.2.1 rfl⟩

/-! ## 2 ^ 32 - 1 references -/

def retainCall : List (ExportLabel Empty Unit) :=
  [.client () (.lease (.call (.handle 0 .retain))), .client () (.lease .run), .client () (.lease .run)]

theorem retain_run (references owned : Nat) (reply : Option Reply) (others : Nat → Int) :
    ∃ reply' others', Run (Step true) (ExportState.retained references (owned + 1) reply others) retainCall
      (.retained (u32 (references + 1)) (owned + 1 + 1) reply' others') :=
  ⟨_, _, Program.run_of_exec rfl⟩

theorem retained_run (k : Nat) : ∃ (reply : Option Reply) (others : Nat → Int) (ls : List (ExportLabel Empty Unit)),
    Run (Step true) .small ls (.retained ((k + 1) % 2 ^ 32) (k + 1) reply others) := by
  induction k with
  | zero => exact ⟨_, _, [], .nil⟩
  | succ k ih =>
      obtain ⟨reply, others, ls, hrun⟩ := ih
      obtain ⟨reply', others', hretain⟩ := retain_run ((k + 1) % 2 ^ 32) k reply others
      refine ⟨reply', others', ls ++ retainCall, ?_⟩
      have hcount : u32 ((k + 1) % 2 ^ 32 + 1) = (k + 1 + 1) % 2 ^ 32 := by simp [u32]
      rw [hcount] at hretain
      exact hrun.append hretain

/-- An application that has 2 ^ 32 - 1 references exports a plane: the count of its handle is 0 then. -/
theorem export_wraps : Quiet ExportState.small ∧ ∃ (s t : ExportState Empty Unit) (ls : List (ExportLabel Empty Unit))
    (account : Account) (tensor : DLTensor), Run (Step true) .small ls s ∧ Run (Step true) s smallExport t ∧
      s.shared.frame.references 0 = 2 ^ 32 - 1 ∧ t.shared.frame.references 0 = 0 ∧
      t.shared.accounts[0]? = some account ∧ account.stage = .exported tensor := by
  obtain ⟨reply, others, ls, hrun⟩ := retained_run (2 ^ 32 - 2)
  have hexport : Run (Step true) (ExportState.retained ((2 ^ 32 - 2 + 1) % 2 ^ 32) (2 ^ 32 - 2 + 1) reply others)
      smallExport _ := Program.run_of_exec rfl
  exact ⟨quiet_small, _, _, ls, _, _, hrun, hexport, rfl, rfl, rfl, rfl⟩

end MkvCodec.Gpu.Dlpack
