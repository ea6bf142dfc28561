import MkvCodec.Encoder.Lemmas.Flow

/-!
# The order of the queue

Everything ever pushed is, in this order, what the backend has been called for, what the worker is about to
call it for, what is queued, and what was dropped by a cancellation or a failure.
-/

namespace MkvCodec.Encoder

open Concurrency

variable {cfg : Config}

/-! ## What the backend has been called for -/

def BackendCall.item? : BackendCall → Option Item
  | .item served _ => some served
  | _ => none

def CallEnd.isOk : CallEnd → Bool
  | .returned status => decide (status.result = .ok)
  | .threw _ => false

/-- A call for an item that did not fail; calls of other kinds are not in question. -/
def BackendCall.succeeded : BackendCall → Bool
  | .item _ ended => CallEnd.isOk ended
  | _ => true

def servedItems (calls : List BackendCall) : List Item := calls.filterMap BackendCall.item?

def itemTokens (items : List Item) : List Nat := items.filterMap Item.token?

@[simp] theorem servedItems_append (calls calls' : List BackendCall) :
    servedItems (calls ++ calls') = servedItems calls ++ servedItems calls' := by simp [servedItems]

@[simp] theorem servedItems_item (item : Item) (ended : CallEnd) :
    servedItems [.item item ended] = [item] := rfl

@[simp] theorem itemTokens_append (items items' : List Item) :
    itemTokens (items ++ items') = itemTokens items ++ itemTokens items' := by simp [itemTokens]

@[simp] theorem itemTokens_flush (token : Nat) : itemTokens [.flush token] = [token] := rfl

@[simp] theorem itemTokens_owned (frame : OwnedFrame) (source : FrameView) :
    itemTokens [.owned frame source] = [] := rfl

@[simp] theorem itemTokens_borrowed (frame : FrameView) (submission : Nat) :
    itemTokens [.borrowed frame submission] = [] := rfl

theorem servedItems_of_not_item {call : BackendCall} (h : ∀ item e, call ≠ .item item e) :
    servedItems [call] = [] := by
  cases call with
  | item item e => exact absurd rfl (h item e)
  | _ => rfl

/-- The item that the worker has taken and not yet called the backend for. -/
def WorkerPc.taken : WorkerPc → List Item
  | .serve item => [item]
  | _ => []

/-- The call that the worker has made and not yet recorded. -/
def WorkerPc.made : WorkerPc → List BackendCall
  | .record item status => [.item item (.returned status)]
  | .unwind (some item) _ what => [.item item (.threw what)]
  | _ => []

/-! ## The invariant -/

/-- What the worker has recorded: calls that succeeded, and the token of the last flush among them. -/
structure Recorded (done : List BackendCall) (token : Nat) : Prop where
  succeeded : ∀ call ∈ done, call.succeeded = true
  token : (itemTokens (servedItems done)).length = token

theorem Recorded.snoc {done : List BackendCall} {token : Nat} {call : BackendCall} (h : Recorded done token)
    (hc : call.succeeded = true) :
    Recorded (done ++ [call]) (token + (itemTokens (servedItems [call])).length) := by
  refine ⟨fun c hm => ?_, by simp [h.token]⟩
  rcases List.mem_append.mp hm with hm | hm
  · exact h.succeeded c hm
  · rw [List.mem_singleton.mp hm]; exact hc

structure Order (a : Impl) (w : WorkerPc) : Prop where
  tokens : itemTokens a.admitted = List.range' 1 a.nextFlushToken
  admitted : ∃ dropped, a.admitted = servedItems a.calls ++ w.taken ++ a.queue ++ dropped ∧
    (dropped = [] ∨ a.queue = [] ∧ a.accepting = false ∧ (a.failed = true ∨ a.canceled = true))
  recorded : a.failed = false → ∃ done, a.calls = done ++ w.made ∧ Recorded done a.completedFlushToken

/-- A push, which only a session that accepts makes. -/
theorem Order.push {a : Impl} {w : WorkerPc} {item : Item} (h : Order a w) (hacc : a.accepting = true)
    {b : Impl} (hq : b.queue = a.queue ++ [item]) (had : b.admitted = a.admitted ++ [item])
    (hcalls : b.calls = a.calls) (hf : b.failed = a.failed)
    (hct : b.completedFlushToken = a.completedFlushToken)
    (htok : itemTokens b.admitted = List.range' 1 b.nextFlushToken) : Order b w := by
  obtain ⟨dropped, hadm, hd⟩ := h.admitted
  obtain rfl : dropped = [] := by
    rcases hd with rfl | ⟨-, hst, -⟩
    · rfl
    · rw [hst] at hacc; cases hacc
  refine ⟨htok, ⟨[], by simp [had, hq, hcalls, hadm], .inl rfl⟩, fun hbf => ?_⟩
  obtain ⟨done, hdone, hrec⟩ := h.recorded (hf ▸ hbf)
  exact ⟨done, hcalls.trans hdone, hct ▸ hrec⟩

/-- A section that leaves the queue and the log alone. -/
theorem Order.frame {a b : Impl} {w : WorkerPc} (h : Order a w) (hq : b.queue = a.queue)
    (had : b.admitted = a.admitted) (hcalls : b.calls = a.calls) (hacc : b.accepting = true → a.accepting = true)
    (hf : b.failed = a.failed) (hca : b.canceled = a.canceled)
    (hnt : b.nextFlushToken = a.nextFlushToken) (hct : b.completedFlushToken = a.completedFlushToken) :
    Order b w := by
  obtain ⟨dropped, hadm, hd⟩ := h.admitted
  refine ⟨by rw [had, hnt]; exact h.tokens, ⟨dropped, by rw [had, hcalls, hq]; exact hadm, ?_⟩, fun hbf => ?_⟩
  · rcases hd with hd | ⟨he, hst, hfc⟩
    · exact .inl hd
    · refine .inr ⟨hq.trans he, ?_, by rw [hf, hca]; exact hfc⟩
      cases hb : b.accepting with
      | false => rfl
      | true => rw [hacc hb] at hst; cases hst
  · obtain ⟨done, hdone, hrec⟩ := h.recorded (hf ▸ hbf)
    exact ⟨done, hcalls.trans hdone, hct ▸ hrec⟩

/-- A backend call for no item, made by a thread that has no call to record. -/
theorem Order.called {a : Impl} {w w' : WorkerPc} {call : BackendCall} (h : Order a w)
    (hcall : ∀ item e, call ≠ .item item e) (hw : w.taken ++ w'.taken = []) (hm : w.made ++ w'.made = []) :
    Order (a.called call) w' := by
  obtain ⟨ht, ht'⟩ := List.append_eq_nil_iff.mp hw
  obtain ⟨hm, hm'⟩ := List.append_eq_nil_iff.mp hm
  have hserved := servedItems_of_not_item hcall
  have hsucc : call.succeeded = true := by
    cases call with
    | item item e => exact absurd rfl (hcall item e)
    | _ => rfl
  obtain ⟨dropped, hadm, hd⟩ := h.admitted
  refine ⟨h.tokens, ⟨dropped, by simpa [Impl.called, hserved, ht, ht'] using hadm, hd⟩, fun hf => ?_⟩
  obtain ⟨done, hdone, hrec⟩ := h.recorded hf
  have hnew := hrec.snoc hsucc
  rw [hserved] at hnew
  exact ⟨done ++ [call], by simpa [Impl.called, hm, hm'] using hdone, hnew⟩

/-- A client calls the backend only in a synchronous session, which has no worker. -/
theorem Effect.order {a : Impl} {pc : ClientPc} {e : Choice} {o : Section} {w : WorkerPc}
    (h : Effect cfg a pc e o) (ho : Order a w) (hw : (∃ ended, e = .backend ended) → w = .notStarted) :
    Order o.shared w := by
  cases h with
  | quiet | lose => exact ho
  | take | giveBack | recordSync | setPolicy => exact ho.frame rfl rfl rfl id rfl rfl rfl rfl
  | closeRequest => exact ho.frame rfl rfl rfl (by rintro ⟨⟩) rfl rfl rfl rfl
  | pushOwned hpc hf hacc hroom =>
      refine ho.push hacc rfl rfl rfl rfl rfl ?_
      simp only [Impl.pushFrame, Impl.push, itemTokens_append, itemTokens_owned, List.append_nil]
      exact ho.tokens
  | pushBorrowed hpc hf hacc hroom =>
      refine ho.push hacc rfl rfl rfl rfl rfl ?_
      simp only [Impl.pushFrame, Impl.push, itemTokens_append, itemTokens_borrowed, List.append_nil]
      exact ho.tokens
  | pushFlush hslots hslots' hf hacc hroom hwait hsleep =>
      refine ho.push hacc rfl rfl rfl rfl rfl ?_
      simp only [Impl.pushFlush, Impl.push, itemTokens_append, itemTokens_flush, ho.tokens]
      rw [List.range'_concat, Nat.one_mul, Nat.add_comm 1]
  | cancel hpc hcl hca hf =>
      obtain ⟨dropped, hadm, hd⟩ := ho.admitted
      refine ⟨ho.tokens, ⟨a.queue ++ dropped, ?_, .inr ⟨rfl, rfl, .inr rfl⟩⟩, ho.recorded⟩
      simp only [hadm, List.append_assoc, List.nil_append]
  | @backend ended call pc' hslots hslots' hpc hwait hcall =>
      obtain rfl := hw ⟨ended, rfl⟩
      exact ho.called hcall rfl rfl

theorem range'_append_singleton {n t : Nat} {ts us : List Nat}
    (h : ts ++ t :: us = List.range' 1 n) : t = ts.length + 1 := by
  have hget : (List.range' 1 n)[ts.length]? = some t := by simp [← h]
  rw [List.getElem?_eq_some_iff] at hget
  obtain ⟨hlt, hget⟩ := hget
  rw [List.getElem_range'] at hget
  omega

/-- The worker records flushes in the order of their tokens. -/
theorem Order.recorded_token {a : Impl} {token : Nat} {status : Status}
    (h : Order a (.record (.flush token) status)) {done : List BackendCall}
    (hdone : a.calls = done ++ [.item (.flush token) (.returned status)]) :
    token = (itemTokens (servedItems done)).length + 1 := by
  obtain ⟨dropped, hadm, -⟩ := h.admitted
  have htok := h.tokens
  rw [hadm, hdone] at htok
  simp only [servedItems_append, servedItems_item, itemTokens_append, List.append_assoc] at htok
  exact range'_append_singleton htok

theorem WorkerEffect.order {a : Impl} {w : WorkerPc} {e : Choice} {o : WorkerSection}
    (h : WorkerEffect a w e o) (ho : Order a w) : Order o.shared o.loc := by
  cases h with
  | asleep hreq hq => exact ho
  | stop hreq hq => exact ⟨ho.tokens, ho.admitted, ho.recorded⟩
  | @pop item rest hq =>
      obtain ⟨dropped, hadm, hd⟩ := ho.admitted
      have hd' : dropped = [] := by
        rcases hd with hd | ⟨he, -⟩
        · exact hd
        · rw [hq] at he; cases he
      refine ⟨ho.tokens, ⟨[], ?_, .inl rfl⟩, ho.recorded⟩
      simpa [WorkerPc.taken, hq, hd'] using hadm
  | @served item status =>
      obtain ⟨dropped, hadm, hd⟩ := ho.admitted
      refine ⟨ho.tokens, ⟨dropped, by simpa [WorkerPc.taken, Impl.called] using hadm, hd⟩, fun hf => ?_⟩
      obtain ⟨done, hdone, hrec⟩ := ho.recorded hf
      exact ⟨done, by simpa [WorkerPc.made, Impl.called] using hdone, hrec⟩
  | @threw item what =>
      obtain ⟨dropped, hadm, hd⟩ := ho.admitted
      refine ⟨ho.tokens, ⟨dropped, by simpa [WorkerPc.taken, Impl.called] using hadm, hd⟩, fun hf => ?_⟩
      obtain ⟨done, hdone, hrec⟩ := ho.recorded hf
      exact ⟨done, by simpa [WorkerPc.made, Impl.called] using hdone, hrec⟩
  | @failure item status hne =>
      obtain ⟨dropped, hadm, hd⟩ := ho.admitted
      refine ⟨ho.tokens, ⟨a.queue ++ dropped, ?_, .inr ⟨rfl, rfl, .inl rfl⟩⟩, by rintro ⟨⟩⟩
      simpa [WorkerPc.taken, recordFailure, Impl.recycle] using hadm
  | @success item status hok =>
      have hsucc : (BackendCall.item item (.returned status)).succeeded = true := by
        simp [BackendCall.succeeded, CallEnd.isOk, hok]
      -- the recorded call joins those that have succeeded
      cases item with
      | owned frame source =>
          refine ⟨ho.tokens, ho.admitted, fun hf => ?_⟩
          obtain ⟨done, hdone, hrec⟩ := ho.recorded hf
          exact ⟨_, hdone.trans (List.append_nil _).symm, hrec.snoc hsucc⟩
      | borrowed frame submission =>
          refine ⟨ho.tokens, ho.admitted, fun hf => ?_⟩
          obtain ⟨done, hdone, hrec⟩ := ho.recorded hf
          exact ⟨_, hdone.trans (List.append_nil _).symm, hrec.snoc hsucc⟩
      | flush token =>
          refine ⟨ho.tokens, ho.admitted, fun hf => ?_⟩
          obtain ⟨done, hdone, hrec⟩ := ho.recorded hf
          have htok : token = a.completedFlushToken + 1 := by rw [ho.recorded_token hdone, hrec.token]
          refine ⟨_, hdone.trans (List.append_nil _).symm, ?_⟩
          simp only [recordSuccess, htok]
          exact htok ▸ hrec.snoc hsucc
  | @closed active status => exact ho.called (by simp) rfl rfl
  | @closeThrew active what => exact ho.called (by simp) rfl rfl
  | finish h =>
      obtain ⟨dropped, hadm, hd⟩ := ho.admitted
      refine ⟨ho.tokens, ⟨dropped, hadm, ?_⟩, ho.recorded⟩
      rcases hd with hd | ⟨he, -, hfc⟩
      · exact .inl hd
      · exact .inr ⟨he, rfl, hfc⟩
  | finishFailed hf h =>
      obtain ⟨dropped, hadm, hd⟩ := ho.admitted
      refine ⟨ho.tokens, ⟨dropped, hadm, ?_⟩, by rintro ⟨⟩⟩
      rcases hd with hd | ⟨he, -, hfc⟩
      · exact .inl hd
      · exact .inr ⟨he, rfl, .inl rfl⟩
  | @handler item active what =>
      obtain ⟨dropped, hadm, hd⟩ := ho.admitted
      refine ⟨ho.tokens, ⟨dropped, hadm, ?_⟩, by rintro ⟨⟩⟩
      rcases hd with hd | ⟨he, -, hfc⟩
      · exact .inl hd
      · exact .inr ⟨he, rfl, .inl rfl⟩

/-- As long as the session has not failed, what the worker holds comes right before the queue. -/
theorem Order.hand {a : Impl} {w : WorkerPc} (h : Order a w) (hf : a.failed = false) :
    ∃ before dropped, a.admitted = before ++ (w.item?.toList ++ a.queue) ++ dropped := by
  obtain ⟨done, hdone, -⟩ := h.recorded hf
  obtain ⟨dropped, hadm, -⟩ := h.admitted
  refine ⟨servedItems done, dropped, ?_⟩
  rw [hadm, hdone]
  cases w with
  | unwind item active what =>
      cases item <;> simp [WorkerPc.made, WorkerPc.taken, WorkerPc.item?, servedItems, BackendCall.item?]
  | _ => simp [WorkerPc.made, WorkerPc.taken, WorkerPc.item?, servedItems, BackendCall.item?]

theorem Order.mem_admitted {a : Impl} {w : WorkerPc} (h : Order a w) {item : Item} {ended : CallEnd}
    (hc : .item item ended ∈ a.calls) : item ∈ a.admitted := by
  obtain ⟨dropped, hadm, -⟩ := h.admitted
  have hserved : item ∈ servedItems a.calls := List.mem_filterMap.mpr ⟨_, hc, rfl⟩
  rw [hadm]
  simp [hserved]

/-! ## The recorded tokens -/

theorem mem_itemTokens {items : List Item} {token : Nat} : token ∈ itemTokens items ↔ .flush token ∈ items := by
  simp only [itemTokens, List.mem_filterMap]
  constructor
  · rintro ⟨item, hitem, ht⟩
    cases item with
    | flush t => cases ht; exact hitem
    | _ => cases ht
  · intro h
    exact ⟨_, h, rfl⟩

theorem eq_range'_of_append {n : Nat} {ts us : List Nat} (h : ts ++ us = List.range' 1 n) :
    ts = List.range' 1 ts.length := by
  have hlen := congrArg List.length h
  simp only [List.length_append, List.length_range'] at hlen
  rw [← hlen, ← List.range'_append_1] at h
  exact List.append_inj_left h (by simp)

/-- The flushes that the worker has recorded are those with the first tokens. -/
theorem Order.recorded_tokens {a : Impl} {w : WorkerPc} (h : Order a w) (hf : a.failed = false) :
    ∃ done, a.calls = done ++ w.made ∧ (∀ call ∈ done, call.succeeded = true) ∧
      itemTokens (servedItems done) = List.range' 1 a.completedFlushToken := by
  obtain ⟨done, hdone, hrec⟩ := h.recorded hf
  obtain ⟨dropped, hadm, -⟩ := h.admitted
  refine ⟨done, hdone, hrec.succeeded, ?_⟩
  have htok := h.tokens
  rw [hadm, hdone] at htok
  simp only [servedItems_append, itemTokens_append, List.append_assoc] at htok
  rw [← hrec.token]
  exact eq_range'_of_append htok

theorem Order.completed_le {a : Impl} {w : WorkerPc} (h : Order a w) (hf : a.failed = false) :
    a.completedFlushToken ≤ a.nextFlushToken := by
  obtain ⟨done, hdone, -, htoks⟩ := h.recorded_tokens hf
  obtain ⟨dropped, hadm, -⟩ := h.admitted
  have hlen := congrArg List.length h.tokens
  have hlen' := congrArg List.length htoks
  simp only [hadm, hdone, servedItems_append, itemTokens_append, List.length_append,
    List.length_range'] at hlen hlen'
  omega

/-! ## Whole runs -/

variable {ι : Type*} [DecidableEq ι]

theorem WorkerEffect.notStarted {a : Impl} {w : WorkerPc} {e : Choice} {o : WorkerSection}
    (h : WorkerEffect a w e o) : o.loc = .notStarted ↔ w = .notStarted := by
  cases h with
  | @success item status hok => cases item <;> simp [recordSuccess]
  | _ => simp [recordFailure, recordException]

/-- A session has a worker exactly if it has a queue. -/
theorem session_notStarted {ls : List (SessionLabel ι)} {s : SessionState ι} (h : SessionRun cfg ls s) :
    s.worker = .notStarted ↔ cfg.capacity = 0 := by
  refine session_invariant (I := fun _ w => w = .notStarted ↔ cfg.capacity = 0) h ?_ ?_ ?_
  · split <;> simp [*]
  · intro _ _ _ _ _ hw he
    rw [← hw]
    exact he.notStarted
  · intro _ _ _ _ _ _ hw _
    exact hw

/-- A client that calls the backend itself stands in a synchronous session. -/
theorem Effect.capacity_of_backend {a : Impl} {k : Client} {ended : CallEnd} {o : Section}
    (h : Effect cfg a k.pc (.backend ended) o) (hk : k.Placed cfg) : cfg.capacity = 0 := by
  obtain ⟨pc, current, history⟩ := k
  cases h with
  | quiet he hslots hwait hsleep => rcases he with he | ⟨c, he⟩ <;> cases he
  | backend hslots hslots' hpc hwait hcall =>
      cases current with
      | none => rcases hpc with hpc | hpc | ⟨f, hpc⟩ <;> rw [show pc = .idle from hk] at hpc <;> cases hpc
      | some c =>
          rcases hpc with rfl | rfl | ⟨f, rfl⟩
          · exact And.left hk
          · exact And.left hk
          · exact And.left hk

theorem backend_notStarted {ls : List (SessionLabel ι)} {s : SessionState ι} (h : SessionRun cfg ls s) {i : ι}
    {e : Choice} {o : Section} (he : Effect cfg s.shared (s.client i).pc e o) :
    (∃ ended, e = .backend ended) → s.worker = .notStarted := by
  rintro ⟨ended, rfl⟩
  exact (session_notStarted h).mpr (he.capacity_of_backend (session_placed h i))

theorem session_order {ls : List (SessionLabel ι)} {s : SessionState ι} (h : SessionRun cfg ls s) :
    Order s.shared s.worker := by
  refine session_invariant h ⟨rfl, ⟨[], ?_, .inl rfl⟩, fun _ => ⟨[], ?_, by simp, rfl⟩⟩ ?_ ?_
  · split <;> rfl
  · split <;> rfl
  · intro _ _ _ _ _ ho he
    exact he.order ho
  · intro _ _ _ _ _ hrun ho he
    exact he.order ho (backend_notStarted hrun he)

end MkvCodec.Encoder
