import MkvCodec.Data.RecordList
import MkvCodec.Python.DlpackModule

/-!
# The references of the DLPack extension are balanced

One place is responsible for a tensor at any time, its deleters and the records of its owners form a chain that ends
with the deleter of its producer, and each reference to an owner is in a record, in a holder or given back.
-/

namespace MkvCodec.Python.Dlpack

open Concurrency RecordList

/-! ## One tensor -/

/-- A deleter with the records of a tensor, the newest first: each record has what the one before it has replaced. -/
def Chain (original : Bool) : Deleter → List Record → Prop
  | d, [] => d = if original then .original else .null
  | d, r :: rs => d = .retainedOwnerDelete ∧ Chain original r.sourceDeleter rs

theorem Chain.of_null {original : Bool} {rs : List Record} (h : Chain original .null rs) :
    rs = [] ∧ original = false := by
  cases rs with
  | cons r rs => cases h.1
  | nil =>
      cases original with
      | false => exact ⟨rfl, rfl⟩
      | true => cases h

theorem Chain.of_original {original : Bool} {rs : List Record} (h : Chain original .original rs) :
    rs = [] ∧ original = true := by
  cases rs with
  | cons r rs => cases h.1
  | nil =>
      cases original with
      | true => exact ⟨rfl, rfl⟩
      | false => cases h

def Capsule.responsible (c : Capsule) : Nat := if c.valid && decide (0 < c.refs) then 1 else 0

namespace ManagedTensor

/-- How many places are responsible for the deletion of a tensor, with the ended deletions. -/
def custodians (m : ManagedTensor) : Nat :=
  m.callers + (m.capsule.elim 0 Capsule.responsible) + m.consumers + m.holders.countP (0 < ·) + m.running.length + m.ended

/-- A tensor with the records that it has. `n` is 1, or 0 while the code at work is responsible. -/
structure Sound (m : ManagedTensor) (rs : List Record) (n : Nat) : Prop where
  custody : m.custodians = n
  runs : m.runs = if m.original then m.ended else 0
  running : .null ∉ m.running
  chain : m.ended = 0 → Chain m.original (m.running.headD m.deleter) rs
  cleared : m.ended ≠ 0 → rs = []

variable {m : ManagedTensor} {rs : List Record} {n : Nat} {c : Capsule}

theorem Sound.callDeleter (h : m.Sound rs 0) : m.callDeleter.Sound rs 1 := by
  have hcustody := h.custody
  unfold custodians at hcustody
  have hrunning : m.running = [] := List.eq_nil_of_length_eq_zero (by omega)
  have hended : m.ended = 0 := by omega
  have hchain := h.chain hended
  rw [hrunning] at hchain
  unfold ManagedTensor.callDeleter
  split
  case isTrue hnull =>
    rw [List.headD_nil, hnull] at hchain
    obtain ⟨rfl, horiginal⟩ := hchain.of_null
    refine ⟨?_, ?_, h.running, fun h => absurd h (Nat.succ_ne_zero _), fun _ => rfl⟩
    · simp only [custodians]
      omega
    · rw [h.runs, horiginal]
      rfl
  case isFalse hnull =>
    refine ⟨?_, h.runs, ?_, fun _ => ?_, fun h => absurd hended h⟩
    · simp only [custodians, List.length_append, List.length_singleton]
      omega
    · rw [hrunning, List.nil_append, List.mem_singleton]
      exact fun heq => hnull heq.symm
    · rw [hrunning]
      exact hchain

/-- A reference to the capsule goes. -/
theorem Sound.decrefCapsule (h : m.Sound rs 1) (hc : m.capsule = some c) (hrefs : c.refs ≠ 0) :
    (m.decrefCapsule c).Sound rs 1 := by
  have hcustody := h.custody
  simp only [custodians, hc, Option.elim_some, Capsule.responsible] at hcustody
  unfold ManagedTensor.decrefCapsule
  split
  case isTrue hlast =>
    split
    case isTrue hvalid =>
      refine Sound.callDeleter ⟨?_, h.runs, h.running, h.chain, h.cleared⟩
      simp only [hvalid, Bool.true_and, decide_eq_true_eq, show 0 < c.refs by omega, if_true] at hcustody
      simp only [custodians, Option.elim_some, Capsule.responsible, Nat.lt_irrefl, decide_false, Bool.and_false,
        Bool.false_eq_true, if_false]
      omega
    case isFalse hvalid =>
      refine ⟨?_, h.runs, h.running, h.chain, h.cleared⟩
      simp only [hvalid, Bool.false_and, Bool.false_eq_true, if_false] at hcustody
      simpa only [custodians, Option.elim_some, Capsule.responsible, hvalid, Bool.false_and, Bool.false_eq_true, if_false]
        using hcustody
  case isFalse hmore =>
    refine ⟨?_, h.runs, h.running, h.chain, h.cleared⟩
    simpa only [custodians, Option.elim_some, Capsule.responsible, show 0 < c.refs by omega,
      show 0 < c.refs - 1 by omega, decide_true] using hcustody

/-- The reference of a renamed capsule goes, and nothing is responsible any more. -/
theorem Sound.decrefUsed (h : m.Sound rs 1) (hc : m.capsule = some c) (hrefs : c.refs ≠ 0) (hvalid : c.valid = true) :
    (m.decrefCapsule ⟨false, c.refs⟩).Sound rs 0 := by
  have hcustody := h.custody
  simp only [custodians, hc, Option.elim_some, Capsule.responsible, hvalid, Bool.true_and, decide_eq_true_eq,
    show 0 < c.refs by omega, if_true] at hcustody
  unfold ManagedTensor.decrefCapsule
  split
  · refine ⟨?_, h.runs, h.running, h.chain, h.cleared⟩
    simp only [custodians, Option.elim_some, Capsule.responsible, Bool.false_and, Bool.false_eq_true, if_false]
    omega
  · refine ⟨?_, h.runs, h.running, h.chain, h.cleared⟩
    simp only [custodians, Option.elim_some, Capsule.responsible, Bool.false_and, Bool.false_eq_true, if_false]
    omega

/-- A reference to the capsule of a holder goes. -/
theorem Sound.decrefHolder (h : m.Sound rs 1) {i refs : Nat} (hi : m.holders[i]? = some refs) (hrefs : refs ≠ 0) :
    (m.decrefHolder i refs).Sound rs 1 := by
  have hcustody := h.custody
  simp only [custodians] at hcustody
  have hset := fun y => countP_set_add (fun x => decide (0 < x)) y hi
  simp only [decide_eq_true_eq, show 0 < refs by omega, if_true] at hset
  unfold ManagedTensor.decrefHolder
  split
  · refine Sound.callDeleter ⟨?_, h.runs, h.running, h.chain, h.cleared⟩
    have hzero := hset 0
    simp only [Nat.lt_irrefl, if_false] at hzero
    simp only [custodians]
    omega
  · refine ⟨?_, h.runs, h.running, h.chain, h.cleared⟩
    have hless := hset (refs - 1)
    simp only [show 0 < refs - 1 by omega, if_true] at hless
    simp only [custodians]
    omega

/-- The bare address goes into a capsule. -/
theorem Sound.wrap (h : m.Sound rs 1) (hcallers : m.callers ≠ 0) :
    Sound { m with callers := m.callers - 1, capsule := some ⟨true, 1⟩ } rs 1 := by
  have hcustody := h.custody
  refine ⟨?_, h.runs, h.running, h.chain, h.cleared⟩
  simp only [custodians] at hcustody
  simp only [custodians, Option.elim_some, Capsule.responsible, Nat.lt_add_one, decide_true, Bool.and_true, if_true]
  omega

/-- Whoever has the bare address calls the deleter. -/
theorem Sound.reclaim (h : m.Sound rs 1) (hcallers : m.callers ≠ 0) :
    (ManagedTensor.callDeleter { m with callers := m.callers - 1 }).Sound rs 1 := by
  have hcustody := h.custody
  refine Sound.callDeleter ⟨?_, h.runs, h.running, h.chain, h.cleared⟩
  simp only [custodians] at hcustody
  simp only [custodians]
  omega

theorem Sound.incref (h : m.Sound rs n) (hc : m.capsule = some c) (hrefs : c.refs ≠ 0) :
    Sound { m with capsule := some ⟨c.valid, c.refs + 1⟩ } rs n := by
  have hcustody := h.custody
  refine ⟨?_, h.runs, h.running, h.chain, h.cleared⟩
  simp only [custodians, hc, Option.elim_some, Capsule.responsible, show 0 < c.refs by omega] at hcustody
  simpa only [custodians, Option.elim_some, Capsule.responsible, show 0 < c.refs + 1 by omega] using hcustody

/-- A consumer renames the capsule. -/
theorem Sound.rename (h : m.Sound rs 1) (hc : m.capsule = some c) (hrefs : c.refs ≠ 0) (hvalid : c.valid = true) :
    Sound { m with capsule := some ⟨false, c.refs⟩, consumers := m.consumers + 1 } rs 1 := by
  have hcustody := h.custody
  refine ⟨?_, h.runs, h.running, h.chain, h.cleared⟩
  simp only [custodians, hc, Option.elim_some, Capsule.responsible, hvalid, Bool.true_and, decide_eq_true_eq,
    show 0 < c.refs by omega, if_true] at hcustody
  simp only [custodians, Option.elim_some, Capsule.responsible, Bool.false_and, Bool.false_eq_true, if_false]
  omega

/-- A consumer calls the deleter. -/
theorem Sound.delete (h : m.Sound rs 1) (hconsumers : m.consumers ≠ 0) :
    (ManagedTensor.callDeleter { m with consumers := m.consumers - 1 }).Sound rs 1 := by
  have hcustody := h.custody
  refine Sound.callDeleter ⟨?_, h.runs, h.running, h.chain, h.cleared⟩
  simp only [custodians] at hcustody
  simp only [custodians]
  omega

/-- A holder becomes responsible. -/
theorem Sound.hold (h : m.Sound rs 0) : Sound { m with holders := m.holders ++ [1] } rs 1 := by
  have hcustody := h.custody
  refine ⟨?_, h.runs, h.running, fun hended => h.chain hended, h.cleared⟩
  simp only [custodians] at hcustody
  simp only [custodians, List.countP_append, List.countP_singleton, Nat.lt_add_one, decide_true, if_true]
  omega

theorem Sound.increfHolder (h : m.Sound rs n) {i refs : Nat} (hi : m.holders[i]? = some refs) (hrefs : refs ≠ 0) :
    Sound { m with holders := m.holders.set i (refs + 1) } rs n := by
  have hcustody := h.custody
  have hset := countP_set_add (fun x => decide (0 < x)) (refs + 1) hi
  refine ⟨?_, h.runs, h.running, h.chain, h.cleared⟩
  simp only [decide_eq_true_eq, show 0 < refs by omega, show 0 < refs + 1 by omega, if_true] at hset
  simp only [custodians] at hcustody
  simp only [custodians]
  omega

/-- `retain_owner` puts a deleter and a record before the others. -/
theorem Sound.retain (h : m.Sound rs 1) (hc : m.capsule = some c) (hrefs : c.refs ≠ 0) (hvalid : c.valid = true)
    {r : Record} (hr : r.sourceDeleter = m.deleter) :
    Sound { m with deleter := .retainedOwnerDelete, capsule := some ⟨c.valid, c.refs + 1⟩ } (r :: rs) 1 := by
  have hcustody := (h.incref hc hrefs).custody
  simp only [custodians, Option.elim_some, Capsule.responsible, hvalid, Bool.true_and, Nat.zero_lt_succ, decide_true,
    if_true] at hcustody
  have hrunning : m.running = [] := List.eq_nil_of_length_eq_zero (by omega)
  have hended : m.ended = 0 := by omega
  refine ⟨(h.incref hc hrefs).custody, h.runs, h.running, fun _ => ?_, fun hne => absurd hended hne⟩
  have hchain := h.chain hended
  rw [hrunning] at hchain
  rw [hrunning]
  exact ⟨rfl, hr ▸ hchain⟩

section Running

variable {d : Deleter} {rest : List Deleter}

/-- While a deleter runs, nothing else is responsible. -/
theorem Sound.alone (h : m.Sound rs 1) (hd : m.running = d :: rest) : rest = [] ∧ m.ended = 0 := by
  have hcustody := h.custody
  simp only [custodians, hd, List.length_cons] at hcustody
  exact ⟨List.eq_nil_of_length_eq_zero (by omega), by omega⟩

theorem Sound.chain_running (h : m.Sound rs 1) (hd : m.running = d :: rest) : Chain m.original d rs := by
  have hchain := h.chain (h.alone hd).2
  rw [hd] at hchain
  exact hchain

/-- The deleter of the producer runs. -/
theorem Sound.original (h : m.Sound rs 1) (hd : m.running = .original :: rest) :
    Sound { m with running := rest, runs := m.runs + 1, ended := m.ended + 1 } rs 1 := by
  have hcustody := h.custody
  have hruns := h.runs
  obtain ⟨rfl, horiginal⟩ := (h.chain_running hd).of_original
  obtain ⟨rfl, hended⟩ := h.alone hd
  refine ⟨?_, ?_, List.not_mem_nil, fun hne => absurd hne (Nat.succ_ne_zero _), fun _ => rfl⟩
  · simp only [custodians, hd, List.length_cons, List.length_nil] at hcustody
    simp only [custodians, List.length_nil]
    omega
  · rw [horiginal, if_pos rfl] at hruns
    simp only [horiginal, if_true, hruns]

/-- `retained_owner_delete` of a tensor whose record has null for a deleter. -/
theorem Sound.unlink_null {r : Record} (h : m.Sound (r :: rs) 1) (hd : m.running = .retainedOwnerDelete :: rest)
    (hnull : r.sourceDeleter = .null) : Sound { m with running := rest, ended := m.ended + 1 } rs 1 := by
  have hcustody := h.custody
  have hchain := (h.chain_running hd).2
  obtain ⟨rfl, hended⟩ := h.alone hd
  rw [hnull] at hchain
  obtain ⟨rfl, horiginal⟩ := hchain.of_null
  refine ⟨?_, ?_, List.not_mem_nil, fun hne => absurd hne (Nat.succ_ne_zero _), fun _ => rfl⟩
  · simp only [custodians, hd, List.length_cons, List.length_nil] at hcustody
    simp only [custodians, List.length_nil]
    omega
  · rw [h.runs, horiginal]
    rfl

/-- The same for a record with another deleter. -/
theorem Sound.unlink {r : Record} (h : m.Sound (r :: rs) 1) (hd : m.running = .retainedOwnerDelete :: rest)
    (hnull : r.sourceDeleter ≠ .null) : Sound { m with running := r.sourceDeleter :: rest } rs 1 := by
  have hcustody := h.custody
  obtain ⟨rfl, hended⟩ := h.alone hd
  refine ⟨?_, h.runs, ?_, fun _ => (h.chain_running hd).2, fun hne => absurd hended hne⟩
  · simp only [custodians, hd, List.length_cons] at hcustody
    simpa only [custodians, List.length_cons] using hcustody
  · rw [List.mem_singleton]
    exact fun heq => hnull heq.symm

end Running

/-- No deletion of the tensor has begun. -/
def Idle (m : ManagedTensor) : Prop := m.running = [] ∧ m.ended = 0

theorem not_idle_callDeleter : ¬ m.callDeleter.Idle := by
  unfold ManagedTensor.callDeleter
  split
  · exact fun h => absurd h.2 (Nat.succ_ne_zero _)
  · exact fun h => absurd h.1 (by simp)

theorem Idle.of_decrefCapsule (h : (m.decrefCapsule c).Idle) : m.Idle := by
  unfold ManagedTensor.decrefCapsule at h
  split at h
  · split at h
    · exact absurd h not_idle_callDeleter
    · exact h
  · exact h

theorem Idle.of_decrefHolder {i refs : Nat} (h : (m.decrefHolder i refs).Idle) : m.Idle := by
  unfold ManagedTensor.decrefHolder at h
  split at h
  · exact absurd h not_idle_callDeleter
  · exact h

end ManagedTensor

/-! ## The whole module -/

namespace Extension

def new : Extension := ⟨[], [], [], 0, [], []⟩

def recordsOf (s : Extension) (t : Nat) : List Record := s.records.filter (·.tensor = t)

/-- The invariant. -/
structure Sound (s : Extension) : Prop where
  tensor : ∀ t (m : ManagedTensor), s.tensors[t]? = some m → m.Sound (s.recordsOf t) 1
  bounded : ∀ r ∈ s.retained, r.tensor < s.tensors.length ∧ r.owner < s.taken
  references : (s.dropped ++ (s.records.map (·.owner) ++ s.externals)).Perm (List.range s.taken)
  records : s.records = s.retained.filter fun r => decide (r.owner ∉ s.dropped)
  kept : ∀ t (m : ManagedTensor), s.tensors[t]? = some m → m.Idle → ∀ r ∈ s.retained, r.tensor = t → r.owner ∉ s.dropped

/-- One more number stands in the middle. -/
theorem perm_range_succ {l₁ l₂ : List Nat} {n : Nat} (h : (l₁ ++ l₂).Perm (List.range n)) :
    (l₁ ++ n :: l₂).Perm (List.range (n + 1)) := by
  rw [List.range_succ]
  exact List.perm_middle.trans ((h.cons n).trans (List.perm_append_singleton n _).symm)

variable {s s' : Extension} {t : Nat} {m m' : ManagedTensor} {c : Capsule}

theorem live_eq (h : s.live t = some (m, c)) : s.tensors[t]? = some m ∧ m.capsule = some c ∧ c.refs ≠ 0 := by
  obtain ⟨m', ht, h⟩ := Option.bind_eq_some_iff.mp h
  obtain ⟨c', hc, h⟩ := Option.bind_eq_some_iff.mp h
  split at h
  · cases h
  · cases h
    exact ⟨ht, hc, by assumption⟩

theorem liveHolder_eq {i refs : Nat} (h : s.liveHolder t i = some (m, refs)) :
    s.tensors[t]? = some m ∧ m.holders[i]? = some refs ∧ refs ≠ 0 := by
  obtain ⟨m', ht, h⟩ := Option.bind_eq_some_iff.mp h
  obtain ⟨refs', hi, h⟩ := Option.bind_eq_some_iff.mp h
  split at h
  · cases h
  · cases h
    exact ⟨ht, hi, by assumption⟩

namespace Sound

theorem new : Sound new := ⟨by simp [Extension.new], by simp [Extension.new], .refl _, rfl, by simp [Extension.new]⟩

/-- An operation that changes a tensor and nothing else. -/
theorem setTensor (h : Sound s) (ht : s.tensors[t]? = some m) (hm : m'.Sound (s.recordsOf t) 1)
    (hidle : m'.Idle → m.Idle) : Sound (s.setTensor t m') := by
  refine ⟨fun u n hu => ?_, fun r hr => ?_, h.references, h.records, fun u n hu hn => ?_⟩
  · rcases set_cases hu with ⟨rfl, rfl⟩ | ⟨-, hu⟩
    · exact hm
    · exact h.tensor u n hu
  · rw [Extension.setTensor, List.length_set]
    exact h.bounded r hr
  · rcases set_cases hu with ⟨rfl, rfl⟩ | ⟨-, hu⟩
    · exact h.kept t m ht (hidle hn)
    · exact h.kept u n hu hn

theorem nodup (h : Sound s) : (s.dropped ++ (s.records.map (·.owner) ++ s.externals)).Nodup :=
  h.references.nodup_iff.mpr List.nodup_range

theorem fresh (h : Sound s) : s.taken ∉ s.dropped := by
  intro hmem
  have := List.mem_range.mp (h.references.subset (List.mem_append_left _ hmem))
  omega

theorem produce (h : Sound s) (tensor : DLTensor) (original : Bool) : Sound (s.produce tensor original) := by
  have hnone : s.recordsOf s.tensors.length = [] := by
    refine List.filter_eq_nil_iff.mpr fun r hr => ?_
    rw [h.records] at hr
    have := (h.bounded r (List.mem_filter.mp hr).1).1
    simp only [decide_eq_true_eq]
    omega
  refine ⟨fun u n hu => ?_, fun r hr => ?_, h.references, h.records, fun u n hu hn => ?_⟩
  · rw [Extension.produce, List.getElem?_append] at hu
    split at hu
    · exact h.tensor u n hu
    · rw [List.getElem?_singleton] at hu
      split at hu
      · cases hu
        have hu : u = s.tensors.length := by omega
        change ManagedTensor.Sound _ (s.recordsOf u) 1
        rw [hu, hnone]
        refine ⟨rfl, ?_, by simp, fun _ => rfl, fun _ => rfl⟩
        dsimp only
        split <;> rfl
      · cases hu
  · rw [Extension.produce, List.length_append]
    exact ⟨Nat.lt_add_right _ (h.bounded r hr).1, (h.bounded r hr).2⟩
  · intro r hr hu'
    have hlt := (h.bounded r hr).1
    rw [hu'] at hlt
    rw [Extension.produce, List.getElem?_append_left hlt] at hu
    exact h.kept u n hu hn r hr hu'

theorem mem_records (h : Sound s) {r : Record} : r ∈ s.records ↔ r ∈ s.retained ∧ r.owner ∉ s.dropped := by
  rw [h.records, List.mem_filter, decide_eq_true_iff]

theorem nodup_owners (h : Sound s) : (s.records.map (·.owner)).Nodup :=
  (List.nodup_append.mp (List.nodup_append.mp h.nodup).2.1).1

/-- An owner of which no record has the reference may be given back: the records stay the same. -/
theorem owner_ne (h : Sound s) {owner : Nat} (hfree : owner ∉ s.records.map (·.owner)) {r : Record}
    (hr : r ∈ s.retained) (hdropped : r.owner ∉ s.dropped) : r.owner ∉ owner :: s.dropped := by
  rw [List.mem_cons, not_or]
  refine ⟨fun heq => hfree ?_, hdropped⟩
  rw [← heq]
  exact List.mem_map_of_mem (h.mem_records.mpr ⟨hr, hdropped⟩)

theorem records_drop (h : Sound s) {owner : Nat} (hfree : owner ∉ s.records.map (·.owner)) :
    s.records = s.retained.filter fun r => decide (r.owner ∉ owner :: s.dropped) := by
  rw [h.records]
  refine List.filter_congr fun r hr => ?_
  rw [decide_eq_decide]
  exact ⟨h.owner_ne hfree hr, fun hmem hdropped => hmem (List.mem_cons_of_mem _ hdropped)⟩

theorem taken_not_mem (h : Sound s) : s.taken ∉ s.records.map (·.owner) := by
  intro hmem
  have := List.mem_range.mp (h.references.subset (List.mem_append_right _ (List.mem_append_left _ hmem)))
  omega

theorem retainOwner (h : Sound s) (ht : s.tensors[t]? = some m) (hc : m.capsule = some c) (hrefs : c.refs ≠ 0)
    (answer : RetainAnswer) : Sound (s.retainOwner t m c answer).2 := by
  unfold Extension.retainOwner
  split
  · exact h
  split
  · exact h
  split
  · exact h
  split
  · exact h
  have hvalid : c.valid = true := by simpa using ‹¬ (!c.valid) = true›
  have hm := (h.tensor t m ht).retain hc hrefs hvalid (r := ⟨t, m.deleter, s.taken⟩) rfl
  have hlt : t < s.tensors.length := (List.getElem?_eq_some_iff.mp ht).1
  have hrecords : ⟨t, m.deleter, s.taken⟩ :: s.records =
      (⟨t, m.deleter, s.taken⟩ :: s.retained).filter fun r => decide (r.owner ∉ s.dropped) := by
    rw [List.filter_cons_of_pos (by simpa using h.fresh), ← h.records]
  refine ⟨fun u n hu => ?_, fun r hr => ?_, ?_, ?_, fun u n hu hn r hr htensor => ?_⟩
  · rcases set_cases hu with ⟨rfl, rfl⟩ | ⟨hne, hu⟩
    · simp only [recordsOf, List.filter_cons_of_pos, decide_true]
      exact hm
    · simp only [recordsOf, List.filter_cons, hne, decide_false, Bool.false_eq_true, if_false]
      exact h.tensor u n hu
  · simp only [Extension.setTensor, List.length_set]
    rcases List.mem_cons.mp hr with rfl | hr
    · exact ⟨hlt, Nat.lt_succ_self _⟩
    · exact ⟨(h.bounded r hr).1, Nat.lt_succ_of_lt (h.bounded r hr).2⟩
  · exact perm_range_succ h.references
  · exact hrecords
  · rcases List.mem_cons.mp hr with rfl | hr
    · exact h.fresh
    · rcases set_cases hu with ⟨rfl, rfl⟩ | ⟨-, hu⟩
      · exact h.kept t m ht hn r hr htensor
      · exact h.kept u n hu hn r hr htensor

theorem consumeCapsule (h : Sound s) (ht : s.tensors[t]? = some m) (hc : m.capsule = some c) (hrefs : c.refs ≠ 0)
    (width height : Nat) (answer : ConsumeAnswer) : Sound (s.consumeCapsule t m c width height answer).2 := by
  have hm := h.tensor t m ht
  have hrefused : Sound (s.setTensor t (m.decrefCapsule c)) :=
    h.setTensor ht (hm.decrefCapsule hc hrefs) .of_decrefCapsule
  unfold Extension.consumeCapsule
  split
  · exact hrefused
  split
  · exact hrefused
  split
  · exact hrefused
  split
  · exact hrefused
  split
  · exact hrefused
  have hvalid : c.valid = true := by simpa using ‹¬ (!c.valid) = true›
  have hused := hm.decrefUsed hc hrefs hvalid
  dsimp only
  split
  · exact h.setTensor ht hused.callDeleter fun hidle => absurd hidle ManagedTensor.not_idle_callDeleter
  split
  · refine h.setTensor ht (hused.hold.decrefHolder ?_ Nat.one_ne_zero) fun hidle => ?_
    · exact List.getElem?_concat_length
    · obtain ⟨hrunning, hended⟩ := ManagedTensor.Idle.of_decrefHolder hidle
      exact .of_decrefCapsule ⟨hrunning, hended⟩
  · exact h.setTensor ht hused.hold fun hidle => .of_decrefCapsule ⟨hidle.1, hidle.2⟩

theorem find?_record {r : Record} {rs : List Record} (hrecords : s.recordsOf t = r :: rs) :
    s.records.find? (·.tensor = t) = some r := by
  rw [← List.head?_filter, show s.records.filter _ = _ from hrecords, List.head?_cons]

theorem filter_unlinked {r : Record} {rs : List Record} (hrecords : s.recordsOf t = r :: rs) :
    (s.records.eraseP (·.tensor = t)).filter (·.tensor = t) = rs := by
  have heq := filter_eraseP (find?_record hrecords)
  rw [show s.records.filter _ = _ from hrecords] at heq
  exact (List.cons.inj heq).2.symm

/-- `retained_owner_delete` takes the first record of its tensor out of the list. -/
theorem unlink (h : Sound s) {r : Record} {rs : List Record}
    (hrecords : s.recordsOf t = r :: rs) (hm : m'.Sound rs 1) (hbusy : ¬ m'.Idle) :
    Sound { s.setTensor t m' with
      records := s.records.eraseP (·.tensor = t), dropped := r.owner :: s.dropped } := by
  have hfind := find?_record hrecords
  have hr := List.mem_of_find?_eq_some hfind
  have htensor : r.tensor = t := by simpa using List.find?_some hfind
  refine ⟨fun u n hu => ?_, fun r' hr' => ?_, ?_, ?_, fun u n hu hn r' hr' htensor' => ?_⟩
  · rcases set_cases hu with ⟨rfl, rfl⟩ | ⟨hne, hu⟩
    · rw [recordsOf, filter_unlinked hrecords]
      exact hm
    · have hother : (s.records.eraseP (·.tensor = t)).filter (·.tensor = u) = s.recordsOf u := by
        refine filter_eraseP_of_disjoint hfind (decide_eq_false ?_)
        rw [htensor]
        exact hne
      rw [recordsOf, hother]
      exact h.tensor u n hu
  · simp only [Extension.setTensor, List.length_set]
    exact h.bounded r' hr'
  · refine List.Perm.trans ?_ h.references
    refine List.perm_middle.symm.trans (List.Perm.append_left _ ?_)
    exact List.Perm.append_right _ ((perm_eraseP hfind).map (·.owner)).symm
  · refine (eraseP_eq_filter h.nodup_owners hfind).trans ?_
    rw [h.records, List.filter_filter]
    refine List.filter_congr fun r' _ => ?_
    simp only [List.mem_cons, not_or, Bool.decide_and]
  · rcases set_cases hu with ⟨rfl, rfl⟩ | ⟨hne, hu⟩
    · exact absurd hn hbusy
    · have hdropped := h.kept u n hu hn r' hr' htensor'
      rw [List.mem_cons, not_or]
      refine ⟨fun heq => hne ?_, hdropped⟩
      rw [← List.inj_on_of_nodup_map h.nodup_owners (h.mem_records.mpr ⟨hr', hdropped⟩) hr heq] at htensor
      exact htensor.symm.trans htensor'

/-- While `retained_owner_delete` runs for a tensor, the tensor has a record. -/
theorem exists_record (h : Sound s) (ht : s.tensors[t]? = some m) {rest : List Deleter}
    (hd : m.running = .retainedOwnerDelete :: rest) : ∃ r rs, s.recordsOf t = r :: rs := by
  have hchain := (h.tensor t m ht).chain_running hd
  cases hrecords : s.recordsOf t with
  | cons r rs => exact ⟨r, rs, rfl⟩
  | nil =>
      rw [hrecords] at hchain
      cases horiginal : m.original <;> rw [horiginal] at hchain <;> cases hchain

/-- The next step of a deleter. -/
theorem resume (h : Sound s) (ht : s.tensors[t]? = some m) {d : Deleter} {rest : List Deleter}
    (hd : m.running = d :: rest) : Sound (s.resume t m d rest) := by
  have hm := h.tensor t m ht
  cases d with
  | null =>
      refine absurd ?_ hm.running
      rw [hd]
      exact List.mem_cons_self
  | original => exact h.setTensor ht (hm.original hd) fun hidle => absurd hidle.2 (Nat.succ_ne_zero _)
  | retainedOwnerDelete =>
      obtain ⟨r, rs, hrecords⟩ := h.exists_record ht hd
      rw [hrecords] at hm
      unfold Extension.resume
      rw [find?_record hrecords]
      dsimp only
      split
      case isTrue hnull =>
        exact h.unlink hrecords (hm.unlink_null hd hnull) fun hidle => absurd hidle.2 (Nat.succ_ne_zero _)
      case isFalse hnull =>
        exact h.unlink hrecords (hm.unlink hd hnull) fun hidle => absurd hidle.1 (List.cons_ne_nil _ _)

theorem freeExternal (h : Sound s) {owner : Nat} (ho : owner ∈ s.externals) : Sound (s.freeExternal owner) := by
  have hfree : owner ∉ s.records.map (·.owner) := fun hmem =>
    (List.nodup_append.mp (List.nodup_append.mp h.nodup).2.1).2.2 owner hmem owner ho rfl
  refine ⟨h.tensor, h.bounded, ?_, h.records_drop hfree, fun u n hu hn r hr htensor =>
    h.owner_ne hfree hr (h.kept u n hu hn r hr htensor)⟩
  refine List.Perm.trans ?_ h.references
  refine List.perm_middle.symm.trans (List.Perm.append_left _ ?_)
  exact List.perm_middle.symm.trans (List.Perm.append_left _ (List.perm_cons_erase ho).symm)

theorem externalOwnerCreate (h : Sound s) (answer : ExternalAnswer) : Sound (s.externalOwnerCreate answer).2 := by
  have hbounded : ∀ r ∈ s.retained, r.tensor < s.tensors.length ∧ r.owner < s.taken + 1 := fun r hr =>
    ⟨(h.bounded r hr).1, Nat.lt_succ_of_lt (h.bounded r hr).2⟩
  cases answer with
  | malloc => exact h
  | pack =>
      refine ⟨h.tensor, hbounded, ?_, h.records_drop h.taken_not_mem, fun u n hu hn r hr htensor =>
        h.owner_ne h.taken_not_mem hr (h.kept u n hu hn r hr htensor)⟩
      exact List.perm_middle.symm.trans (perm_range_succ h.references)
  | ok =>
      refine ⟨h.tensor, hbounded, ?_, h.records, h.kept⟩
      refine List.Perm.trans ?_ (perm_range_succ h.references)
      exact List.Perm.append_left _ List.perm_middle

/-- Every operation preserves the invariant. -/
theorem run (h : Sound s) {op : Op} {answer : Except DlpackError Reply × Extension} (hr : s.run op = some answer) :
    Sound answer.2 := by
  cases op with
  | produce tensor original =>
      cases hr
      exact h.produce tensor original
  | capsuleFromAddress address capsuleNew =>
      cases address with
      | raises | null =>
          cases hr
          exact h
      | pointer t =>
          obtain ⟨m, ht, hr⟩ := Option.bind_eq_some_iff.mp hr
          split at hr
          · cases hr
          · rename_i hcallers
            cases hr
            unfold Extension.capsuleFromAddress
            split
            · exact h
            · exact h.setTensor ht ((h.tensor t m ht).wrap hcallers) id
  | reclaim t =>
      obtain ⟨m, ht, hr⟩ := Option.bind_eq_some_iff.mp hr
      split at hr
      · cases hr
      · rename_i hcallers
        cases hr
        exact h.setTensor ht ((h.tensor t m ht).reclaim hcallers) fun hidle =>
          absurd hidle ManagedTensor.not_idle_callDeleter
  | incref t =>
      obtain ⟨⟨m, c⟩, hlive, hr⟩ := Option.bind_eq_some_iff.mp hr
      obtain ⟨ht, hc, hrefs⟩ := live_eq hlive
      cases hr
      exact h.setTensor ht ((h.tensor t m ht).incref hc hrefs) id
  | decref t =>
      obtain ⟨⟨m, c⟩, hlive, hr⟩ := Option.bind_eq_some_iff.mp hr
      obtain ⟨ht, hc, hrefs⟩ := live_eq hlive
      cases hr
      exact h.setTensor ht ((h.tensor t m ht).decrefCapsule hc hrefs) .of_decrefCapsule
  | retainOwner t answer =>
      obtain ⟨⟨m, c⟩, hlive, hr⟩ := Option.bind_eq_some_iff.mp hr
      obtain ⟨ht, hc, hrefs⟩ := live_eq hlive
      cases hr
      exact h.retainOwner ht hc hrefs answer
  | foreign t =>
      obtain ⟨⟨m, c⟩, hlive, hr⟩ := Option.bind_eq_some_iff.mp hr
      obtain ⟨ht, hc, hrefs⟩ := live_eq hlive
      dsimp only at hr
      split at hr
      · cases hr
      · cases hr
        exact h.setTensor ht ((h.tensor t m ht).rename hc hrefs (by simpa using ‹¬ (!c.valid) = true›)) id
  | delete t =>
      obtain ⟨m, ht, hr⟩ := Option.bind_eq_some_iff.mp hr
      split at hr
      · cases hr
      · rename_i hconsumers
        cases hr
        exact h.setTensor ht ((h.tensor t m ht).delete hconsumers) fun hidle =>
          absurd hidle ManagedTensor.not_idle_callDeleter
  | consumeNv12 width height answer =>
      rw [Extension.run, Extension.consumeNv12] at hr
      split at hr
      · cases hr
        exact h
      split at hr
      · cases hr
        exact h
      split at hr
      · cases hr
        exact h
      · cases hr
        exact h
      · obtain ⟨m, ht, hr⟩ := Option.bind_eq_some_iff.mp hr
        obtain ⟨c, hc, hr⟩ := Option.bind_eq_some_iff.mp hr
        split at hr
        · cases hr
        · rename_i hrefs
          cases hr
          exact h.consumeCapsule ht hc hrefs width height answer
  | increfHolder t i =>
      obtain ⟨⟨m, refs⟩, hlive, hr⟩ := Option.bind_eq_some_iff.mp hr
      obtain ⟨ht, hi, hrefs⟩ := liveHolder_eq hlive
      cases hr
      exact h.setTensor ht ((h.tensor t m ht).increfHolder hi hrefs) id
  | decrefHolder t i =>
      obtain ⟨⟨m, refs⟩, hlive, hr⟩ := Option.bind_eq_some_iff.mp hr
      obtain ⟨ht, hi, hrefs⟩ := liveHolder_eq hlive
      cases hr
      exact h.setTensor ht ((h.tensor t m ht).decrefHolder hi hrefs) .of_decrefHolder
  | resume t =>
      obtain ⟨m, ht, hr⟩ := Option.bind_eq_some_iff.mp hr
      split at hr
      · cases hr
      · rename_i hd
        cases hr
        exact h.resume ht hd
  | externalOwnerCreate answer =>
      cases hr
      exact h.externalOwnerCreate answer
  | externalOwnerCancel argument =>
      cases argument with
      | raises | null =>
          cases hr
          exact h
      | pointer owner =>
          rw [Extension.run] at hr
          split at hr
          · rename_i ho
            cases hr
            exact h.freeExternal ho
          · cases hr
  | externalOwnerRelease opaquePointer =>
      cases opaquePointer with
      | none =>
          cases hr
          exact h
      | some owner =>
          rw [Extension.run] at hr
          split at hr
          · rename_i ho
            cases hr
            exact h.freeExternal ho
          · cases hr

theorem step (h : Sound s) {op : Op} (hst : s.step op = some s') : Sound s' := by
  obtain ⟨answer, hr, rfl⟩ := Option.map_eq_some_iff.mp hst
  exact h.run hr

end Sound

/-! ## Every deletion that begins comes to its end -/

theorem get_setTensor (ht : s.tensors[t]? = some m) : (s.setTensor t m').tensors[t]? = some m' := by
  rw [Extension.setTensor, List.getElem?_set_self (List.getElem?_eq_some_iff.mp ht).1]

theorem step_resume {d : Deleter} {rest : List Deleter} (ht : s.tensors[t]? = some m) (hd : m.running = d :: rest) :
    s.step (.resume t) = some (s.resume t m d rest) := by
  rw [step, run, ht, Option.bind_eq_bind, Option.bind_some, hd]
  rfl

/-- The deleters that were called for a tensor run to the end, when nothing comes between. -/
def Ends (s : Extension) (t : Nat) : Prop :=
  ∃ k s' m', Run (fun s op s' => s.step op = some s') s (List.replicate k (Op.resume t)) s' ∧
    s'.tensors[t]? = some m' ∧ m'.running = [] ∧ m'.ended = 1

/-- Each step of `retained_owner_delete` takes a record of the tensor away. -/
theorem Sound.ends {k : Nat} (h : Sound s) (ht : s.tensors[t]? = some m) (hrunning : m.running ≠ [])
    (hk : (s.recordsOf t).length = k) : s.Ends t := by
  induction k using Nat.strongRecOn generalizing s m with
  | ind k ih =>
      obtain ⟨d, rest, hd⟩ := List.exists_cons_of_ne_nil hrunning
      obtain ⟨hrest, hended⟩ := (h.tensor t m ht).alone hd
      have hst := step_resume ht hd
      have hafter := h.resume ht hd
      cases d with
      | null =>
          refine absurd ?_ (h.tensor t m ht).running
          rw [hd]
          exact List.mem_cons_self
      | original => exact ⟨1, _, _, .single hst, get_setTensor ht, hrest, congrArg (· + 1) hended⟩
      | retainedOwnerDelete =>
          obtain ⟨r, rs, hrecords⟩ := h.exists_record ht hd
          unfold Extension.resume at hst hafter
          rw [Sound.find?_record hrecords] at hst hafter
          dsimp only at hst hafter
          split at hst
          case isTrue hnull => exact ⟨1, _, _, .single hst, get_setTensor ht, hrest, congrArg (· + 1) hended⟩
          case isFalse hnull =>
            rw [if_neg hnull] at hafter
            have hless : rs.length < k := by
              rw [hrecords, List.length_cons] at hk
              omega
            obtain ⟨j, s', m', hrun, ht', hend⟩ := ih rs.length hless hafter (get_setTensor ht) (List.cons_ne_nil _ _)
              (congrArg List.length (Sound.filter_unlinked hrecords))
            refine ⟨j + 1, s', m', ?_, ht', hend⟩
            rw [List.replicate_succ]
            exact .cons hst hrun

/-! ## Runs -/

/-- Everything was released and no deleter is at work. -/
def Settled (s : Extension) : Prop :=
  s.externals = [] ∧ ∀ m ∈ s.tensors, m.callers = 0 ∧ m.capsule.elim 0 Capsule.responsible = 0 ∧ m.consumers = 0 ∧
    (∀ refs ∈ m.holders, refs = 0) ∧ m.running = []

/-- The references are in balance. -/
structure Balanced (s : Extension) : Prop where
  custody : ∀ m ∈ s.tensors, m.custodians = 1
  deleted : ∀ m ∈ s.tensors, m.runs = if m.original then m.ended else 0
  ends : ∀ t (m : ManagedTensor), s.tensors[t]? = some m → m.running ≠ [] → s.Ends t
  owners : (s.dropped ++ (s.records.map (·.owner) ++ s.externals)).Perm (List.range s.taken)
  retained : ∀ r ∈ s.retained, r ∈ s.records ∨ r.owner ∈ s.dropped
  undeleted : ∀ r ∈ s.records, ∃ m, s.tensors[r.tensor]? = some m ∧ m.ended = 0
  linked : ∀ r ∈ s.retained, ∀ m, s.tensors[r.tensor]? = some m → m.Idle → r ∈ s.records
  records : (∀ m ∈ s.tensors, m.running = []) →
    s.records = s.retained.filter fun r => s.tensors[r.tensor]?.any fun m => decide (m.ended = 0)
  settled : s.Settled → (∀ m ∈ s.tensors, m.runs = if m.original then 1 else 0) ∧
    s.dropped.Perm (List.range s.taken) ∧ s.records = []

namespace Sound

theorem undeleted (h : Sound s) {r : Record} (hr : r ∈ s.records) :
    ∃ m, s.tensors[r.tensor]? = some m ∧ m.ended = 0 := by
  have hlt := (h.bounded r (h.mem_records.mp hr).1).1
  refine ⟨s.tensors[r.tensor], List.getElem?_eq_getElem hlt, ?_⟩
  by_contra hended
  have hnone := (h.tensor r.tensor _ (List.getElem?_eq_getElem hlt)).cleared hended
  exact List.filter_eq_nil_iff.mp hnone r hr (decide_eq_true rfl)

theorem linked (h : Sound s) {r : Record} (hr : r ∈ s.retained) (ht : s.tensors[r.tensor]? = some m)
    (hidle : m.Idle) : r ∈ s.records := h.mem_records.mpr ⟨hr, h.kept r.tensor m ht hidle r hr rfl⟩

theorem records_eq (h : Sound s) (hrunning : ∀ m ∈ s.tensors, m.running = []) :
    s.records = s.retained.filter fun r => s.tensors[r.tensor]?.any fun m => decide (m.ended = 0) := by
  conv_lhs => rw [h.records]
  refine List.filter_congr fun r hr => Bool.eq_iff_iff.mpr ?_
  rw [decide_eq_true_iff]
  refine ⟨fun hdropped => ?_, fun hany => ?_⟩
  · obtain ⟨m, ht, hended⟩ := h.undeleted (h.mem_records.mpr ⟨hr, hdropped⟩)
    rw [ht, Option.any_some, decide_eq_true_iff]
    exact hended
  · rw [Option.any_eq_true] at hany
    obtain ⟨m, ht, hended⟩ := hany
    exact h.kept r.tensor m ht ⟨hrunning m (List.mem_of_getElem? ht), of_decide_eq_true hended⟩ r hr rfl

/-- A tensor that nothing is responsible for any more is deleted. -/
theorem ended_eq_one (h : Sound s) (hsettled : s.Settled) (hm : m ∈ s.tensors) : m.ended = 1 := by
  obtain ⟨t, ht⟩ := List.mem_iff_getElem?.mp hm
  have hcustody := (h.tensor t m ht).custody
  obtain ⟨hcallers, hcapsule, hconsumers, hholders, hrunning⟩ := hsettled.2 m hm
  have hholders : m.holders.countP (fun refs => decide (0 < refs)) = 0 := by
    refine List.countP_eq_zero.mpr fun refs hrefs => ?_
    simp only [hholders refs hrefs, Nat.lt_irrefl, decide_false, Bool.false_eq_true, not_false_eq_true]
  simp only [ManagedTensor.custodians, hholders, hcapsule, hcallers, hconsumers, hrunning, List.length_nil] at hcustody
  omega

theorem settled (h : Sound s) (hsettled : s.Settled) : (∀ m ∈ s.tensors, m.runs = if m.original then 1 else 0) ∧
    s.dropped.Perm (List.range s.taken) ∧ s.records = [] := by
  have hrecords : s.records = [] := by
    refine List.eq_nil_iff_forall_not_mem.mpr fun r hr => ?_
    obtain ⟨m, ht, hended⟩ := h.undeleted hr
    have := h.ended_eq_one hsettled (List.mem_of_getElem? ht)
    omega
  refine ⟨fun m hm => ?_, ?_, hrecords⟩
  · obtain ⟨t, ht⟩ := List.mem_iff_getElem?.mp hm
    rw [(h.tensor t m ht).runs, h.ended_eq_one hsettled hm]
  · have hreferences := h.references
    rw [hrecords, hsettled.1, List.map_nil, List.append_nil, List.append_nil] at hreferences
    exact hreferences

theorem balanced (h : Sound s) : s.Balanced where
  custody m hm := by
    obtain ⟨t, ht⟩ := List.mem_iff_getElem?.mp hm
    exact (h.tensor t m ht).custody
  deleted m hm := by
    obtain ⟨t, ht⟩ := List.mem_iff_getElem?.mp hm
    exact (h.tensor t m ht).runs
  ends t m ht hrunning := h.ends ht hrunning rfl
  owners := h.references
  retained r hr := by
    by_cases hdropped : r.owner ∈ s.dropped
    · exact .inr hdropped
    · exact .inl (h.mem_records.mpr ⟨hr, hdropped⟩)
  undeleted r hr := h.undeleted hr
  linked r hr m ht hidle := h.linked hr ht hidle
  records := h.records_eq
  settled := h.settled

end Sound

/-! ## Holders of external owners -/

/-- A call of `external_owner_cancel` or `external_owner_release` for the holder of `owner`. -/
def Op.frees (owner : Nat) : Op → Bool
  | .externalOwnerCancel (.pointer freed) | .externalOwnerRelease (some freed) => decide (freed = owner)
  | _ => false

/-- What was given back stays so, and a live holder stays live until it is freed. -/
structure Follows (s : Extension) (frees : Nat → Bool) (s' : Extension) : Prop where
  dropped : s.dropped ⊆ s'.dropped
  freed : ∀ owner, frees owner = true → owner ∈ s'.dropped
  live : ∀ owner ∈ s.externals, frees owner = false → owner ∈ s'.externals

theorem Follows.of_eq (hdropped : s'.dropped = s.dropped) (hexternals : s'.externals = s.externals) :
    s.Follows (fun _ => false) s' :=
  ⟨by rw [hdropped]; exact List.Subset.refl _, nofun, fun owner hlive _ => by rw [hexternals]; exact hlive⟩

theorem Follows.refl (s : Extension) : s.Follows (fun _ => false) s := .of_eq rfl rfl

theorem Follows.setTensor {frees : Nat → Bool} (h : s.Follows frees s') (t : Nat) (m : ManagedTensor) :
    s.Follows frees (s'.setTensor t m) := ⟨h.dropped, h.freed, h.live⟩

theorem follows_setTensor (s : Extension) (t : Nat) (m : ManagedTensor) : s.Follows (fun _ => false) (s.setTensor t m) :=
  (Follows.refl s).setTensor t m

theorem Follows.freeExternal (s : Extension) (freed : Nat) :
    s.Follows (fun owner => decide (freed = owner)) (s.freeExternal freed) where
  dropped := List.subset_cons_self ..
  freed owner howner := by
    obtain rfl := of_decide_eq_true howner
    exact List.mem_cons_self
  live owner hlive hother := List.mem_erase_of_ne (Ne.symm (of_decide_eq_false hother)) |>.mpr hlive

theorem follows_consumeCapsule (s : Extension) (t : Nat) (m : ManagedTensor) (c : Capsule) (width height : Nat)
    (answer : ConsumeAnswer) : s.Follows (fun _ => false) (s.consumeCapsule t m c width height answer).2 := by
  unfold consumeCapsule
  split
  · exact follows_setTensor ..
  split
  · exact follows_setTensor ..
  split
  · exact follows_setTensor ..
  split
  · exact follows_setTensor ..
  split
  · exact follows_setTensor ..
  dsimp only
  split
  · exact follows_setTensor ..
  split
  · exact follows_setTensor ..
  · exact follows_setTensor ..

theorem follows_resume (s : Extension) (t : Nat) (m : ManagedTensor) (d : Deleter) (rest : List Deleter) :
    s.Follows (fun _ => false) (s.resume t m d rest) := by
  unfold resume
  split
  · exact follows_setTensor ..
  · exact follows_setTensor ..
  · split
    · exact follows_setTensor ..
    · rename_i r hr
      have hrecord : s.Follows (fun _ => false)
          { s with records := s.records.eraseP (·.tensor = t), dropped := r.owner :: s.dropped } :=
        ⟨List.subset_cons_self .., nofun, fun _ hlive _ => hlive⟩
      dsimp only
      split
      · exact hrecord.setTensor ..
      · exact hrecord.setTensor ..

theorem follows_consumeNv12 {width height : Nat} {answer : ConsumeAnswer} {reply : Except DlpackError Reply × Extension}
    (hr : s.consumeNv12 width height answer = some reply) : s.Follows (fun _ => false) reply.2 := by
  rw [Extension.consumeNv12] at hr
  split at hr
  · cases hr
    exact .refl s
  split at hr
  · cases hr
    exact .refl s
  split at hr
  · cases hr
    exact .refl s
  · cases hr
    exact .refl s
  · obtain ⟨m, -, hr⟩ := Option.bind_eq_some_iff.mp hr
    obtain ⟨c, -, hr⟩ := Option.bind_eq_some_iff.mp hr
    split at hr
    · cases hr
    · cases hr
      exact follows_consumeCapsule ..

theorem follows_step {op : Op} (hst : s.step op = some s') : s.Follows op.frees s' := by
  obtain ⟨reply, hr, rfl⟩ := Option.map_eq_some_iff.mp hst
  cases op with
  | produce tensor original =>
      cases hr
      exact .of_eq rfl rfl
  | capsuleFromAddress address capsuleNew =>
      cases address with
      | raises | null =>
          cases hr
          exact .refl s
      | pointer t =>
          obtain ⟨m, -, hr⟩ := Option.bind_eq_some_iff.mp hr
          split at hr
          · cases hr
          · cases hr
            unfold Extension.capsuleFromAddress
            split
            · exact .refl s
            · exact follows_setTensor ..
  | reclaim t | delete t =>
      obtain ⟨m, -, hr⟩ := Option.bind_eq_some_iff.mp hr
      split at hr
      · cases hr
      · cases hr
        exact follows_setTensor ..
  | incref t | decref t | increfHolder t i | decrefHolder t i =>
      obtain ⟨_, -, hr⟩ := Option.bind_eq_some_iff.mp hr
      cases hr
      exact follows_setTensor ..
  | retainOwner t answer =>
      obtain ⟨⟨m, c⟩, -, hr⟩ := Option.bind_eq_some_iff.mp hr
      cases hr
      unfold Extension.retainOwner
      split
      · exact .refl s
      split
      · exact .refl s
      split
      · exact .refl s
      split
      · exact .refl s
      · exact .of_eq rfl rfl
  | foreign t =>
      obtain ⟨⟨m, c⟩, -, hr⟩ := Option.bind_eq_some_iff.mp hr
      dsimp only at hr
      split at hr
      · cases hr
      · cases hr
        exact follows_setTensor ..
  | consumeNv12 width height answer => exact follows_consumeNv12 hr
  | resume t =>
      obtain ⟨m, -, hr⟩ := Option.bind_eq_some_iff.mp hr
      split at hr
      · cases hr
      · cases hr
        exact follows_resume ..
  | externalOwnerCreate answer =>
      cases hr
      cases answer with
      | malloc => exact .refl s
      | pack => exact ⟨List.subset_cons_self .., nofun, fun _ hlive _ => hlive⟩
      | ok => exact ⟨List.Subset.refl _, nofun, fun _ hlive _ => List.mem_cons_of_mem _ hlive⟩
  | externalOwnerCancel argument =>
      cases argument with
      | raises | null =>
          cases hr
          exact .refl s
      | pointer freed =>
          rw [Extension.run] at hr
          split at hr
          · cases hr
            exact .freeExternal s freed
          · cases hr
  | externalOwnerRelease opaquePointer =>
      cases opaquePointer with
      | none =>
          cases hr
          exact .refl s
      | some freed =>
          rw [Extension.run] at hr
          split at hr
          · cases hr
            exact .freeExternal s freed
          · cases hr

/-- A live holder at the end of a run: its reference was given back by the call that freed it, or is still there. -/
theorem run_frees {ops : List Op} {owner : Nat} (h : Run (fun s op s' => s.step op = some s') s ops s')
    (hlive : owner ∈ s.externals) :
    if ops.any (·.frees owner) then owner ∈ s'.dropped else owner ∈ s'.externals := by
  induction h with
  | nil => exact hlive
  | @snoc ops u op s' _ hst ih =>
      have hfollows := follows_step hst
      rw [List.any_append, List.any_cons, List.any_nil, Bool.or_false]
      cases hfreed : ops.any (·.frees owner) with
      | true =>
          rw [hfreed, if_pos rfl] at ih
          exact hfollows.dropped ih
      | false =>
          rw [hfreed, if_neg Bool.false_ne_true] at ih
          rw [Bool.false_or]
          split
          case isTrue hnow => exact hfollows.freed owner hnow
          case isFalse hnow => exact hfollows.live owner ih (by simpa using hnow)

/-- A reference is given back once, or is still held. -/
theorem Sound.dropped_once (h : Sound s) {owner : Nat} (hdropped : owner ∈ s.dropped) :
    s.dropped.count owner = 1 ∧ owner ∉ s.externals := by
  obtain ⟨hnodup, -, hdisjoint⟩ := List.nodup_append.mp h.nodup
  refine ⟨List.count_eq_one_of_mem hnodup hdropped, fun hlive => ?_⟩
  exact hdisjoint owner hdropped owner (List.mem_append_right _ hlive) rfl

theorem Sound.live_once (h : Sound s) {owner : Nat} (hlive : owner ∈ s.externals) : s.dropped.count owner = 0 :=
  List.count_eq_zero_of_not_mem fun hdropped => (h.dropped_once hdropped).2 hlive

/-- Along any calls of the module and of those who use its capsules and tensors, whatever fails: one place is
responsible for each tensor or its deletion has ended, which runs the deleter of its producer once; each owner that was
retained is given back once; the list has the records of the tensors that are not deleted; and the owner of a holder is
given back, once, when the holder is canceled or released, and not before. -/
theorem references_balanced {ops : List Op} (h : Run (fun s op s' => s.step op = some s') new ops s) :
    s.Balanced ∧
    ∀ {ops₁ ops₂ : List Op} {u v : Extension}, Run (fun s op s' => s.step op = some s') new ops₁ u →
      u.step (.externalOwnerCreate .ok) = some v → Run (fun s op s' => s.step op = some s') v ops₂ s →
      if ops₂.any (·.frees u.taken) then s.dropped.count u.taken = 1 ∧ u.taken ∉ s.externals
      else s.dropped.count u.taken = 0 ∧ u.taken ∈ s.externals := by
  have hsound : Sound s := h.invariant (I := Sound) .new fun h hst => h.step hst
  refine ⟨hsound.balanced, fun {ops₁ ops₂ u v} _ hcreate hrest => ?_⟩
  cases hcreate
  have hend := run_frees hrest (List.mem_cons_self : u.taken ∈ u.taken :: u.externals)
  split at hend
  · rename_i hfreed
    rw [if_pos hfreed]
    exact hsound.dropped_once hend
  · rename_i hkept
    rw [if_neg hkept]
    exact ⟨hsound.live_once hend, hend⟩

/-- A tensor is retained for two owners and consumed, and its holder goes. -/
def consumedRun : List Op :=
  [.produce ⟨4096, 2, 0, 2, 1, 8, 1, some [6, 4], some [4, 1], 0⟩ true, .capsuleFromAddress (.pointer 0) true,
    .retainOwner 0 ⟨true, true, true⟩, .retainOwner 0 ⟨true, true, true⟩, .decref 0, .decref 0,
    .consumeNv12 4 4 ⟨true, .capsule 0, true, true, true, true, true⟩, .decrefHolder 0 0, .resume 0, .resume 0, .resume 0]

/-- Behind it an external owner gets a holder, which is canceled. -/
theorem references_balanced_consumed : ∃ u v s : Extension,
    Run (fun s op s' => s.step op = some s') new consumedRun u ∧ u.step (.externalOwnerCreate .ok) = some v ∧
      v.step (.externalOwnerCancel (.pointer 2)) = some s ∧ s.Balanced ∧ s.Settled ∧ u.dropped = [0, 1] ∧ s.dropped = [2, 0, 1] ∧
      s.dropped.count 2 = 1 ∧ 2 ∉ s.externals := by
  have hrun : ∃ u v s : Extension, exec step new consumedRun = some u ∧ u.step (.externalOwnerCreate .ok) = some v ∧
      v.step (.externalOwnerCancel (.pointer 2)) = some s ∧ s.Settled ∧ u.taken = 2 ∧ u.dropped = [0, 1] ∧ s.dropped = [2, 0, 1] :=
    ⟨_, _, _, rfl, rfl, rfl,
      ⟨rfl, List.forall_mem_singleton.mpr ⟨rfl, rfl, rfl, List.forall_mem_singleton.mpr rfl, rfl⟩⟩, rfl, rfl, rfl⟩
  obtain ⟨u, v, s, hexec, hcreate, hcancel, hsettled, htaken, hbefore, hdropped⟩ := hrun
  have hfirst : Run (fun s op s' => s.step op = some s') new consumedRun u := .of_exec hexec
  obtain ⟨hbalanced, hholders⟩ := references_balanced ((hfirst.snoc hcreate).snoc hcancel)
  have hholder := hholders hfirst hcreate (.single hcancel)
  have hfreed : [Op.externalOwnerCancel (.pointer 2)].any (·.frees 2) = true := rfl
  rw [htaken, if_pos hfreed] at hholder
  exact ⟨u, v, s, hfirst, hcreate, hcancel, hbalanced, hsettled, hbefore, hdropped, hholder⟩

end Extension

end MkvCodec.Python.Dlpack
