import MkvCodec.Gpu.NvencSession

/-!
# What an NVENC session owns

Everything that the driver has created for a session is in its fields or was destroyed, whichever calls were made and
wherever the driver has failed.
-/

namespace MkvCodec.Gpu

open Concurrency Resources

variable {γ φ : Type*}

/-! ## The fields of a session -/

namespace NvencResource

/-- Buffers stand on an encoder, and an encoder on its context. -/
def rank : NvencResource γ → Nat
  | .context _ => 0
  | .encoder _ => 1
  | .input _ => 2
  | .output _ => 2

theorem rank_le (r : NvencResource γ) : r.rank ≤ 2 := by
  cases r <;> simp [rank]

def On (r' r : NvencResource γ) : Prop := r.rank < r'.rank

/-- The number that the driver has given to it. -/
def number : NvencResource γ → Option Nat
  | .context (.own n) => some n
  | .context (.external _) => none
  | .encoder n => some n
  | .input n => some n
  | .output n => some n

end NvencResource

namespace NvencSession

/-- The resources in the fields that the session has to destroy. -/
def owned (s : NvencSession γ) : List (NvencResource γ) :=
  (s.input.map .input).toList ++ ((s.output.map .output).toList ++ ((s.encoder.map .encoder).toList ++
    if s.ownsContext then (s.context.map .context).toList else []))

/-- The fields are filled in the order of the calls that fill them. -/
structure Filled (s : NvencSession γ) : Prop where
  buffers : s.encoder = none → s.input = none ∧ s.output = none
  encoder : s.context = none → s.encoder = none
  owns : s.ownsContext = true ↔ ∃ n, s.context = some (.own n)

theorem filled_empty : (Nvenc.empty : NvencSession γ).Filled := ⟨fun _ => ⟨rfl, rfl⟩, fun _ => rfl, by simp [Nvenc.empty]⟩

end NvencSession

namespace Nvenc

variable {a : Nvenc γ}

structure Sound (a : Nvenc γ) : Prop where
  holds : Holds NvencResource.On a.events a.session.owned
  fresh : ∀ r, .create r ∈ a.events → ∃ n < a.next, r.number = some n
  filled : a.session.Filled

theorem Sound.new_ne (h : a.Sound) {r : NvencResource γ} (hr : r.number = some a.next) : .create r ∉ a.events := by
  intro hmem
  obtain ⟨n, hlt, hn⟩ := h.fresh r hmem
  rw [hr] at hn
  cases hn
  exact Nat.lt_irrefl _ hlt

/-- Something new is created, and the session has got it. -/
theorem Sound.create (h : a.Sound) {resource : Nat → NvencResource γ} (hr : (resource a.next).number = some a.next)
    {session : NvencSession γ} (howned : (resource a.next :: a.session.owned).Perm session.owned)
    (hfilled : session.Filled) : Sound { a.create resource with session := session } := by
  refine ⟨(h.holds.create (h.new_ne hr)).perm howned, fun r hmem => ?_, hfilled⟩
  rcases List.mem_cons.mp hmem with heq | hmem
  · cases heq
    exact ⟨a.next, Nat.lt_succ_self _, hr⟩
  · obtain ⟨n, hlt, hn⟩ := h.fresh r hmem
    exact ⟨n, Nat.lt_succ_of_lt hlt, hn⟩

/-! ## The two functions -/

theorem Sound.createBuffers (h : a.Sound) {encoder : Nat} (hencoder : a.session.encoder = some encoder)
    (hinput : a.session.input = none) (houtput : a.session.output = none) (answer : InitializeAnswer) :
    (a.createBuffers answer).1.Sound ∧ (a.createBuffers answer).1.session.context = a.session.context := by
  obtain ⟨hbuffers, hcontext, howns⟩ := h.filled
  simp only [Nvenc.createBuffers]
  split
  · exact ⟨h, rfl⟩
  have hin : Sound { a.create .input with session := { a.session with input := some a.next } } := by
    refine h.create rfl (List.Perm.of_eq ?_) ⟨fun hnone => ?_, hcontext, howns⟩
    · simp [NvencSession.owned, hinput]
    · rw [hencoder] at hnone
      cases hnone
  split
  · exact ⟨hin, rfl⟩
  · refine ⟨hin.create rfl ?_ ⟨fun hnone => ?_, hcontext, howns⟩, rfl⟩
    · simp only [NvencSession.owned, houtput]
      exact List.Perm.swap _ _ _
    · rw [show _ = some encoder from hencoder] at hnone
      cases hnone

theorem Sound.openEncoder (h : a.Sound) (hcontext : a.session.context ≠ none) (hencoder : a.session.encoder = none)
    (answer : InitializeAnswer) :
    (a.openEncoder answer).1.Sound ∧ (a.openEncoder answer).1.session.context = a.session.context := by
  obtain ⟨hinput, houtput⟩ := h.filled.buffers hencoder
  have hhandle : Sound { a.create .encoder with session := { a.session with encoder := some a.next } } := by
    refine h.create rfl (List.Perm.of_eq ?_) ⟨nofun, fun hnone => absurd hnone hcontext, h.filled.owns⟩
    simp [NvencSession.owned, hinput, houtput, hencoder]
  simp only [Nvenc.openEncoder]
  split
  · exact ⟨h, rfl⟩
  · exact ⟨hhandle, rfl⟩
  · split
    · exact ⟨hhandle, rfl⟩
    split
    · exact ⟨hhandle, rfl⟩
    · exact hhandle.createBuffers rfl hinput houtput answer

/-- The context that a session is meant to have. -/
def Meant (external : Option γ) : Option (CudaContext γ) → Prop
  | none => False
  | some (.own _) => external = none
  | some (.external context) => external = some context

theorem meant_some {external : γ} {context : Option (CudaContext γ)} :
    Meant (some external) context ↔ context = some (.external external) := by
  cases context with
  | none => simp [Meant]
  | some context => cases context <;> simp [Meant, eq_comm]

theorem Sound.initializeSession (h : a.Sound) (hempty : a.session = empty) (external : Option γ)
    (answer : InitializeAnswer) :
    (a.initializeSession external answer).1.Sound ∧
      ((a.initializeSession external answer).2.result = .ok →
        Meant external (a.initializeSession external answer).1.session.context) := by
  have hnone : (a.session.context.isSome || a.session.encoder.isSome || a.session.input.isSome ||
      a.session.output.isSome) = false := by simp [hempty, empty]
  simp only [Nvenc.initializeSession, hnone, Bool.false_eq_true, if_false]
  cases external with
  | some context =>
      have hcontext : Sound { a with
          session := { a.session with context := some (.external context), ownsContext := false } } := by
        refine ⟨?_, h.fresh, ⟨fun _ => by simp [hempty, empty], nofun, by simp⟩⟩
        have howned := h.holds
        rw [hempty] at howned ⊢
        exact howned
      obtain ⟨hsound, hsame⟩ := hcontext.openEncoder nofun (by simp [hempty, empty]) answer
      refine ⟨hsound, fun _ => ?_⟩
      simp only [hsame]
      rfl
  | none =>
      simp only
      split
      · exact ⟨h, nofun⟩
      have hcontext : Sound { a.create fun n => .context (.own n) with
          session := { a.session with context := some (.own a.next), ownsContext := true } } := by
        refine h.create rfl (List.Perm.of_eq ?_) ⟨fun _ => by simp [hempty, empty], nofun, by simp⟩
        simp [NvencSession.owned, hempty, empty]
      obtain ⟨hsound, hsame⟩ := hcontext.openEncoder nofun (by simp [hempty, empty]) answer
      refine ⟨hsound, fun _ => ?_⟩
      simp only [hsame]
      rfl

/-- The context that `destroy_nvenc_session` destroys. -/
def ownContext (s : NvencSession γ) : Option (NvencResource γ) := if s.ownsContext then s.context.map .context else none

theorem destroySession_events (h : a.session.Filled) :
    a.destroySession.events = ((ownContext a.session).map .destroy).toList ++
      (((a.session.encoder.map .encoder).map .destroy).toList ++ (((a.session.output.map .output).map .destroy).toList ++
        (((a.session.input.map .input).map .destroy).toList ++ a.events))) := by
  obtain ⟨⟨context, ownsContext, encoder, input, output⟩, next, events⟩ := a
  cases encoder with
  | none =>
      obtain ⟨rfl, rfl⟩ := h.buffers rfl
      cases context <;> cases ownsContext <;> rfl
  | some encoder => cases context <;> cases ownsContext <;> cases input <;> cases output <;> rfl

theorem destroySession_next (a : Nvenc γ) : a.destroySession.next = a.next := by
  obtain ⟨⟨context, ownsContext, encoder, input, output⟩, next, events⟩ := a
  cases context <;> cases ownsContext <;> cases encoder <;> cases input <;> cases output <;> rfl

theorem Sound.destroySession (h : a.Sound) : a.destroySession.Sound := by
  have hirrefl (r : NvencResource γ) : ¬ NvencResource.On r r := Nat.lt_irrefl _
  refine ⟨?_, fun r hmem => ?_, NvencSession.filled_empty⟩
  · have howned : a.session.owned = (a.session.input.map .input).toList ++ ((a.session.output.map .output).toList ++
        ((a.session.encoder.map .encoder).toList ++ ((ownContext a.session).toList ++ []))) := by
      rw [NvencSession.owned, ownContext, List.append_nil]
      split <;> rfl
    have hholds := h.holds
    rw [howned] at hholds
    rw [destroySession_events h.filled]
    have hbuffer {r r' : NvencResource γ} (hr : r.rank = 2) : ¬ NvencResource.On r' r := by
      rw [NvencResource.On, hr]
      exact Nat.not_lt.mpr r'.rank_le
    refine (((hholds.destroyOption ?_ hirrefl).destroyOption ?_ hirrefl).destroyOption ?_ hirrefl).destroyOption nofun
      hirrefl
    · intro r hr _ _
      obtain ⟨n, -, rfl⟩ := Option.map_eq_some_iff.mp hr
      exact hbuffer rfl
    · intro r hr _ _
      obtain ⟨n, -, rfl⟩ := Option.map_eq_some_iff.mp hr
      exact hbuffer rfl
    · intro r hr r' hr'
      obtain ⟨n, -, rfl⟩ := Option.map_eq_some_iff.mp hr
      rw [List.append_nil, Option.mem_toList, ownContext] at hr'
      split at hr'
      · obtain ⟨context, -, rfl⟩ := Option.map_eq_some_iff.mp hr'
        exact Nat.not_lt_zero _
      · cases hr'
  · rw [destroySession_events h.filled] at hmem
    rw [destroySession_next]
    exact h.fresh r (by simpa using hmem)

end Nvenc

/-! ## The calls -/

namespace NvencManager

variable {m m' : NvencManager γ φ}

/-- The session owns what it has created, and the owner of an external context is held as long as the session uses it. -/
structure Sound (m : NvencManager γ φ) : Prop where
  nvenc : m.nvenc.Sound
  external_iff : ∀ context, m.externalContext = some context ↔ m.nvenc.session.context = some (.external context)
  owner_iff : m.contextOwner = none ↔ m.externalContext = none

theorem sound_new : (new : NvencManager γ φ).Sound :=
  ⟨⟨.nil, fun _ hmem => absurd hmem List.not_mem_nil, NvencSession.filled_empty⟩, fun _ => ⟨nofun, nofun⟩, by simp [new]⟩

/-- Every start leaves the session that was meant, or none. -/
theorem start_cases (h : m.nvenc.Sound) (hempty : m.nvenc.session = Nvenc.empty) (external : Option γ)
    (answer : InitializeAnswer) :
    ∃ a status, m.start external answer = ({ m with nvenc := a }, status) ∧ a.Sound ∧
      (status.result = .ok ∧ Nvenc.Meant external a.session.context ∨ status.result ≠ .ok ∧ a.session = Nvenc.empty) := by
  obtain ⟨hsound, hmeant⟩ := h.initializeSession hempty external answer
  rw [start]
  generalize m.nvenc.initializeSession external answer = out at hsound hmeant
  obtain ⟨a, status⟩ := out
  by_cases hok : status.result = .ok
  · exact ⟨a, status, if_neg (not_not.mpr hok), hsound, .inl ⟨hok, hmeant hok⟩⟩
  · exact ⟨a.destroySession, status, if_pos hok, hsound.destroySession, .inr ⟨hok, rfl⟩⟩

theorem sound_of_start_none {a : Nvenc γ} (ha : a.Sound)
    (hcontext : Nvenc.Meant none a.session.context ∨ a.session = Nvenc.empty) :
    (⟨a, none, none⟩ : NvencManager γ φ).Sound := by
  refine ⟨ha, fun context => ⟨nofun, fun heq => ?_⟩, iff_of_true rfl rfl⟩
  rcases hcontext with hmeant | hempty
  · rw [show a.session.context = _ from heq] at hmeant
    cases hmeant
  · rw [show a.session = _ from hempty] at heq
    cases heq

theorem Sound.destroy (h : m.Sound) : m.destroy.Sound := sound_of_start_none h.nvenc.destroySession (.inr rfl)

/-- A start for the CPU. -/
theorem sound_start_none {a : Nvenc γ} (h : a.Sound) (hempty : a.session = Nvenc.empty) (answer : InitializeAnswer) :
    ((⟨a, none, none⟩ : NvencManager γ φ).start none answer).1.Sound := by
  obtain ⟨b, status, heq, hb, hcases⟩ :=
    start_cases (m := (⟨a, none, none⟩ : NvencManager γ φ)) h hempty none answer
  rw [heq]
  exact sound_of_start_none hb (hcases.imp And.right And.right)

theorem Sound.restartCpu (h : m.Sound) (answer : InitializeAnswer) : (m.restartCpu answer).1.Sound :=
  sound_start_none h.nvenc.destroySession rfl answer

/-- A manager without a context and without an encoder has nothing. -/
theorem Sound.empty_of_none (h : m.Sound)
    (hnone : ¬ (m.nvenc.session.context.isSome || m.nvenc.session.encoder.isSome) = true) :
    m.nvenc.session = Nvenc.empty ∧ m.externalContext = none ∧ m.contextOwner = none := by
  simp only [Bool.or_eq_true, not_or, Option.not_isSome_iff_eq_none] at hnone
  obtain ⟨hcontext, hencoder⟩ := hnone
  obtain ⟨hinput, houtput⟩ := h.nvenc.filled.buffers hencoder
  have howns : m.nvenc.session.ownsContext = false := by
    rw [Bool.eq_false_iff, ne_eq, h.nvenc.filled.owns, hcontext]
    exact nofun
  have hexternal : m.externalContext = none := by
    rw [Option.eq_none_iff_forall_ne_some]
    intro context heq
    rw [h.external_iff, hcontext] at heq
    cases heq
  refine ⟨?_, hexternal, h.owner_iff.mpr hexternal⟩
  obtain ⟨⟨⟨context, ownsContext, encoder, input, output⟩, next, events⟩, external, owner⟩ := m
  simp only at hcontext hencoder hinput houtput howns
  rw [hcontext, hencoder, hinput, houtput, howns]
  rfl

theorem Sound.initializeCpu (h : m.Sound) (answer : InitializeAnswer) : (m.initializeCpu answer).1.Sound := by
  rw [NvencManager.initializeCpu]
  split
  · exact h
  case isFalse hnone =>
      obtain ⟨hempty, hexternal, howner⟩ := h.empty_of_none hnone
      obtain ⟨nvenc, external, owner⟩ := m
      obtain rfl : external = none := hexternal
      obtain rfl : owner = none := howner
      exact sound_start_none h.nvenc hempty answer

variable [DecidableEq γ]

/-- A binding leaves everything as it is, or it replaces the session by one on the external context or by none. -/
theorem bind_cases (h : m.nvenc.Sound) (context : Option γ) (contextOwner : Option φ) (submittedFrames : Nat)
    (answer : InitializeAnswer) :
    (m.bindCudaContext context contextOwner submittedFrames answer).1 = m ∧
        ((m.bindCudaContext context contextOwner submittedFrames answer).2.result = .ok →
          context ≠ none ∧ m.externalContext = context) ∨
      ∃ c o a, context = some c ∧ contextOwner = some o ∧ m.externalContext = none ∧ a.Sound ∧
        ((m.bindCudaContext context contextOwner submittedFrames answer).2.result = .ok ∧
            (m.bindCudaContext context contextOwner submittedFrames answer).1 = ⟨a, some c, some o⟩ ∧
            a.session.context = some (.external c) ∨
          (m.bindCudaContext context contextOwner submittedFrames answer).2.result ≠ .ok ∧
            (m.bindCudaContext context contextOwner submittedFrames answer).1 = ⟨a, none, none⟩ ∧
            a.session = Nvenc.empty) := by
  cases context with
  | none => exact .inl ⟨rfl, nofun⟩
  | some context =>
      cases contextOwner with
      | none => exact .inl ⟨rfl, nofun⟩
      | some contextOwner =>
          simp only [NvencManager.bindCudaContext]
          split
          case h_1 external hexternal =>
              split
              case isTrue hsame => exact .inl ⟨rfl, fun _ => ⟨nofun, by rw [hexternal, hsame]⟩⟩
              case isFalse => exact .inl ⟨rfl, nofun⟩
          case h_2 hexternal =>
              split
              · exact .inl ⟨rfl, nofun⟩
              right
              obtain ⟨a, status, heq, ha, hcases⟩ :=
                start_cases (m := (⟨m.nvenc.destroySession, some context, some contextOwner⟩ : NvencManager γ φ))
                  h.destroySession rfl (some context) answer
              refine ⟨context, contextOwner, a, rfl, rfl, hexternal, ha, ?_⟩
              rw [heq]
              rcases hcases with ⟨hok, hmeant⟩ | ⟨hfail, hempty⟩
              · simp only [hok, ne_eq, not_true_eq_false, if_false]
                exact .inl ⟨trivial, trivial, Nvenc.meant_some.mp hmeant⟩
              · simp only [hfail, ne_eq, not_false_eq_true, if_true]
                exact .inr ⟨trivial, trivial, hempty⟩

theorem Sound.bindCudaContext (h : m.Sound) (context : Option γ) (contextOwner : Option φ) (submittedFrames : Nat)
    (answer : InitializeAnswer) : (m.bindCudaContext context contextOwner submittedFrames answer).1.Sound := by
  rcases bind_cases h.nvenc context contextOwner submittedFrames answer with
    ⟨hsame, -⟩ | ⟨c, o, a, -, -, -, ha, ⟨-, heq, hcontext⟩ | ⟨-, heq, hempty⟩⟩
  · rw [hsame]
    exact h
  · rw [heq]
    exact ⟨ha, fun c => by simp [hcontext], iff_of_false nofun nofun⟩
  · rw [heq]
    exact sound_of_start_none ha (.inr hempty)

theorem Sound.step {c : NvencCall γ φ} (h : m.Sound) (hst : m.Step c m') : m'.Sound := by
  subst hst
  cases c with
  | initializeCpu answer => exact h.initializeCpu answer
  | bind context contextOwner submittedFrames answer => exact h.bindCudaContext context contextOwner submittedFrames answer
  | restartCpu answer => exact h.restartCpu answer
  | destroy => exact h.destroy

/-- A call that fails has changed nothing, or has left no session at all. -/
theorem Sound.failed (h : m.Sound) {c : NvencCall γ φ} (hfail : (m.call c).2.result ≠ .ok) :
    (m.call c).1 = m ∨ (m.call c).1.nvenc.session = Nvenc.empty ∧ (m.call c).1.externalContext = none ∧
      (m.call c).1.contextOwner = none := by
  cases c with
  | initializeCpu answer =>
      simp only [call, NvencManager.initializeCpu] at hfail ⊢
      split at hfail
      case isTrue hsome => exact .inl (by rw [if_pos hsome])
      case isFalse hnone =>
          obtain ⟨hempty, hexternal, howner⟩ := h.empty_of_none hnone
          obtain ⟨b, status, heq, -, hcases⟩ := start_cases h.nvenc hempty none answer
          rw [heq] at hfail
          rw [if_neg hnone, heq]
          exact .inr ⟨(hcases.resolve_left fun hok => hfail hok.1).2, hexternal, howner⟩
  | bind context contextOwner submittedFrames answer =>
      rcases bind_cases h.nvenc context contextOwner submittedFrames answer with
        ⟨hsame, -⟩ | ⟨c, o, a, -, -, -, -, ⟨hok, -⟩ | ⟨-, heq, hempty⟩⟩
      · exact .inl hsame
      · exact absurd hok hfail
      · right
        rw [call, heq]
        exact ⟨hempty, rfl, rfl⟩
  | restartCpu answer =>
      simp only [call, NvencManager.restartCpu] at hfail ⊢
      obtain ⟨b, status, heq, -, hcases⟩ := start_cases h.destroy.nvenc rfl none answer
      rw [heq] at hfail ⊢
      exact .inr ⟨(hcases.resolve_left fun hok => hfail hok.1).2, rfl, rfl⟩
  | destroy => exact absurd rfl hfail

omit [DecidableEq γ] in
/-- Only contexts of the session are destroyed. -/
theorem Sound.external_kept (h : m.Sound) (context : γ) : .destroy (.context (.external context)) ∉ m.nvenc.events := by
  intro hmem
  have hcreate := (h.nvenc.holds.created_iff _).mpr (.inr hmem)
  obtain ⟨n, -, hn⟩ := h.nvenc.fresh _ hcreate
  cases hn

end NvencManager

/-- In every run of calls, wherever the driver fails: what a session has created is in its fields, or it was destroyed
exactly once and in order. External contexts are not destroyed, and their owner is held as long as the session uses
them. -/
theorem session_owns [DecidableEq γ] {cs : List (NvencCall γ φ)} {m : NvencManager γ φ}
    (h : Run NvencManager.Step .new cs m) :
    Legal (Allowed NvencResource.On) m.nvenc.events ∧
    (∀ r, .create r ∈ m.nvenc.events → r ∈ m.nvenc.session.owned ∧ m.nvenc.events.count (.destroy r) = 0 ∨
      r ∉ m.nvenc.session.owned ∧ m.nvenc.events.count (.destroy r) = 1) ∧
    (∀ r, .create r ∈ m.destroy.nvenc.events → m.destroy.nvenc.events.count (.destroy r) = 1) ∧
    (∀ context, .destroy (.context (.external context)) ∉ m.nvenc.events) ∧
    (∀ c, (m.call c).2.result ≠ .ok → (m.call c).1 = m ∨ (m.call c).1.nvenc.session = Nvenc.empty) ∧
    (∀ context contextOwner frames answer, m.externalContext = none →
      (m.call (.bind (some context) (some contextOwner) frames answer)).2.result = .ok →
        (m.call (.bind (some context) (some contextOwner) frames answer)).1.contextOwner = some contextOwner ∧
        (m.call (.bind (some context) (some contextOwner) frames answer)).1.nvenc.session.context =
          some (.external context)) ∧
    (m.contextOwner ≠ none ↔ ∃ context, m.nvenc.session.context = some (.external context)) := by
  have hsound : m.Sound := h.invariant NvencManager.sound_new fun hs hst => hs.step hst
  refine ⟨hsound.nvenc.holds.legal, fun r => hsound.nvenc.holds.owned_or_destroyed, fun r hcreate => ?_,
    hsound.external_kept, fun c hfail => (hsound.failed hfail).imp_right And.left,
    fun context contextOwner frames answer hnone hok => ?_, ?_⟩
  · rcases hsound.destroy.nvenc.holds.owned_or_destroyed hcreate with ⟨hmem, -⟩ | ⟨-, honce⟩
    · exact absurd hmem List.not_mem_nil
    · exact honce
  · rcases NvencManager.bind_cases hsound.nvenc (some context) (some contextOwner) frames answer with
      ⟨-, hsame⟩ | ⟨c, o, a, hc, ho, -, -, ⟨-, heq, hcontext⟩ | ⟨hfail, -⟩⟩
    · rw [hnone] at hsame
      cases (hsame hok).2
    · cases hc
      cases ho
      rw [NvencManager.call, heq]
      exact ⟨rfl, hcontext⟩
    · exact absurd hok hfail
  · rw [ne_eq, hsound.owner_iff, ← ne_eq, Option.ne_none_iff_exists']
    exact exists_congr hsound.external_iff

/-- A session for the CPU, a binding that fails at its last call, and one that succeeds. -/
theorem session_owns_small : ∃ m : NvencManager Nat Nat,
    Run NvencManager.Step .new [.initializeCpu ⟨true, true, true, .opened, true, true, true, true⟩,
      .bind (some 7) (some 3) 0 ⟨true, true, true, .opened, true, true, true, false⟩,
      .bind (some 7) (some 3) 0 ⟨true, true, true, .opened, true, true, true, true⟩] m ∧
    m.nvenc.session = ⟨some (.external 7), false, some 6, some 7, some 8⟩ ∧
    ∀ context, .destroy (.context (.external context)) ∉ m.nvenc.events := by
  have hrun : ∃ m : NvencManager Nat Nat, Run NvencManager.Step .new
      [.initializeCpu ⟨true, true, true, .opened, true, true, true, true⟩,
        .bind (some 7) (some 3) 0 ⟨true, true, true, .opened, true, true, true, false⟩,
        .bind (some 7) (some 3) 0 ⟨true, true, true, .opened, true, true, true, true⟩] m ∧
      m.nvenc.session = ⟨some (.external 7), false, some 6, some 7, some 8⟩ :=
    ⟨_, .cons rfl (.cons rfl (.cons rfl .nil)), rfl⟩
  obtain ⟨m, hrun, hsession⟩ := hrun
  exact ⟨m, hrun, hsession, (session_owns hrun).2.2.2.1⟩

end MkvCodec.Gpu
