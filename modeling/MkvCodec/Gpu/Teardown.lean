import MkvCodec.Gpu.NvdecRuntime

/-!
# Teardown of the NVDEC runtime

The parser goes when the decoder is closed. The decoder handle and the context go when the decoder is closed and no
picture is mapped any more, whether the close or a release comes last. A call of the driver may fail on the way.
-/

namespace MkvCodec.Gpu

open Concurrency

/-- What may be done with the driver behind a history. -/
def NvdecAllowed (earlier : List NvdecEvent) : NvdecEvent → Prop
  | .decoderCreate => .decoderCreate ∉ earlier ∧ .closeRequested ∉ earlier
  | .map n => .map n ∉ earlier ∧ .decoderCreate ∈ earlier ∧ .closeRequested ∉ earlier
  | .unmap n => .unmap n ∉ earlier ∧ .map n ∈ earlier ∧ .decoderDestroy ∉ earlier ∧ .contextDestroy ∉ earlier
  | .closeRequested => .closeRequested ∉ earlier
  | .parserDestroy => .parserDestroy ∉ earlier ∧ .closeRequested ∈ earlier ∧ .contextDestroy ∉ earlier
  | .decoderDestroy => .decoderDestroy ∉ earlier ∧ .decoderCreate ∈ earlier ∧ .contextDestroy ∉ earlier ∧
      .closeRequested ∈ earlier ∧ ∀ n, .map n ∈ earlier → .unmap n ∈ earlier
  | .contextDestroy => .contextDestroy ∉ earlier ∧ (.decoderCreate ∈ earlier → .decoderDestroy ∈ earlier) ∧
      .closeRequested ∈ earlier ∧ ∀ n, .map n ∈ earlier → .unmap n ∈ earlier

/-- The same for a driver that may fail. The pictures are unmapped first where each of them that is given back is `unmapped`. -/
def NvdecPermitted (unmapped : Prop) (earlier : List NvdecEvent) : NvdecEvent → Prop
  | .decoderDestroy => .decoderDestroy ∉ earlier ∧ .decoderCreate ∈ earlier ∧ .contextDestroy ∉ earlier ∧
      .closeRequested ∈ earlier ∧ (unmapped → ∀ n, .map n ∈ earlier → .unmap n ∈ earlier)
  | .contextDestroy => .contextDestroy ∉ earlier ∧ (.decoderCreate ∈ earlier → .decoderDestroy ∈ earlier) ∧
      .closeRequested ∈ earlier ∧ (unmapped → ∀ n, .map n ∈ earlier → .unmap n ∈ earlier)
  | event => NvdecAllowed earlier event

section

variable {unmapped : Prop} {earlier : List NvdecEvent} {event : NvdecEvent}

theorem NvdecPermitted.new (h : NvdecPermitted unmapped earlier event) : event ∉ earlier := by
  cases event with
  | closeRequested => exact h
  | _ => exact h.1

theorem NvdecPermitted.allowed (h : NvdecPermitted unmapped earlier event) (hunmapped : unmapped) :
    NvdecAllowed earlier event := by
  cases event with
  | decoderDestroy =>
      obtain ⟨hnew, hcreate, hcontext, hclose, hall⟩ := h
      exact ⟨hnew, hcreate, hcontext, hclose, hall hunmapped⟩
  | contextDestroy =>
      obtain ⟨hnew, hdecoder, hclose, hall⟩ := h
      exact ⟨hnew, hdecoder, hclose, hall hunmapped⟩
  | _ => exact h

end

/-! ## The owner -/

section

variable {parsed unmapped : Prop} {o : NvdecRuntimeOwner} {next n : Nat} {live live' : List Nat}

/-- A picture is mapped or unmapped. -/
def NvdecEvent.isPicture : NvdecEvent → Bool
  | .map _ | .unmap _ => true
  | _ => false

theorem mem_cons_of_isPicture_ne {event event' : NvdecEvent} {events : List NvdecEvent} (h : event'.isPicture ≠ event.isPicture) :
    event' ∈ event :: events ↔ event' ∈ events :=
  List.mem_cons.trans (or_iff_right fun heq => h (congrArg NvdecEvent.isPicture heq))

/-- The pictures of a history; `live` are those that are mapped. Every picture that is given back is unmapped where `unmapped` holds. -/
structure Pictures (unmapped : Prop) (events : List NvdecEvent) (next : Nat) (live : List Nat) : Prop where
  map_iff : ∀ n, .map n ∈ events ↔ n < next
  unmap_out : ∀ n, .unmap n ∈ events → n < next ∧ n ∉ live
  unmap_mem : unmapped → ∀ n < next, n ∉ live → .unmap n ∈ events
  live_lt : ∀ n ∈ live, n < next
  nodup : live.Nodup

/-- The handles of the owner agree with its history. The context can be activated for the parser where `parsed` holds. -/
structure Handles (parsed : Prop) (o : NvdecRuntimeOwner) (live : List Nat) : Prop where
  close_iff : .closeRequested ∈ o.events ↔ o.closed = true
  parser_iff : .parserDestroy ∈ o.events ↔ o.parser = false
  parser_open : o.closed = false → o.parser = true
  parser_gone : parsed → o.closed = true → o.parser = false
  context_iff : .contextDestroy ∈ o.events ↔ o.context = false
  decoder_iff : o.decoder = true ↔ .decoderCreate ∈ o.events ∧ .decoderDestroy ∉ o.events
  destroyed : .decoderDestroy ∈ o.events → o.closed = true ∧ live = []
  gone : o.context = false → o.closed = true ∧ o.decoder = false ∧ live = []

structure Orderly (parsed unmapped : Prop) (o : NvdecRuntimeOwner) (next : Nat) (live : List Nat) : Prop extends
    Pictures unmapped o.events next live, Handles parsed o live where
  legal : Legal (NvdecPermitted unmapped) o.events

namespace Pictures

variable {event : NvdecEvent} {events : List NvdecEvent}

theorem perm (h : Pictures unmapped events next live) (hperm : live.Perm live') : Pictures unmapped events next live' where
  map_iff := h.map_iff
  unmap_out n hn := by
    obtain ⟨hlt, hout⟩ := h.unmap_out n hn
    exact ⟨hlt, fun hmem => hout (hperm.mem_iff.mpr hmem)⟩
  unmap_mem hunmapped n hlt hout := h.unmap_mem hunmapped n hlt fun hmem => hout (hperm.mem_iff.mp hmem)
  live_lt n hn := h.live_lt n (hperm.mem_iff.mpr hn)
  nodup := hperm.nodup_iff.mp h.nodup

/-- Other events do not touch the pictures. -/
theorem other (h : Pictures unmapped events next live) (hother : event.isPicture = false) :
    Pictures unmapped (event :: events) next live := by
  have hsame {event' : NvdecEvent} (hpicture : event'.isPicture = true) : event' ∈ event :: events ↔ event' ∈ events :=
    mem_cons_of_isPicture_ne (by simp [hpicture, hother])
  exact {
    map_iff n := (hsame rfl).trans (h.map_iff n)
    unmap_out n hn := h.unmap_out n ((hsame rfl).mp hn)
    unmap_mem hunmapped n hlt hout := (hsame rfl).mpr (h.unmap_mem hunmapped n hlt hout)
    live_lt := h.live_lt
    nodup := h.nodup }

theorem map (h : Pictures unmapped events next live) : Pictures unmapped (.map next :: events) (next + 1) (next :: live) where
  map_iff m := by
    simp [h.map_iff]
    omega
  unmap_out m hm := by
    obtain ⟨hlt, hout⟩ := h.unmap_out m (by simpa using hm)
    exact ⟨Nat.lt_succ_of_lt hlt, List.not_mem_cons_of_ne_of_not_mem (Nat.ne_of_lt hlt) hout⟩
  unmap_mem hunmapped m hlt hout := by
    obtain ⟨hne, hout⟩ := not_or.mp (mt List.mem_cons.mpr hout)
    have hlt' : m < next := Nat.lt_of_le_of_ne (Nat.le_of_lt_succ hlt) hne
    exact List.mem_cons_of_mem _ (h.unmap_mem hunmapped m hlt' hout)
  live_lt m hm := by
    rcases List.mem_cons.mp hm with rfl | hm
    · exact Nat.lt_succ_self m
    · exact Nat.lt_succ_of_lt (h.live_lt m hm)
  nodup := List.nodup_cons.mpr ⟨fun hmem => Nat.lt_irrefl _ (h.live_lt _ hmem), h.nodup⟩

theorem unmap (h : Pictures unmapped events next live) (hperm : live.Perm (n :: live')) :
    Pictures unmapped (.unmap n :: events) next live' := by
  have h := h.perm hperm
  obtain ⟨hout, hnodup⟩ := List.nodup_cons.mp h.nodup
  exact {
    map_iff m := by simp [h.map_iff]
    unmap_out m hm := by
      rcases List.mem_cons.mp hm with heq | hm
      · obtain rfl := NvdecEvent.unmap.inj heq
        exact ⟨h.live_lt m List.mem_cons_self, hout⟩
      · obtain ⟨hlt, hm⟩ := h.unmap_out m hm
        exact ⟨hlt, fun hmem => hm (List.mem_cons_of_mem _ hmem)⟩
    unmap_mem hunmapped m hm hout' := by
      by_cases heq : m = n
      · subst heq
        exact List.mem_cons_self
      · exact List.mem_cons_of_mem _ (h.unmap_mem hunmapped m hm (List.not_mem_cons_of_ne_of_not_mem heq hout'))
    live_lt m hm := h.live_lt m (List.mem_cons_of_mem _ hm)
    nodup := hnodup }

/-- A picture that is not unmapped. -/
theorem lose (h : Pictures unmapped events next live) (hperm : live.Perm (n :: live')) (hnot : ¬ unmapped) :
    Pictures unmapped events next live' := by
  have h := h.perm hperm
  exact {
    map_iff := h.map_iff
    unmap_out m hm := by
      obtain ⟨hlt, hm⟩ := h.unmap_out m hm
      exact ⟨hlt, fun hmem => hm (List.mem_cons_of_mem _ hmem)⟩
    unmap_mem hunmapped := absurd hunmapped hnot
    live_lt m hm := h.live_lt m (List.mem_cons_of_mem _ hm)
    nodup := (List.nodup_cons.mp h.nodup).2 }

end Pictures

namespace Handles

variable {event : NvdecEvent}

theorem withLive (h : Handles parsed o live) (hempty : o.closed = true → live = [] → live' = []) : Handles parsed o live' :=
  { h with
    destroyed := fun hmem => ⟨(h.destroyed hmem).1, hempty (h.destroyed hmem).1 (h.destroyed hmem).2⟩
    gone := fun hgone => ⟨(h.gone hgone).1, (h.gone hgone).2.1, hempty (h.gone hgone).1 (h.gone hgone).2.2⟩ }

/-- What happens to the pictures does not touch the handles. -/
theorem picture (h : Handles parsed o live) (hpicture : event.isPicture = true) : Handles parsed (o.log event) live := by
  have hsame {event' : NvdecEvent} (hother : event'.isPicture = false) : event' ∈ (o.log event).events ↔ event' ∈ o.events :=
    mem_cons_of_isPicture_ne (by simp [hpicture, hother])
  exact {
    close_iff := (hsame rfl).trans h.close_iff
    parser_iff := (hsame rfl).trans h.parser_iff
    parser_open := h.parser_open
    parser_gone := h.parser_gone
    context_iff := (hsame rfl).trans h.context_iff
    decoder_iff := h.decoder_iff.trans (and_congr (hsame rfl).symm (not_congr (hsame rfl).symm))
    destroyed := fun hmem => h.destroyed ((hsame rfl).mp hmem)
    gone := h.gone }

end Handles

namespace Orderly

theorem perm (h : Orderly parsed unmapped o next live) (hperm : live.Perm live') : Orderly parsed unmapped o next live' where
  toPictures := h.toPictures.perm hperm
  toHandles := h.toHandles.withLive fun _ hempty => (hempty ▸ hperm).nil_eq.symm
  legal := h.legal

/-- The count of the mappings is not in the history. -/
theorem count (h : Orderly parsed unmapped o next live) (k : Nat) :
    Orderly parsed unmapped { o with outstandingMappings := k } next live := by
  obtain ⟨hpictures, ⟨h₁, h₂, h₃, h₄, h₅, h₆, h₇, h₈⟩, hlegal⟩ := h
  exact ⟨hpictures, ⟨h₁, h₂, h₃, h₄, h₅, h₆, h₇, h₈⟩, hlegal⟩

/-- While a picture is mapped, the context is there. -/
theorem context_of_mem (h : Orderly parsed unmapped o next live) (hn : n ∈ live) : o.context = true := by
  cases hcontext : o.context with
  | true => rfl
  | false =>
      rw [(h.gone hcontext).2.2] at hn
      cases hn

theorem context_of_open (h : Orderly parsed unmapped o next live) (hopen : o.closed = false) : o.context = true := by
  cases hcontext : o.context with
  | true => rfl
  | false =>
      rw [(h.gone hcontext).1] at hopen
      cases hopen

theorem not_destroyed_of_open (h : Orderly parsed unmapped o next live) (hopen : o.closed = false) :
    .decoderDestroy ∉ o.events := by
  intro hmem
  rw [(h.destroyed hmem).1] at hopen
  cases hopen

theorem not_destroyed_of_mem (h : Orderly parsed unmapped o next live) (hn : n ∈ live) : .decoderDestroy ∉ o.events := by
  intro hmem
  rw [(h.destroyed hmem).2] at hn
  cases hn

theorem create (h : Orderly parsed unmapped o next live) (hopen : o.closed = false) (hdecoder : o.decoder = false) :
    Orderly parsed unmapped { o.log .decoderCreate with decoder := true } next live := by
  have hcontext := h.context_of_open hopen
  have hdestroy := h.not_destroyed_of_open hopen
  have hnew : .decoderCreate ∉ o.events := by
    intro hmem
    rw [h.decoder_iff.mpr ⟨hmem, hdestroy⟩] at hdecoder
    cases hdecoder
  have hclose : .closeRequested ∉ o.events := by simp [h.close_iff, hopen]
  exact {
    toPictures := h.toPictures.other rfl
    legal := h.legal.cons ⟨hnew, hclose⟩
    close_iff := by simp [h.close_iff, NvdecRuntimeOwner.log]
    parser_iff := by simp [h.parser_iff, NvdecRuntimeOwner.log]
    parser_open := h.parser_open
    parser_gone := h.parser_gone
    context_iff := by simp [h.context_iff, NvdecRuntimeOwner.log]
    decoder_iff := by simp [hdestroy, NvdecRuntimeOwner.log]
    destroyed := fun hmem => h.destroyed (by simpa using hmem)
    gone := fun hgone => absurd hcontext (Bool.eq_false_iff.mp hgone) }

theorem map (h : Orderly parsed unmapped o next live) (hopen : o.closed = false) (hdecoder : o.decoder = true) :
    Orderly parsed unmapped (o.log (.map next)) (next + 1) (next :: live) where
  toPictures := h.toPictures.map
  toHandles := (h.toHandles.picture rfl).withLive fun hclosed => absurd (hopen.symm.trans hclosed) Bool.false_ne_true
  legal := h.legal.cons ⟨by simp [h.map_iff], (h.decoder_iff.mp hdecoder).1, by simp [h.close_iff, hopen]⟩

theorem unmap (h : Orderly parsed unmapped o next live) (hperm : live.Perm (n :: live')) :
    Orderly parsed unmapped (o.log (.unmap n)) next live' := by
  have hn : n ∈ live := hperm.mem_iff.mpr List.mem_cons_self
  have hcontext := h.context_of_mem hn
  have hnew : .unmap n ∉ o.events := fun hmem => (h.unmap_out n hmem).2 hn
  have hmap : .map n ∈ o.events := (h.map_iff n).mpr (h.live_lt n hn)
  exact {
    toPictures := h.toPictures.unmap hperm
    toHandles := (h.toHandles.picture rfl).withLive fun _ hempty => absurd hn (hempty ▸ List.not_mem_nil)
    legal := h.legal.cons ⟨hnew, hmap, h.not_destroyed_of_mem hn, by simp [h.context_iff, hcontext]⟩ }

/-- A picture is given back. Whether it is unmapped depends on the driver. -/
theorem giveBack (h : Orderly parsed unmapped o next live) (hperm : live.Perm (n :: live')) {entered : Bool}
    (hentered : unmapped → entered = true) :
    Orderly parsed unmapped (if entered then o.log (.unmap n) else o) next live' := by
  have hn : n ∈ live := hperm.mem_iff.mpr List.mem_cons_self
  cases entered with
  | true => exact h.unmap hperm
  | false =>
      exact {
        toPictures := h.toPictures.lose hperm fun hunmapped => absurd (hentered hunmapped) Bool.false_ne_true
        toHandles := h.toHandles.withLive fun _ hempty => absurd hn (hempty ▸ List.not_mem_nil)
        legal := h.legal }

theorem destroyParser_open (h : Orderly parsed unmapped o next live) (hopen : o.closed = false) (a : GuardedAnswer) :
    ((o.log .closeRequested).destroyParser a).1 =
      if a.push then { (o.log .closeRequested).log .parserDestroy with parser := false } else o.log .closeRequested := by
  have hcontext := h.context_of_open hopen
  have hhandle := h.parser_open hopen
  obtain ⟨push, call, pop⟩ := a
  cases push <;> cases call <;> cases pop <;>
    simp [NvdecRuntimeOwner.destroyParser, NvdecRuntimeOwner.log, hhandle, hcontext]

/-- The first half of a close. -/
theorem request (h : Orderly parsed unmapped o next live) (hopen : o.closed = false) {a : GuardedAnswer}
    (ha : parsed → a.push = true) :
    Orderly parsed unmapped { ((o.log .closeRequested).destroyParser a).1 with closed := true } next live := by
  have hcontext := h.context_of_open hopen
  have hdestroy := h.not_destroyed_of_open hopen
  have hhandle := h.parser_open hopen
  have hclose : .closeRequested ∉ o.events := by simp [h.close_iff, hopen]
  have hparser : .parserDestroy ∉ o.events := by simp [h.parser_iff, hhandle]
  have hdestroy' : .contextDestroy ∉ o.events := by simp [h.context_iff, hcontext]
  have hlegal : Legal (NvdecPermitted unmapped) (.closeRequested :: o.events) := h.legal.cons hclose
  have hpictures : Pictures unmapped (.closeRequested :: o.events) next live := h.toPictures.other rfl
  rw [h.destroyParser_open hopen a]
  cases hpush : a.push with
  | true =>
      exact {
        toPictures := hpictures.other rfl
        legal := hlegal.cons ⟨by simpa using hparser, by simp, by simpa using hdestroy'⟩
        close_iff := by simp
        parser_iff := by simp
        parser_open := nofun
        parser_gone := fun _ _ => rfl
        context_iff := by simp [h.context_iff, NvdecRuntimeOwner.log]
        decoder_iff := by simpa [NvdecRuntimeOwner.log] using h.decoder_iff
        destroyed := fun hmem => absurd (show NvdecEvent.decoderDestroy ∈ o.events by simpa using hmem) hdestroy
        gone := fun hgone => absurd hcontext (Bool.eq_false_iff.mp hgone) }
  | false =>
      exact {
        toPictures := hpictures
        legal := hlegal
        close_iff := by simp
        parser_iff := by simp [hparser, hhandle, NvdecRuntimeOwner.log]
        parser_open := nofun
        parser_gone := fun hparsed => absurd (hpush.symm.trans (ha hparsed)) Bool.false_ne_true
        context_iff := by simp [h.context_iff, NvdecRuntimeOwner.log]
        decoder_iff := by simpa [NvdecRuntimeOwner.log] using h.decoder_iff
        destroyed := fun hmem => absurd (show NvdecEvent.decoderDestroy ∈ o.events by simpa using hmem) hdestroy
        gone := fun hgone => absurd hcontext (Bool.eq_false_iff.mp hgone) }

/-- When no picture is mapped, every picture that is given back is unmapped. -/
theorem all_unmapped (h : Orderly parsed unmapped o next []) (hunmapped : unmapped) (n : Nat) (hn : .map n ∈ o.events) :
    .unmap n ∈ o.events := h.unmap_mem hunmapped n ((h.map_iff n).mp hn) List.not_mem_nil

/-- The decoder handle goes. -/
theorem dropDecoder (h : Orderly parsed unmapped o next []) (hclosed : o.closed = true) (hcontext : o.context = true) :
    Orderly parsed unmapped { (if o.decoder then o.log .decoderDestroy else o) with decoder := false } next [] := by
  have hclose : .closeRequested ∈ o.events := h.close_iff.mpr hclosed
  have hdestroy' : .contextDestroy ∉ o.events := by simp [h.context_iff, hcontext]
  cases hdecoder : o.decoder with
  | false =>
      have hsame : { o with decoder := false } = o := by rw [← hdecoder]
      simp only [Bool.false_eq_true, if_false]
      rw [hsame]
      exact h
  | true =>
      obtain ⟨hcreate, hnew⟩ := h.decoder_iff.mp hdecoder
      exact {
        toPictures := h.toPictures.other rfl
        legal := h.legal.cons ⟨hnew, hcreate, hdestroy', hclose, h.all_unmapped⟩
        close_iff := by simp [h.close_iff, NvdecRuntimeOwner.log]
        parser_iff := by simp [h.parser_iff, NvdecRuntimeOwner.log]
        parser_open := h.parser_open
        parser_gone := h.parser_gone
        context_iff := by simp [h.context_iff, NvdecRuntimeOwner.log]
        decoder_iff := by simp
        destroyed := fun _ => ⟨hclosed, rfl⟩
        gone := fun hgone => absurd hcontext (Bool.eq_false_iff.mp hgone) }

/-- The context goes behind it. -/
theorem dropContext (h : Orderly parsed unmapped o next []) (hclosed : o.closed = true) (hcontext : o.context = true)
    (hdecoder : o.decoder = false) : Orderly parsed unmapped { o.log .contextDestroy with context := false } next [] := by
  have hclose : .closeRequested ∈ o.events := h.close_iff.mpr hclosed
  have hnew : .contextDestroy ∉ o.events := by simp [h.context_iff, hcontext]
  have hdestroyed : .decoderCreate ∈ o.events → .decoderDestroy ∈ o.events := by
    intro hcreate
    by_contra hnot
    rw [h.decoder_iff.mpr ⟨hcreate, hnot⟩] at hdecoder
    cases hdecoder
  exact {
    toPictures := h.toPictures.other rfl
    legal := h.legal.cons ⟨hnew, hdestroyed, hclose, h.all_unmapped⟩
    close_iff := by simp [h.close_iff, NvdecRuntimeOwner.log]
    parser_iff := by simp [h.parser_iff, NvdecRuntimeOwner.log]
    parser_open := h.parser_open
    parser_gone := h.parser_gone
    context_iff := by simp
    decoder_iff := by simpa [NvdecRuntimeOwner.log] using h.decoder_iff
    destroyed := fun _ => ⟨hclosed, rfl⟩
    gone := fun _ => ⟨hclosed, hdecoder, rfl⟩ }

/-- The decoder handle and the context go as far as the driver lets them. -/
theorem destroy (h : Orderly parsed unmapped o next []) (hclosed : o.closed = true) (hcontext : o.context = true)
    (a : DestroyAnswer) :
    Orderly parsed unmapped (o.destroyDecoderContext a).1 next [] ∧
      (a.push = true → a.pop = true → (o.destroyDecoderContext a).1.context = false) ∧
      (o.destroyDecoderContext a).1.closed = true ∧
      (o.destroyDecoderContext a).1.outstandingMappings = o.outstandingMappings := by
  have hdrop := h.dropDecoder hclosed hcontext
  generalize hdropped : { (if o.decoder then o.log .decoderDestroy else o) with decoder := false } = dropped at hdrop
  have hfields : dropped.closed = true ∧ dropped.context = true ∧ dropped.decoder = false ∧
      dropped.outstandingMappings = o.outstandingMappings := by
    subst hdropped
    cases o.decoder <;> exact ⟨hclosed, hcontext, rfl, rfl⟩
  obtain ⟨hclosed', hcontext', hdecoder', hcount'⟩ := hfields
  have heq : (o.destroyDecoderContext a).1 =
      if a.push then if a.pop then { dropped.log .contextDestroy with context := false } else dropped else o := by
    obtain ⟨⟨push, call, pop⟩, context⟩ := a
    subst hdropped
    cases push <;> cases pop <;> cases call <;> cases context <;> cases hdecoder : o.decoder <;>
      simp [NvdecRuntimeOwner.destroyDecoderContext, hcontext, hdecoder]
  rw [heq]
  cases a.push with
  | false => exact ⟨h, nofun, hclosed, rfl⟩
  | true =>
      cases a.pop with
      | false => exact ⟨hdrop, nofun, hclosed', hcount'⟩
      | true => exact ⟨hdrop.dropContext hclosed' hcontext' hdecoder', fun _ _ => rfl, hclosed', hcount'⟩

/-- Behind every section an owner that has nothing left to wait for has no context, if the driver let it go. -/
theorem settle (h : Orderly parsed unmapped o next live)
    (hcount : o.closed = true → (o.outstandingMappings = 0 ↔ live = [])) (a : DestroyAnswer) :
    Orderly parsed unmapped (o.destroyDecoderIfReady a).1 next live ∧
      (a.push = true → a.pop = true → o.closed = true → live = [] → (o.destroyDecoderIfReady a).1.context = false) ∧
      (o.destroyDecoderIfReady a).1.closed = o.closed ∧
      (o.destroyDecoderIfReady a).1.outstandingMappings = o.outstandingMappings := by
  by_cases hready : o.closed = true ∧ o.outstandingMappings = 0 ∧ o.context = true
  · obtain ⟨hclosed, hzero, hcontext⟩ := hready
    have hempty := (hcount hclosed).mp hzero
    subst hempty
    have heq : o.destroyDecoderIfReady a = o.destroyDecoderContext a := by
      simp [NvdecRuntimeOwner.destroyDecoderIfReady, hclosed, hzero, hcontext]
    obtain ⟨horderly, hgone, hstill, hsame⟩ := h.destroy hclosed hcontext a
    rw [heq]
    exact ⟨horderly, fun hpush hpop _ _ => hgone hpush hpop, hstill.trans hclosed.symm, hsame⟩
  · have heq : o.destroyDecoderIfReady a = (o, none) := by
      refine if_pos ?_
      simp only [Bool.or_eq_true, Bool.not_eq_true', decide_eq_true_eq, ne_eq]
      simp only [not_and_or, Bool.not_eq_true] at hready
      exact or_assoc.mpr hready
    rw [heq]
    refine ⟨h, fun _ _ hclosed hempty => ?_, rfl, rfl⟩
    cases hcontext : o.context with
    | false => rfl
    | true => exact absurd ⟨hclosed, (hcount hclosed).mpr hempty, hcontext⟩ hready

/-- A release gives its picture back, and is the last one when it has to be. -/
theorem release (h : Orderly parsed unmapped o next live) (hperm : live.Perm (n :: live')) {k : Nat}
    (hk : o.outstandingMappings = k + 1) (hcount : o.closed = true → (k = 0 ↔ live' = [])) {u : GuardedAnswer}
    (hu : unmapped → u.push = true) (d : DestroyAnswer) :
    Orderly parsed unmapped (o.releaseMapping n u d) next live' ∧
      (d.push = true → d.pop = true → o.closed = true → live' = [] → (o.releaseMapping n u d).context = false) ∧
      (o.releaseMapping n u d).closed = o.closed ∧ (o.releaseMapping n u d).outstandingMappings = k := by
  have hcontext := h.context_of_mem (hperm.mem_iff.mpr List.mem_cons_self)
  have hunmap : (o.unmapFrame n u).1 = if u.push then o.log (.unmap n) else o := by
    obtain ⟨push, call, pop⟩ := u
    cases push <;> cases call <;> cases pop <;> simp [NvdecRuntimeOwner.unmapFrame, hcontext]
  have hback := h.giveBack hperm hu
  generalize hleft : (if u.push then o.log (.unmap n) else o) = left at hunmap hback
  have hfields : left.closed = o.closed ∧ left.outstandingMappings = k + 1 := by
    subst hleft
    cases u.push <;> exact ⟨rfl, hk⟩
  have heq : o.releaseMapping n u d = ({ left with outstandingMappings := k }.destroyDecoderIfReady d).1 := by
    simp [NvdecRuntimeOwner.releaseMapping, hunmap, hfields.2]
  have hsettle := (hback.count k).settle (fun hclosed => hcount (hfields.1.symm.trans hclosed)) d
  rw [heq]
  refine ⟨hsettle.1, fun hpush hpop hclosed => hsettle.2.1 hpush hpop (hfields.1.trans hclosed), hsettle.2.2.1.trans hfields.1,
    hsettle.2.2.2⟩

theorem close (h : Orderly parsed unmapped o next live) (hopen : o.closed = false)
    (hcount : o.outstandingMappings = 0 ↔ live = []) {p : GuardedAnswer} (hp : parsed → p.push = true) (d : DestroyAnswer) :
    Orderly parsed unmapped (o.close p d).1 next live ∧
      (d.push = true → d.pop = true → live = [] → (o.close p d).1.context = false) ∧
      (o.close p d).1.closed = true ∧ (o.close p d).1.outstandingMappings = o.outstandingMappings := by
  have hsame : ((o.log .closeRequested).destroyParser p).1.outstandingMappings = o.outstandingMappings := by
    rw [h.destroyParser_open hopen p]
    cases p.push <;> rfl
  have heq : (o.close p d).1 =
      ({ ((o.log .closeRequested).destroyParser p).1 with closed := true }.destroyDecoderIfReady d).1 := by
    simp [NvdecRuntimeOwner.close, hopen]
  have hsettle := (h.request hopen hp).settle (fun _ => by rw [← hcount, ← hsame]) d
  rw [heq]
  exact ⟨hsettle.1, fun hpush hpop => hsettle.2.1 hpush hpop rfl, hsettle.2.2.1, hsettle.2.2.2.trans hsame⟩

theorem count_le_one (h : Orderly parsed unmapped o next live) (event : NvdecEvent) : o.events.count event ≤ 1 :=
  List.nodup_iff_count_le_one.mp (h.legal.nodup fun _ _ hallowed => hallowed.new) event

theorem count_eq_one (h : Orderly parsed unmapped o next live) {event : NvdecEvent} (hmem : event ∈ o.events) :
    o.events.count event = 1 := Nat.le_antisymm (h.count_le_one event) (List.count_pos_iff.mpr hmem)

/-- A picture is mapped, or it has been unmapped. -/
theorem unmapped_once (h : Orderly parsed unmapped o next live) (hunmapped : unmapped) (n : Nat) (hn : .map n ∈ o.events) :
    n ∈ live ∨ o.events.count (.unmap n) = 1 := by
  by_cases hlive : n ∈ live
  · exact .inl hlive
  · exact .inr (h.count_eq_one (h.unmap_mem hunmapped n ((h.map_iff n).mp hn) hlive))

end Orderly

end

/-! ## The runs -/

namespace NvdecLabel

/-- The context could be activated where this step destroys the parser. -/
def destroysParser : NvdecLabel → Bool
  | .closeRuntime parser _ => parser.push
  | _ => true

/-- The context could be activated where this step gives a frame back. -/
def unmaps : NvdecLabel → Bool
  | .release _ unmap _ | .drop unmap _ => unmap.push
  | _ => true

/-- The context could be activated and popped where this step tears the decoder down. -/
def destroysContext : NvdecLabel → Bool
  | .release _ _ teardown | .drop _ teardown | .closeRuntime _ teardown => teardown.push && teardown.pop
  | _ => true

theorem parts_of_succeeds {l : NvdecLabel} (h : l.succeeds = true) :
    l.destroysParser = true ∧ l.unmaps = true ∧ l.destroysContext = true := by
  cases l <;> simp_all [succeeds, destroysParser, unmaps, destroysContext, DestroyAnswer.succeeds, GuardedAnswer.succeeds]

end NvdecLabel

namespace NvdecPc

/-- The picture that the display callback has in its hands. -/
def held : NvdecPc → List Nat
  | .mapped n | .acquired n => [n]
  | _ => []

def slots : NvdecPc → Nat
  | .acquired _ => 1
  | _ => 0

def isClosed : NvdecPc → Bool
  | .closed | .destroyed => true
  | _ => false

end NvdecPc

namespace NvdecState

/-- The pictures that are mapped. -/
def live (s : NvdecState) : List Nat := s.pc.held ++ (s.queue ++ s.outside)

/-- `destroyed` says that the context is destroyed wherever that is tried. -/
structure Sound (parsed unmapped destroyed : Prop) (s : NvdecState) : Prop where
  orderly : Orderly parsed unmapped s.owner s.next s.live
  settled : destroyed → s.owner.closed = true → s.live = [] → s.owner.context = false
  outstanding : s.owner.outstandingMappings = (s.queue ++ s.outside).length
  slots : (s.queue ++ s.outside).length + s.pc.slots + s.returning ≤ nvdecPoolCapacity
  closed : s.owner.closed = s.pc.isClosed
  queue : s.pc.isClosed = true → s.queue = []

variable {parsed unmapped destroyed : Prop} {s t : NvdecState} {l : NvdecLabel} {ls : List NvdecLabel}

theorem sound_init : init.Sound parsed unmapped destroyed := by
  refine ⟨?_, nofun, rfl, Nat.zero_le _, rfl, fun _ => rfl⟩
  exact {
    legal := .nil
    map_iff n := by simp [init]
    unmap_out := nofun
    unmap_mem _ n hlt := absurd hlt (Nat.not_lt_zero n)
    live_lt := nofun
    nodup := List.nodup_nil
    close_iff := by simp [init]
    parser_iff := by simp [init]
    parser_open _ := rfl
    parser_gone := nofun
    context_iff := by simp [init]
    decoder_iff := by simp [init]
    destroyed := nofun
    gone := nofun }

theorem Sound.parser_once (h : s.Sound parsed unmapped destroyed) (hparsed : parsed) (hpc : s.pc.isClosed = true) :
    s.owner.events.count .parserDestroy = 1 :=
  h.orderly.count_eq_one (h.orderly.parser_iff.mpr (h.orderly.parser_gone hparsed (h.closed.trans hpc)))

theorem Sound.context_once (h : s.Sound parsed unmapped destroyed) (hdestroyed : destroyed) (hpc : s.pc.isClosed = true)
    (hempty : s.live = []) : (.decoderCreate ∈ s.owner.events → s.owner.events.count .decoderDestroy = 1) ∧
      s.owner.events.count .contextDestroy = 1 := by
  have hcontext := h.settled hdestroyed (h.closed.trans hpc) hempty
  refine ⟨fun hcreate => h.orderly.count_eq_one ?_, h.orderly.count_eq_one (h.orderly.context_iff.mpr hcontext)⟩
  by_contra hnot
  have hdecoder := h.orderly.decoder_iff.mpr ⟨hcreate, hnot⟩
  rw [(h.orderly.gone hcontext).2.1] at hdecoder
  cases hdecoder

theorem Sound.open (h : s.Sound parsed unmapped destroyed) (hpc : s.pc.isClosed = false) : s.owner.closed = false := h.closed.trans hpc

/-- A frame that is counted is released. -/
theorem Sound.release (h : s.Sound parsed unmapped destroyed) {n : Nat} {queue outside : List Nat}
    (hperm : (s.queue ++ s.outside).Perm (n :: (queue ++ outside))) (hqueue : s.pc.isClosed = true → queue = [])
    {u : GuardedAnswer} {d : DestroyAnswer} (hu : unmapped → u.push = true) (hd : destroyed → d.push = true ∧ d.pop = true) :
    Sound parsed unmapped destroyed { s with
      owner := s.owner.releaseMapping n u d, queue := queue, outside := outside, returning := s.returning + 1 } := by
  have hlength := hperm.length_eq
  have hlive : s.live.Perm (n :: (s.pc.held ++ (queue ++ outside))) :=
    (hperm.append_left s.pc.held).trans List.perm_middle
  have hcount : s.owner.outstandingMappings = (queue ++ outside).length + 1 := h.outstanding.trans hlength
  have hheld : s.owner.closed = true → s.pc.held = [] := by
    intro hclosed
    rw [h.closed] at hclosed
    cases hpc : s.pc <;> first | rfl | (rw [hpc] at hclosed; cases hclosed)
  have hzero : s.owner.closed = true → ((queue ++ outside).length = 0 ↔ s.pc.held ++ (queue ++ outside) = []) := by
    intro hclosed
    rw [hheld hclosed, List.nil_append, List.length_eq_zero_iff]
  obtain ⟨horderly, hgone, hclosed, hout⟩ := h.orderly.release hlive hcount hzero hu d
  have hslots := h.slots
  rw [hlength, List.length_cons] at hslots
  refine ⟨horderly, fun hdone hc => hgone (hd hdone).1 (hd hdone).2 (hclosed.symm.trans hc), hout, ?_, hclosed.trans h.closed,
    hqueue⟩
  simp only
  omega

/-- A section of an open decoder, with what it makes of the pictures. -/
theorem Sound.reading (h : s.Sound parsed unmapped destroyed) (hpc : s.pc.isClosed = false) {o : NvdecRuntimeOwner} {next : Nat} {pc : NvdecPc}
    {queue outside : List Nat} (horderly : Orderly parsed unmapped o next (pc.held ++ (queue ++ outside)))
    (hclosed : o.closed = s.owner.closed) (hout : o.outstandingMappings = (queue ++ outside).length)
    (hslots : (queue ++ outside).length + pc.slots + s.returning ≤ nvdecPoolCapacity) (hpc' : pc.isClosed = false) :
    Sound parsed unmapped destroyed ⟨o, pc, next, queue, outside, s.returning⟩ := by
  have hopen : o.closed = false := hclosed.trans (h.open hpc)
  refine ⟨horderly, fun _ hc => ?_, hout, hslots, hopen.trans hpc'.symm, fun hc => ?_⟩
  · exact absurd (hopen.symm.trans hc) Bool.false_ne_true
  · exact absurd (hpc'.symm.trans hc) Bool.false_ne_true

theorem Sound.step (h : s.Sound parsed unmapped destroyed) (hparsed : parsed → l.destroysParser = true)
    (hunmapped : unmapped → l.unmaps = true) (hdestroyed : destroyed → l.destroysContext = true) (hst : s.Step l t) :
    t.Sound parsed unmapped destroyed := by
  obtain ⟨horderly, hsettled, hout, hslots, hclosed, hqueue⟩ := id h
  cases l with
  | createDecoder =>
      simp only [Step, NvdecState.step] at hst
      split at hst
      case h_2 => cases hst
      case h_1 hpc =>
          have hpc' : s.pc.isClosed = false := by rw [hpc]; rfl
          split at hst
          · cases hst
          case isFalse hdecoder =>
              cases hst
              exact h.reading hpc' (horderly.create (h.open hpc') (by simpa using hdecoder)) rfl hout hslots hpc'
  | map =>
      simp only [Step, NvdecState.step] at hst
      split at hst
      case h_2 => cases hst
      case h_1 hpc =>
          have hpc' : s.pc.isClosed = false := by rw [hpc]; rfl
          split at hst
          · cases hst
          case isFalse hdecoder =>
              cases hst
              have hmap := horderly.map (h.open hpc') (by simpa using hdecoder)
              simp only [live, hpc] at hmap
              rw [hpc] at hslots
              exact h.reading hpc' hmap rfl hout hslots rfl
  | discard unmap =>
      simp only [Step, NvdecState.step] at hst
      split at hst
      case h_2 => cases hst
      case h_1 n hpc =>
          cases hst
          have hlive : s.live = n :: (s.queue ++ s.outside) := by rw [live, hpc]; rfl
          have hunmap := horderly.unmap (List.Perm.of_eq hlive)
          rw [hpc] at hslots
          exact h.reading (by rw [hpc]; rfl) hunmap rfl hout hslots rfl
  | acquire =>
      simp only [Step, NvdecState.step] at hst
      split at hst
      case h_2 => cases hst
      case h_1 n hpc =>
          split at hst
          case isFalse => cases hst
          case isTrue hroom =>
              cases hst
              simp only [live, hpc] at horderly
              refine h.reading (by rw [hpc]; rfl) horderly rfl hout ?_ rfl
              rw [List.length_append, Nat.add_right_comm]
              exact hroom
  | count =>
      simp only [Step, NvdecState.step] at hst
      split at hst
      case h_2 => cases hst
      case h_1 n hpc =>
          cases hst
          have hperm : s.live.Perm (s.queue ++ [n] ++ s.outside) := by
            have hlive : s.live = n :: (s.queue ++ s.outside) := by rw [live, hpc]; rfl
            rw [hlive, List.append_assoc, List.singleton_append]
            exact List.perm_middle.symm
          have hlength : (s.queue ++ [n] ++ s.outside).length = (s.queue ++ s.outside).length + 1 := by
            simp only [List.length_append, List.length_singleton, Nat.add_right_comm]
          rw [hpc] at hslots
          have hlt : (s.queue ++ s.outside).length + 1 < 2 ^ 32 := by
            simp only [NvdecPc.slots, nvdecPoolCapacity] at hslots
            omega
          refine h.reading (by rw [hpc]; rfl) ((horderly.perm hperm).count _) rfl ?_ ?_ rfl
          · rw [NvdecRuntimeOwner.acquireMapping, hout, hlength]
            exact u32_of_lt hlt
          · rw [hlength]
            exact hslots
  | deliver =>
      simp only [Step, NvdecState.step] at hst
      split at hst
      case h_2 => cases hst
      case h_1 n queue hpc hq =>
          cases hst
          have hperm : (s.queue ++ s.outside).Perm (queue ++ (s.outside ++ [n])) := by
            rw [hq, ← List.append_assoc]
            exact @List.perm_append_comm _ [n] _
          rw [hperm.length_eq] at hout hslots
          exact h.reading (by rw [hpc]; rfl) (horderly.perm (hperm.append_left _)) rfl hout hslots (by rw [hpc]; rfl)
  | release n unmap teardown =>
      simp only [Step, NvdecState.step] at hst
      split at hst
      case isFalse => cases hst
      case isTrue hn =>
          cases hst
          simp only [NvdecLabel.destroysContext, Bool.and_eq_true] at hdestroyed
          refine h.release ?_ hqueue hunmapped hdestroyed
          exact ((List.perm_cons_erase hn).append_left s.queue).trans List.perm_middle
  | recycle =>
      simp only [Step, NvdecState.step] at hst
      split at hst
      · cases hst
      · cases hst
        refine ⟨horderly, hsettled, hout, ?_, hclosed, hqueue⟩
        exact Nat.le_trans (Nat.add_le_add_left (Nat.sub_le _ _) _) hslots
  | close =>
      simp only [Step, NvdecState.step] at hst
      split at hst
      case h_2 => cases hst
      case h_1 hpc =>
          cases hst
          simp only [live, hpc] at horderly
          rw [hpc] at hslots
          exact h.reading (by rw [hpc]; rfl) horderly rfl hout hslots rfl
  | drop unmap teardown =>
      simp only [Step, NvdecState.step] at hst
      split at hst
      case h_2 => cases hst
      case h_1 n queue hpc hq =>
          cases hst
          simp only [NvdecLabel.destroysContext, Bool.and_eq_true] at hdestroyed
          refine h.release ?_ (fun hc => ?_) hunmapped hdestroyed
          · rw [hq]
            rfl
          · rw [hpc] at hc
            cases hc
  | closeRuntime parser teardown =>
      simp only [Step, NvdecState.step] at hst
      split at hst
      case h_2 => cases hst
      case h_1 hpc hq =>
          cases hst
          have hlive : s.live = s.queue ++ s.outside := by rw [live, hpc]; rfl
          have hzero : s.owner.outstandingMappings = 0 ↔ s.live = [] := by
            rw [hout, hlive, List.length_eq_zero_iff]
          obtain ⟨horderly', hgone, hclosed', hout'⟩ := horderly.close (h.open (by rw [hpc]; rfl)) hzero hparsed teardown
          rw [hpc] at hslots
          rw [hlive] at horderly' hgone
          simp only [NvdecLabel.destroysContext, Bool.and_eq_true] at hdestroyed
          refine ⟨horderly', fun hdone _ => ?_, hout'.trans hout, hslots, hclosed', fun _ => hq⟩
          exact hgone (hdestroyed hdone).1 (hdestroyed hdone).2
  | destroy =>
      simp only [Step, NvdecState.step] at hst
      split at hst
      case h_2 => cases hst
      case h_1 hpc =>
          cases hst
          simp only [live, hpc] at horderly hsettled
          rw [hpc] at hslots hclosed hqueue
          exact ⟨horderly, hsettled, hout, hslots, hclosed, hqueue⟩
  | dropOwner parser teardown =>
      simp only [Step, NvdecState.step] at hst
      split at hst
      case h_2 => cases hst
      case h_1 hpc ho =>
          cases hst
          have hdone : s.owner.closed = true := by rw [hclosed, hpc]; rfl
          have hsame : (s.owner.close parser teardown).1 = s.owner := by simp [NvdecRuntimeOwner.close, hdone]
          rw [hsame]
          exact h

theorem sound_of_run (h : Run NvdecState.Step .init ls s) (hparsed : parsed → ∀ l ∈ ls, l.destroysParser = true)
    (hunmapped : unmapped → ∀ l ∈ ls, l.unmaps = true) (hdestroyed : destroyed → ∀ l ∈ ls, l.destroysContext = true) :
    s.Sound parsed unmapped destroyed := by
  induction h with
  | nil => exact sound_init
  | snoc _ hst ih =>
      have hearlier {C : NvdecLabel → Prop} {ls : List NvdecLabel} {l : NvdecLabel} (hall : ∀ l' ∈ ls ++ [l], C l') :
          (∀ l' ∈ ls, C l') ∧ C l := List.forall_mem_append.trans (and_congr_right' List.forall_mem_singleton) |>.mp hall
      refine (ih (fun hp => (hearlier (hparsed hp)).1) (fun hu => (hearlier (hunmapped hu)).1) fun hd =>
        (hearlier (hdestroyed hd)).1).step (fun hp => (hearlier (hparsed hp)).2) (fun hu => (hearlier (hunmapped hu)).2)
        (fun hd => (hearlier (hdestroyed hd)).2) hst

end NvdecState

/-- The calls of the driver come in an order that it allows, none of them twice. Once the decoder is closed, the parser
is gone; once all frames are back as well, every picture is unmapped and the decoder handle and the context are gone. -/
theorem teardown_ordered {ls : List NvdecLabel} {s : NvdecState}
    (h : Run (Restrict NvdecState.Step fun _ l => l.succeeds = true) .init ls s) :
    Legal NvdecAllowed s.owner.events ∧ (∀ event, s.owner.events.count event ≤ 1) ∧
    (∀ n, .map n ∈ s.owner.events → n ∈ s.live ∨ s.owner.events.count (.unmap n) = 1) ∧
    (s.pc.isClosed = true → s.owner.events.count .parserDestroy = 1) ∧
    (s.pc.isClosed = true → s.live = [] →
      (∀ n, .map n ∈ s.owner.events → s.owner.events.count (.unmap n) = 1) ∧
      (.decoderCreate ∈ s.owner.events → s.owner.events.count .decoderDestroy = 1) ∧
      s.owner.events.count .contextDestroy = 1) := by
  have hsound : s.Sound True True True := h.invariant NvdecState.sound_init fun hs hst => by
    obtain ⟨hparsed, hunmapped, hdestroyed⟩ := NvdecLabel.parts_of_succeeds hst.2
    exact hs.step (fun _ => hparsed) (fun _ => hunmapped) (fun _ => hdestroyed) hst.1
  have hmapped := hsound.orderly.unmapped_once trivial
  refine ⟨hsound.orderly.legal.mono fun _ _ hallowed => hallowed.allowed trivial, hsound.orderly.count_le_one, hmapped, fun hpc => ?_,
    fun hpc hempty => ⟨fun n hn => ?_, ?_⟩⟩
  · exact hsound.parser_once trivial hpc
  · refine (hmapped n hn).resolve_left ?_
    rw [hempty]
    exact List.not_mem_nil
  · exact hsound.context_once trivial hpc hempty

/-- Two pictures are decoded, one frame is delivered, and the decoder is closed before it is released. -/
theorem teardown_ordered_small : ∃ s, Run (Restrict NvdecState.Step fun _ l => l.succeeds = true) .init
      [.createDecoder, .map, .acquire, .count, .map, .acquire, .count, .deliver, .close,
        .drop ⟨true, true, true⟩ ⟨⟨true, true, true⟩, true⟩, .closeRuntime ⟨true, true, true⟩ ⟨⟨true, true, true⟩, true⟩,
        .release 0 ⟨true, true, true⟩ ⟨⟨true, true, true⟩, true⟩] s ∧
    s.owner.events = [.contextDestroy, .decoderDestroy, .unmap 0, .parserDestroy, .closeRequested, .unmap 1, .map 1,
      .map 0, .decoderCreate] ∧ Legal NvdecAllowed s.owner.events := by
  have hrun : ∃ s, Run (Restrict NvdecState.Step fun _ l => l.succeeds = true) .init
      [.createDecoder, .map, .acquire, .count, .map, .acquire, .count, .deliver, .close,
        .drop ⟨true, true, true⟩ ⟨⟨true, true, true⟩, true⟩, .closeRuntime ⟨true, true, true⟩ ⟨⟨true, true, true⟩, true⟩,
        .release 0 ⟨true, true, true⟩ ⟨⟨true, true, true⟩, true⟩] s ∧
      s.owner.events = [.contextDestroy, .decoderDestroy, .unmap 0, .parserDestroy, .closeRequested, .unmap 1, .map 1,
        .map 0, .decoderCreate] :=
    ⟨_, .cons ⟨rfl, rfl⟩ (.cons ⟨rfl, rfl⟩ (.cons ⟨rfl, rfl⟩ (.cons ⟨rfl, rfl⟩ (.cons ⟨rfl, rfl⟩ (.cons ⟨rfl, rfl⟩
      (.cons ⟨rfl, rfl⟩ (.cons ⟨rfl, rfl⟩ (.cons ⟨rfl, rfl⟩ (.cons ⟨rfl, rfl⟩ (.cons ⟨rfl, rfl⟩ (.cons ⟨rfl, rfl⟩
        .nil))))))))))), rfl⟩
  obtain ⟨s, hrun, hevents⟩ := hrun
  exact ⟨s, hrun, hevents, (teardown_ordered hrun).1⟩

/-- Whatever the driver answers, nothing is destroyed twice or used behind its destruction, neither decoder nor context goes while a
frame is out, and every frame that comes back is taken off the count. A failure leaves behind what it concerns and nothing else;
only a picture for which the context could not be activated may still be mapped when its decoder goes. -/
theorem teardown_contained {ls : List NvdecLabel} {s : NvdecState} (h : Run NvdecState.Step .init ls s) :
    Legal (NvdecPermitted (∀ l ∈ ls, l.unmaps = true)) s.owner.events ∧ (∀ event, s.owner.events.count event ≤ 1) ∧
    (.decoderDestroy ∈ s.owner.events ∨ .contextDestroy ∈ s.owner.events → s.pc.isClosed = true ∧ s.live = []) ∧
    s.owner.outstandingMappings = (s.queue ++ s.outside).length ∧
    ((∀ l ∈ ls, l.unmaps = true) → ∀ n, .map n ∈ s.owner.events → n ∈ s.live ∨ s.owner.events.count (.unmap n) = 1) ∧
    ((∀ l ∈ ls, l.destroysParser = true) → s.pc.isClosed = true → s.owner.events.count .parserDestroy = 1) ∧
    ((∀ l ∈ ls, l.destroysContext = true) → s.pc.isClosed = true → s.live = [] →
      (.decoderCreate ∈ s.owner.events → s.owner.events.count .decoderDestroy = 1) ∧
      s.owner.events.count .contextDestroy = 1) := by
  have hsound : s.Sound (∀ l ∈ ls, l.destroysParser = true) (∀ l ∈ ls, l.unmaps = true) (∀ l ∈ ls, l.destroysContext = true) :=
    NvdecState.sound_of_run h id id id
  have hgone (hmem : .decoderDestroy ∈ s.owner.events ∨ .contextDestroy ∈ s.owner.events) :
      s.owner.closed = true ∧ s.live = [] := by
    rcases hmem with hmem | hmem
    · exact hsound.orderly.destroyed hmem
    · obtain ⟨hclosed, -, hempty⟩ := hsound.orderly.gone (hsound.orderly.context_iff.mp hmem)
      exact ⟨hclosed, hempty⟩
  exact ⟨hsound.orderly.legal, hsound.orderly.count_le_one, fun hmem => ⟨hsound.closed.symm.trans (hgone hmem).1, (hgone hmem).2⟩,
    hsound.outstanding, hsound.orderly.unmapped_once, hsound.parser_once, hsound.context_once⟩

/-- The context cannot be activated for the one frame, and the decoder ends with its picture mapped. -/
theorem teardown_contained_small : ∃ s, Run NvdecState.Step .init
      [.createDecoder, .map, .acquire, .count, .deliver, .close,
        .closeRuntime ⟨true, true, true⟩ ⟨⟨true, true, true⟩, true⟩, .release 0 ⟨false, true, true⟩ ⟨⟨true, true, true⟩, true⟩] s ∧
    s.owner.events = [.contextDestroy, .decoderDestroy, .parserDestroy, .closeRequested, .map 0, .decoderCreate] ∧
    s.owner.events.count .contextDestroy = 1 := by
  have hrun : ∃ s, Run NvdecState.Step .init
      [.createDecoder, .map, .acquire, .count, .deliver, .close,
        .closeRuntime ⟨true, true, true⟩ ⟨⟨true, true, true⟩, true⟩, .release 0 ⟨false, true, true⟩ ⟨⟨true, true, true⟩, true⟩] s ∧
      s.owner.events = [.contextDestroy, .decoderDestroy, .parserDestroy, .closeRequested, .map 0, .decoderCreate] ∧
      s.pc.isClosed = true ∧ s.live = [] := ⟨_, .of_exec rfl, rfl, rfl, rfl⟩
  obtain ⟨s, hrun, hevents, hclosed, hempty⟩ := hrun
  obtain ⟨-, -, -, -, -, -, hcontext⟩ := teardown_contained hrun
  exact ⟨s, hrun, hevents, (hcontext (by decide) hclosed hempty).2⟩

end MkvCodec.Gpu
