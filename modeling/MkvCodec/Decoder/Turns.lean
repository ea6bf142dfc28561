import MkvCodec.Concurrency.Transition
import MkvCodec.Decoder.Lemmas.Reads

/-!
# Turns of a decode loop

The loops of `read_frame` turn by turn. A turn is a round of the `while (true)`; what it does is its event. Several reads, one after the
other, are a run of turns.
-/

namespace MkvCodec.Decoder

open Concurrency

/-- What a turn does. `took` is an image that the codec had to give, with whether its packet is still kept (or it has none) where its
pointer is read. -/
inductive Event (I : Type*)
  | took (image : I) (kept : Bool) (ended : ReadEnd DecodedFrame)
  | stopped (ended : ReadEnd DecodedFrame)
  | demuxEnded
  | decoded (error : Option String) (images : List I)
  | drained (error : Option String) (images : List I)
  | finished

variable {B I A : Type*}

/-- How the read ends with a turn, unless it goes on. -/
def Event.ended : Event I → Option (ReadEnd DecodedFrame)
  | .took _ _ ended | .stopped ended => some ended
  | .demuxEnded => none
  | .decoded error _ | .drained error _ => error.map codecError
  | .finished => some (.ended ⟨.endOfStream, ""⟩ Result.endOfStream_ne_ok)

/-- A read: turns up to the one that it ends with. -/
def loop (turn : B → List A → Option (Event I × B)) : List (List A) → B → Option (ReadEnd DecodedFrame × B)
  | [], _ => none
  | answers :: rest, b => (turn b answers).bind fun r =>
      match r.1.ended with
      | none => loop turn rest r.2
      | some ended => if rest.isEmpty then some (ended, r.2) else none

/-- The steps of a decoder are its turns. -/
abbrev TurnStep (turn : B → List A → Option (Event I × B)) (b : B) (answers : List A) (b' : B) : Prop :=
  (turn b answers).map Prod.snd = some b'

theorem run_of_loop {turn : B → List A → Option (Event I × B)} {turns : List (List A)} {b b' : B} {ended : ReadEnd DecodedFrame}
    (h : loop turn turns b = some (ended, b')) : Run (TurnStep turn) b turns b' := by
  induction turns generalizing b with
  | nil => cases h
  | cons answers rest ih =>
      rw [loop] at h
      obtain ⟨⟨event, c⟩, hturn, hrest⟩ := Option.bind_eq_some_iff.mp h
      have hstep : TurnStep turn b answers c := by rw [TurnStep, hturn]; rfl
      split at hrest
      case h_1 => exact .cons hstep (ih hrest)
      case h_2 =>
          split at hrest
          case isTrue hnil =>
              cases hrest
              rw [List.isEmpty_iff.mp hnil]
              exact .single hstep
          case isFalse => cases hrest

/-! ## VP9 -/

/-- Whether the packet of a pointer is still kept; a null pointer has none. -/
def Vp9.keeps (b : Vp9) : Option Nat → Bool
  | none => true
  | some number => b.submitted.any fun p => p.1 = number

/-- The turn that reads a packet and decodes it. -/
def Vp9.packetTurn (b : Vp9) : List Answer → Option (Event Image × Vp9)
  | [.threw what] => some (.stopped (.threw what), b)
  | [.demux (.failed error)] => some (.stopped (.ended ⟨.errorIo, error⟩ Result.errorIo_ne_ok), b)
  | [.demux .endOfStream] => some (.demuxEnded, { b with demuxEos := true })
  | [.demux (.packet _), .threw what] => some (.stopped (.threw what), b)
  | [.demux (.packet packet), .decode answer] => some (.decoded answer.error answer.images, b.feed packet answer)
  | _ => none

def Vp9.drainTurn (b : Vp9) : List Answer → Option (Event Image × Vp9)
  | [.decode answer] => some (.drained answer.error answer.images, b.drain answer)
  | _ => none

/-- A turn of the loop of `readFrame`. -/
def Vp9.turn (b : Vp9) (answers : List Answer) : Option (Event Image × Vp9) :=
  match b.ready with
  | image :: rest =>
      (Vp9.give answers image { b with ready := rest }).map fun r => (.took image (b.keeps image.userPriv) r.1, r.2)
  | [] =>
      if !b.demuxEos then b.packetTurn answers
      else if !b.drained then b.drainTurn answers
      else if answers.isEmpty then some (.finished, b)
      else none

variable {answers : List Answer} {b b' : Vp9} {ended : ReadEnd DecodedFrame}

theorem loop_last {turn : B → List A → Option (Event I × B)} {answers : List A} {b b' : B} {event : Event I}
    (hturn : turn b answers = some (event, b')) (hended : event.ended = some ended) :
    ∃ turns, turns.flatten = answers ∧ loop turn turns b = some (ended, b') := by
  refine ⟨[answers], List.flatten_singleton, ?_⟩
  rw [loop, hturn, Option.bind_some]
  simp [hended]

theorem loop_cons {turn : B → List A → Option (Event I × B)} {answers rest : List A} {b c b' : B} {event : Event I}
    (hturn : turn b answers = some (event, c)) (hended : event.ended = none)
    (h : ∃ turns, turns.flatten = rest ∧ loop turn turns c = some (ended, b')) :
    ∃ turns, turns.flatten = answers ++ rest ∧ loop turn turns b = some (ended, b') := by
  obtain ⟨turns, rfl, hloop⟩ := h
  refine ⟨answers :: turns, List.flatten_cons, ?_⟩
  rw [loop, hturn, Option.bind_some]
  simpa only [hended] using hloop

theorem turn_took {image : Image} {rest : List Image} (hready : b.ready = image :: rest)
    (h : Vp9.give answers image { b with ready := rest } = some (ended, b')) :
    b.turn answers = some (.took image (b.keeps image.userPriv) ended, b') := by
  rw [Vp9.turn, hready]
  simp only [h, Option.map_some]

theorem turn_packet (hready : b.ready = []) (heos : b.demuxEos = false) : b.turn answers = b.packetTurn answers := by
  simp [Vp9.turn, hready, heos]

theorem turn_drain (hready : b.ready = []) (heos : b.demuxEos = true) (hdrained : b.drained = false) :
    b.turn answers = b.drainTurn answers := by
  simp [Vp9.turn, hready, heos, hdrained]

theorem Reads.turns (h : Reads answers b ended b') : ∃ turns, turns.flatten = answers ∧ loop Vp9.turn turns b = some (ended, b') := by
  induction h with
  | frame hready hcopy =>
      refine loop_last (turn_took hready ?_) rfl
      rw [Vp9.give, hcopy]
  | unsupported hready hbad =>
      refine loop_last (turn_took hready ?_) rfl
      simp [Vp9.give, copyImage, hbad]
  | copyThrew hready => exact loop_last (turn_took hready rfl) rfl
  | demuxThrew hready heos | demuxFailed hready heos | packetThrew hready heos =>
      exact loop_last ((turn_packet hready heos).trans rfl) rfl
  | @demuxEnd b rest ended b' hready heos hreads ih =>
      have hturn : b.turn [.demux .endOfStream] = some (.demuxEnded, { b with demuxEos := true }) := turn_packet hready heos
      exact loop_cons hturn rfl ih
  | feedFailed hready heos herror =>
      refine loop_last ((turn_packet hready heos).trans rfl) ?_
      rw [Event.ended, herror, Option.map_some]
  | @feed b packet answer rest ended b' hready heos herror hreads ih =>
      have hturn : b.turn [.demux (.packet packet), .decode answer] = some (.decoded answer.error answer.images, b.feed packet answer) :=
        turn_packet hready heos
      exact loop_cons hturn (by rw [Event.ended, herror, Option.map_none]) ih
  | drainFailed hready heos hdrained herror =>
      refine loop_last ((turn_drain hready heos hdrained).trans rfl) ?_
      rw [Event.ended, herror, Option.map_some]
  | @drain b answer rest ended b' hready heos hdrained herror hreads ih =>
      have hturn : b.turn [.decode answer] = some (.drained answer.error answer.images, b.drain answer) :=
        turn_drain hready heos hdrained
      exact loop_cons hturn (by rw [Event.ended, herror, Option.map_none]) ih
  | @finished b hready heos hdrained =>
      have hturn : b.turn [] = some (.finished, b) := by simp [Vp9.turn, hready, heos, hdrained]
      exact loop_last hturn rfl

/-- A read of the VP9 backend is the turns of its loop. -/
theorem readFrame_turns (h : readFrame answers b = some (ended, b')) :
    ∃ turns, turns.flatten = answers ∧ loop Vp9.turn turns b = some (ended, b') := (readFrame_reads h).turns

end MkvCodec.Decoder
