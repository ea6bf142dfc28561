import MkvCodec.Decoder.Av1

/-!
# Which packet a frame is of

The CPU decoders over runs of their turns: the time stamps that frames are given, the order of the images, and how long packets are kept.
-/

namespace MkvCodec.Decoder

open Concurrency

variable {B I A : Type*}

/-! ## What has happened so far -/

/-- `outputs` are the images that decode calls have left, `answered` those that reads have taken, with how each of these reads has ended.
`dangling` when a pointer was read whose packet was not kept, `early` when the end of the stream was returned before the demuxer's end or
before the drain. -/
structure Account (I : Type*) where
  outputs : List I
  answered : List (I × ReadEnd DecodedFrame)
  dangling : Bool
  demuxEnded : Bool
  drained : Bool
  early : Bool

def Account.empty : Account I := ⟨[], [], false, false, false, false⟩

/-- `drains` when the codec has to be drained. -/
def Account.record (drains : Bool) (h : Account I) : Event I → Account I
  | .took image kept ended => { h with answered := h.answered ++ [(image, ended)], dangling := h.dangling || !kept }
  | .stopped _ => h
  | .demuxEnded => { h with demuxEnded := true }
  | .decoded _ images => { h with outputs := h.outputs ++ images }
  | .drained _ images => { h with outputs := h.outputs ++ images, drained := true }
  | .finished => { h with early := h.early || !(h.demuxEnded && (h.drained || !drains)) }

def account (turn : B → List A → Option (Event I × B)) (drains : Bool) (b : B) (answers : List A) (h : Account I) : Account I :=
  match turn b answers with
  | some (event, _) => h.record drains event
  | none => h

/-- The turns of a decoder, with the account of them. -/
abbrev AccountedStep (turn : B → List A → Option (Event I × B)) (drains : Bool) : B × Account I → List A → B × Account I → Prop :=
  Watch (TurnStep turn) (account turn drains)

theorem accountedStep_inv {turn : B → List A → Option (Event I × B)} {drains : Bool} {b b' : B} {answers : List A} {h h' : Account I}
    (hst : AccountedStep turn drains (b, h) answers (b', h')) :
    ∃ event, turn b answers = some (event, b') ∧ h' = h.record drains event := by
  obtain ⟨hturn, haccount⟩ := hst
  obtain ⟨⟨event, c⟩, hevent, rfl⟩ := Option.map_eq_some_iff.mp hturn
  refine ⟨event, hevent, ?_⟩
  change h' = account turn drains b answers h at haccount
  rw [haccount, account, hevent]

/-! ## What is to hold -/

/-- An image of a packet is answered with its frame, under the packet's own time stamp, or as `unsupported`. -/
def Answered (copy : I → Int → Option DecodedFrame) (unsupported : I → ReadEnd DecodedFrame) (userPriv : I → Option Nat)
    (fed : List EncodedPacket) (p : I × ReadEnd DecodedFrame) : Prop :=
  ∃ ptsNs, p.2 = ((copy p.1 ptsNs).map ReadEnd.frame).getD (unsupported p.1) ∧
    match userPriv p.1 with
    | none => ptsNs = 0
    | some number => ∃ packet, fed[number]? = some packet ∧ ptsNs = packet.ptsNs

/-- `left` are the images that the codec has left to give, and a packet is `open` while the codec can still output an image of it. -/
structure Attributed (copy : I → Int → Option DecodedFrame) (unsupported : I → ReadEnd DecodedFrame) (userPriv : I → Option Nat)
    (fed : List EncodedPacket) (submitted : List (Nat × EncodedPacket)) (left : List I) (isOpen : Nat → Prop) (h : Account I) :
    Prop where
  pointers : h.dangling = false
  answers : ∀ p ∈ h.answered, Answered copy unsupported userPriv fed p
  order : h.outputs = h.answered.map Prod.fst ++ left
  ends : h.early = false
  retained : ∀ p ∈ submitted, isOpen p.1

def unsupportedEnd (_ : Image) : ReadEnd DecodedFrame := .ended unsupportedImage unsupportedImage_ne_ok

def unsupportedAomEnd (image : AomImage) : ReadEnd DecodedFrame :=
  .ended (unsupportedAomImage image) (unsupportedAomImage_ne_ok image)

/-- libvpx can still output the images that it has left. -/
def Vp9.Attributed (s : Vp9 × Account Image) : Prop :=
  Decoder.Attributed copyImage unsupportedEnd Image.userPriv s.1.fed s.1.submitted s.1.ready
    (fun number => ∃ image ∈ s.1.ready, image.userPriv = some number) s.2

/-- libaom can still output images of the last packet, until it has said that there is none. -/
def Av1.Attributed (s : Av1 × Account AomImage) : Prop :=
  Decoder.Attributed copyAomImage unsupportedAomEnd AomImage.userPriv s.1.fed s.1.submitted (s.1.ready.getD [])
    (fun number => s.1.ready.isSome = true ∧ number + 1 = s.1.fed.length) s.2

/-! ## The codecs, and what has to hold of their answers -/

/-- libvpx leaves at most one image with a decode call, and the image carries the pointer of the call; a drain has none. -/
def Vp9.Codec (s : Vp9 × Account Image) (answers : List Answer) : Prop :=
  (∀ packet answer, answers = [.demux (.packet packet), .decode answer] →
    answer.images.length ≤ 1 ∧ ∀ image ∈ answer.images, image.userPriv = some s.1.fed.length) ∧
  ∀ answer, answers = [.decode answer] → answer.images.length ≤ 1 ∧ ∀ image ∈ answer.images, image.userPriv = none

/-- Every packet gives an image, and no image fails to be copied for want of memory. -/
def Vp9.Fine (s : Vp9 × Account Image) (answers : List Answer) : Prop :=
  (∀ packet answer, answers = [.demux (.packet packet), .decode answer] → answer.images ≠ []) ∧
  (s.1.ready ≠ [] → answers = [])

/-- libaom leaves any number of images, which carry the pointer of the decode call. -/
def Av1.Codec (s : Av1 × Account AomImage) (answers : List Av1Answer) : Prop :=
  ∀ packet error images, answers = [.demux (.packet packet), .decode error images] →
    ∀ image ∈ images, image.userPriv = some s.1.fed.length

/-- No decode call fails, and no image fails to be copied for want of memory. -/
def Av1.Fine (s : Av1 × Account AomImage) (answers : List Av1Answer) : Prop :=
  (∀ packet error images, answers = [.demux (.packet packet), .decode error images] → error = none) ∧
  (s.1.ready.getD [] ≠ [] → answers = [])

abbrev Vp9.FineStep : Vp9 × Account Image → List Answer → Vp9 × Account Image → Prop :=
  Restrict (AccountedStep Vp9.turn true) fun s answers => Vp9.Codec s answers ∧ Vp9.Fine s answers

abbrev Av1.FineStep : Av1 × Account AomImage → List Av1Answer → Av1 × Account AomImage → Prop :=
  Restrict (AccountedStep Av1.turn false) fun s answers => Av1.Codec s answers ∧ Av1.Fine s answers

/-! ## VP9 -/

/-- What a turn does, with what it finds. -/
inductive Vp9.Turned (b : Vp9) : List Answer → Event Image → Vp9 → Prop
  | took {answers : List Answer} {image : Image} {rest : List Image} {ended : ReadEnd DecodedFrame} {b' : Vp9} :
      b.ready = image :: rest → Vp9.give answers image { b with ready := rest } = some (ended, b') →
      Turned b answers (.took image (b.keeps image.userPriv) ended) b'
  | stopped {answers : List Answer} {ended : ReadEnd DecodedFrame} : Turned b answers (.stopped ended) b
  | demuxEnded {answers : List Answer} : b.ready = [] → Turned b answers .demuxEnded { b with demuxEos := true }
  | decoded {packet : EncodedPacket} {answer : DecodeAnswer} : b.ready = [] →
      Turned b [.demux (.packet packet), .decode answer] (.decoded answer.error answer.images) (b.feed packet answer)
  | drained {answer : DecodeAnswer} : b.ready = [] → b.demuxEos = true →
      Turned b [.decode answer] (.drained answer.error answer.images) (b.drain answer)
  | finished {answers : List Answer} : b.demuxEos = true → b.drained = true → Turned b answers .finished b

variable {b b' : Vp9} {event : Event Image} {answers : List Answer}

theorem Vp9.turned_of_turn (h : b.turn answers = some (event, b')) : b.Turned answers event b' := by
  rw [Vp9.turn] at h
  split at h
  case h_1 image rest hready =>
      obtain ⟨⟨ended, c⟩, hgive, heq⟩ := Option.map_eq_some_iff.mp h
      cases heq
      exact .took hready hgive
  case h_2 hready =>
      split at h
      case isTrue heos =>
          unfold Vp9.packetTurn at h
          split at h <;> cases h
          case h_3 => exact .demuxEnded hready
          case h_5 => exact .decoded hready
          all_goals exact .stopped
      case isFalse heos =>
          have heos : b.demuxEos = true := by simpa using heos
          split at h
          case isTrue hdrained =>
              unfold Vp9.drainTurn at h
              split at h <;> cases h
              exact .drained hready heos
          case isFalse hdrained =>
              split at h <;> cases h
              exact .finished heos (by simpa using hdrained)

/-- What holds of the VP9 loop: at most one image is waiting, and of the packets only its own is kept. -/
structure Vp9.Sound (s : Vp9 × Account Image) : Prop where
  attributed : Vp9.Attributed s
  single : s.1.ready.length ≤ 1
  held : ∀ image ∈ s.1.ready, ∀ number, image.userPriv = some number →
    ∃ packet, s.1.submitted = [(number, packet)] ∧ s.1.fed[number]? = some packet
  demuxEnded : s.1.demuxEos = true → s.2.demuxEnded = true
  drained : s.1.drained = true → s.2.drained = true

variable {h : Account Image} {image : Image}

theorem Vp9.give_fine {ended : ReadEnd DecodedFrame} (hgive : Vp9.give [] image b = some (ended, b')) :
    ended = ((copyImage image (b.pts image)).map ReadEnd.frame).getD (unsupportedEnd image) ∧ b' = b.forget image := by
  rw [Vp9.give] at hgive
  split at hgive
  case h_1 frame hcopy =>
      cases hgive
      rw [hcopy]
      exact ⟨rfl, rfl⟩
  case h_2 hcopy =>
      cases hgive
      rw [hcopy]
      exact ⟨rfl, rfl⟩

/-- The image that is waiting is given under the time stamp of its packet, and the packet is dropped. -/
theorem Vp9.Sound.waiting (hs : Vp9.Sound (b, h)) (hready : b.ready = [image]) :
    b.keeps image.userPriv = true ∧ (Vp9.forget { b with ready := [] } image).submitted = [] ∧
      match image.userPriv with
      | none => Vp9.pts { b with ready := [] } image = 0
      | some number => ∃ packet, b.fed[number]? = some packet ∧ Vp9.pts { b with ready := [] } image = packet.ptsNs := by
  have hmem : image ∈ b.ready := by rw [hready]; exact List.mem_singleton_self image
  cases huser : image.userPriv with
  | none =>
      have hnil : b.submitted = [] := by
        refine List.eq_nil_iff_forall_not_mem.mpr fun p hp => ?_
        obtain ⟨image', himage', hnumber⟩ := hs.attributed.retained p hp
        change image' ∈ b.ready at himage'
        rw [hready, List.mem_singleton] at himage'
        rw [himage', huser] at hnumber
        cases hnumber
      simp [Vp9.keeps, Vp9.forget, Vp9.pts, huser, hnil]
  | some number =>
      obtain ⟨packet, hsubmitted, hfed⟩ := hs.held image hmem number huser
      change b.submitted = _ at hsubmitted
      change b.fed[number]? = _ at hfed
      simp [Vp9.keeps, Vp9.forget, Vp9.pts, huser, hsubmitted, hfed]

theorem answered_append {copy : I → Int → Option DecodedFrame} {unsupported : I → ReadEnd DecodedFrame} {userPriv : I → Option Nat}
    {fed : List EncodedPacket} (packet : EncodedPacket) {p : I × ReadEnd DecodedFrame} (h : Answered copy unsupported userPriv fed p) :
    Answered copy unsupported userPriv (fed ++ [packet]) p := by
  obtain ⟨ptsNs, hended, hpts⟩ := h
  refine ⟨ptsNs, hended, ?_⟩
  split at hpts
  case h_1 => exact hpts
  case h_2 number hnumber =>
      obtain ⟨packet', hfed, heq⟩ := hpts
      exact ⟨packet', by rw [List.getElem?_append_left (List.getElem?_eq_some_iff.mp hfed).1, hfed], heq⟩

theorem Vp9.Sound.took {ended : ReadEnd DecodedFrame} (hs : Vp9.Sound (b, h)) (hready : b.ready = [image])
    (hgive : Vp9.give [] image { b with ready := [] } = some (ended, b')) :
    Vp9.Sound (b', h.record true (.took image (b.keeps image.userPriv) ended)) := by
  obtain ⟨hended, rfl⟩ := Vp9.give_fine hgive
  obtain ⟨hkeeps, hsubmitted, hpts⟩ := hs.waiting hready
  have hforget : (Vp9.forget { b with ready := [] } image).ready = [] ∧ (Vp9.forget { b with ready := [] } image).fed = b.fed ∧
      (Vp9.forget { b with ready := [] } image).demuxEos = b.demuxEos ∧
      (Vp9.forget { b with ready := [] } image).drained = b.drained := by
    unfold Vp9.forget
    split <;> simp
  obtain ⟨hleft, hfed, heos, hdrained⟩ := hforget
  refine ⟨⟨?_, ?_, ?_, hs.attributed.ends, ?_⟩, ?_, ?_, ?_, ?_⟩
  · simp only [Account.record, hkeeps, Bool.not_true, Bool.or_false]
    exact hs.attributed.pointers
  · intro p hp
    rw [hfed]
    rcases List.mem_append.mp hp with hp | hp
    · exact hs.attributed.answers p hp
    · rw [List.mem_singleton.mp hp]
      exact ⟨_, hended, hpts⟩
  · have horder : h.outputs = h.answered.map Prod.fst ++ b.ready := hs.attributed.order
    simp [Account.record, hleft, horder, hready]
  · intro p hp
    change p ∈ (Vp9.forget _ image).submitted at hp
    rw [hsubmitted] at hp
    cases hp
  · rw [hleft]
    exact Nat.zero_le 1
  · rw [hleft]
    intro image' himage'
    cases himage'
  · rw [heos]
    exact hs.demuxEnded
  · rw [hdrained]
    exact hs.drained

/-- With nothing waiting, no packet is kept. -/
theorem Vp9.Sound.submitted_nil (hs : Vp9.Sound (b, h)) (hready : b.ready = []) : b.submitted = [] := by
  refine List.eq_nil_iff_forall_not_mem.mpr fun p hp => ?_
  obtain ⟨image, himage, -⟩ := hs.attributed.retained p hp
  change image ∈ b.ready at himage
  rw [hready] at himage
  cases himage

theorem Vp9.Sound.fed {packet : EncodedPacket} {answer : DecodeAnswer} (hs : Vp9.Sound (b, h)) (hready : b.ready = [])
    (hlength : answer.images.length ≤ 1) (hcarries : ∀ image ∈ answer.images, image.userPriv = some b.fed.length)
    (himages : answer.images ≠ []) :
    Vp9.Sound (b.feed packet answer, h.record true (.decoded answer.error answer.images)) := by
  have hsubmitted : (b.feed packet answer).submitted = [(b.fed.length, packet)] := by
    rw [Vp9.feed, hs.submitted_nil hready, List.nil_append]
  have hnumber : (b.fed ++ [packet])[b.fed.length]? = some packet := List.getElem?_concat_length
  obtain ⟨image, himage⟩ := List.exists_mem_of_ne_nil _ himages
  refine ⟨⟨hs.attributed.pointers, ?_, ?_, hs.attributed.ends, ?_⟩, hlength, ?_, hs.demuxEnded, hs.drained⟩
  · intro p hp
    exact answered_append packet (hs.attributed.answers p hp)
  · have horder : h.outputs = h.answered.map Prod.fst ++ b.ready := hs.attributed.order
    simp [Account.record, Vp9.feed, horder, hready]
  · intro p hp
    change p ∈ (b.feed packet answer).submitted at hp
    rw [hsubmitted, List.mem_singleton] at hp
    rw [hp]
    exact ⟨image, himage, hcarries image himage⟩
  · intro image' himage' number hpriv
    rw [hcarries image' himage'] at hpriv
    cases hpriv
    exact ⟨packet, hsubmitted, hnumber⟩

theorem Vp9.Sound.drainCalled {answer : DecodeAnswer} (hs : Vp9.Sound (b, h)) (hready : b.ready = [])
    (hlength : answer.images.length ≤ 1) (hcarries : ∀ image ∈ answer.images, image.userPriv = none) :
    Vp9.Sound (b.drain answer, h.record true (.drained answer.error answer.images)) := by
  have hsubmitted : (b.drain answer).submitted = [] := hs.submitted_nil hready
  refine ⟨⟨hs.attributed.pointers, hs.attributed.answers, ?_, hs.attributed.ends, ?_⟩, hlength, ?_, hs.demuxEnded, fun _ => rfl⟩
  · have horder : h.outputs = h.answered.map Prod.fst ++ b.ready := hs.attributed.order
    simp [Account.record, Vp9.drain, horder, hready]
  · intro p hp
    change p ∈ (b.drain answer).submitted at hp
    rw [hsubmitted] at hp
    cases hp
  · intro image himage number hpriv
    rw [hcarries image himage] at hpriv
    cases hpriv

theorem Vp9.Sound.step {s t : Vp9 × Account Image} (hs : Vp9.Sound s) (hst : Vp9.FineStep s answers t) : Vp9.Sound t := by
  obtain ⟨b, h⟩ := s
  obtain ⟨b', h'⟩ := t
  obtain ⟨hst, ⟨hpacket, hdrain⟩, hgives, hcopies⟩ := hst
  obtain ⟨event, hturn, rfl⟩ := accountedStep_inv hst
  cases Vp9.turned_of_turn hturn with
  | @took answers image rest ended b' hready hgive =>
      obtain rfl : answers = [] := hcopies (by rw [hready]; simp)
      have hsingle : b.ready.length ≤ 1 := hs.single
      obtain rfl : rest = [] := by
        rw [hready, List.length_cons] at hsingle
        exact List.length_eq_zero_iff.mp (by omega)
      exact hs.took hready hgive
  | stopped => exact hs
  | demuxEnded =>
      obtain ⟨hpointers, hanswers, horder, hends, hretained⟩ := hs.attributed
      exact ⟨⟨hpointers, hanswers, horder, hends, hretained⟩, hs.single, hs.held, fun _ => rfl, hs.drained⟩
  | @decoded packet answer hready =>
      obtain ⟨hlength, hcarries⟩ := hpacket packet answer rfl
      exact hs.fed hready hlength hcarries (hgives packet answer rfl)
  | @drained answer hready heos =>
      obtain ⟨hlength, hcarries⟩ := hdrain answer rfl
      exact hs.drainCalled hready hlength hcarries
  | finished heos hdrained =>
      have hended : h.demuxEnded = true := hs.demuxEnded heos
      have hcalled : h.drained = true := hs.drained hdrained
      obtain ⟨hpointers, hanswers, horder, hends, hretained⟩ := hs.attributed
      change h.early = false at hends
      refine ⟨⟨hpointers, hanswers, horder, ?_, hretained⟩, hs.single, hs.held, hs.demuxEnded, hs.drained⟩
      simp [Account.record, hended, hcalled, hends]

theorem Vp9.sound_opened : Vp9.Sound (Vp9.opened, .empty) where
  attributed := ⟨rfl, by simp [Account.empty], rfl, rfl, by simp [Vp9.opened]⟩
  single := Nat.zero_le 1
  held := by simp [Vp9.opened]
  demuxEnded := nofun
  drained := nofun

/-! ## AV1 -/

/-- What a turn does behind the images. -/
inductive Av1.Rest (c : Av1) : List Av1Answer → Event AomImage → Av1 → Prop
  | stopped {answers : List Av1Answer} {ended : ReadEnd DecodedFrame} : Rest c answers (.stopped ended) c
  | demuxEnded {answers : List Av1Answer} : Rest c answers .demuxEnded { c with demuxEos := true }
  | decoded {packet : EncodedPacket} {error : Option String} {images : List AomImage} :
      Rest c [.demux (.packet packet), .decode error images] (.decoded error images) (c.feed packet error images)
  | finished {answers : List Av1Answer} : c.demuxEos = true → Rest c answers .finished c

variable {c c' : Av1} {event₁ : Event AomImage} {answers₁ : List Av1Answer} {h₁ : Account AomImage} {aom : AomImage}

theorem Av1.rest_of_restTurn (h : c.restTurn answers₁ = some (event₁, c')) : c.Rest answers₁ event₁ c' := by
  rw [Av1.restTurn] at h
  split at h
  case isTrue =>
      unfold Av1.packetTurn at h
      split at h <;> cases h
      case h_3 => exact .demuxEnded
      case h_5 => exact .decoded
      all_goals exact .stopped
  case isFalse heos =>
      split at h <;> cases h
      exact .finished (by simpa using heos)

/-- What holds of the AV1 loop: while output is pending, only the packet of it is kept, and else none. -/
structure Av1.Sound (s : Av1 × Account AomImage) : Prop where
  attributed : Av1.Attributed s
  active : s.1.outputPending = true → ∃ packets packet images, s.1.fed = packets ++ [packet] ∧
    s.1.submitted = [(packets.length, packet)] ∧ s.1.activePts = some packets.length ∧ s.1.ready = some images ∧
    ∀ image ∈ images, image.userPriv = some packets.length
  idle : s.1.outputPending = false → s.1.submitted = [] ∧ s.1.ready = none
  demuxEnded : s.1.demuxEos = true → s.2.demuxEnded = true

theorem Av1.give_fine {ended : ReadEnd DecodedFrame} (hgive : Av1.give [] aom c = some (ended, c')) :
    ended = ((copyAomImage aom (c.pts aom)).map ReadEnd.frame).getD (unsupportedAomEnd aom) ∧ c' = c := by
  rw [Av1.give] at hgive
  split at hgive
  case h_1 frame hcopy =>
      cases hgive
      rw [hcopy]
      exact ⟨rfl, rfl⟩
  case h_2 hcopy =>
      cases hgive
      rw [hcopy]
      exact ⟨rfl, rfl⟩

/-- An image is given under the time stamp of the packet that is kept. -/
theorem Av1.Sound.took {rest : List AomImage} {ended : ReadEnd DecodedFrame} (hs : Av1.Sound (c, h₁)) (hpending : c.outputPending = true)
    (hready : c.ready = some (aom :: rest)) (hgive : Av1.give [] aom { c with ready := some rest } = some (ended, c')) :
    Av1.Sound (c', h₁.record false (.took aom (c.keeps aom.userPriv) ended)) := by
  obtain ⟨hended, rfl⟩ := Av1.give_fine hgive
  obtain ⟨packets, packet, images, hfed, hsubmitted, hactive, himages, hcarries⟩ := hs.active hpending
  change c.fed = _ at hfed
  change c.submitted = _ at hsubmitted
  obtain rfl : images = aom :: rest := Option.some.inj (himages.symm.trans hready)
  have huser : aom.userPriv = some packets.length := hcarries aom List.mem_cons_self
  obtain ⟨hpointers, hanswers, horder, hends, hretained⟩ := hs.attributed
  change h₁.dangling = false at hpointers
  change h₁.outputs = _ ++ c.ready.getD [] at horder
  have hkeeps : c.keeps aom.userPriv = true := by simp [Av1.keeps, huser, hsubmitted]
  have hpts : Av1.pts { c with ready := some rest } aom = packet.ptsNs := by simp [Av1.pts, huser, hsubmitted]
  refine ⟨⟨?_, ?_, ?_, hends, ?_⟩, fun _ => ?_, fun hidle => ?_, hs.demuxEnded⟩
  · simp [Account.record, hkeeps, hpointers]
  · intro p hp
    rcases List.mem_append.mp hp with hp | hp
    · exact hanswers p hp
    · rw [List.mem_singleton.mp hp]
      refine ⟨_, hended, ?_⟩
      rw [huser]
      exact ⟨packet, by simp [hfed], hpts⟩
  · simp [Account.record, horder, hready]
  · intro p hp
    exact ⟨rfl, (hretained p hp).2⟩
  · exact ⟨packets, packet, rest, hfed, hsubmitted, hactive, rfl, fun image himage => hcarries image (List.mem_cons_of_mem aom himage)⟩
  · rw [hpending] at hidle
    cases hidle

/-- The packet is dropped when the codec has no image left of it. -/
theorem Av1.Sound.release (hs : Av1.Sound (c, h₁)) (hpending : c.outputPending = true) (hready : c.ready.getD [] = []) :
    Av1.Sound (c.release, h₁) := by
  obtain ⟨packets, packet, images, hfed, hsubmitted, hactive, himages, hcarries⟩ := hs.active hpending
  change c.submitted = _ at hsubmitted
  change c.activePts = _ at hactive
  have hnil : c.release.submitted = [] := by simp [Av1.release, hactive, hsubmitted]
  obtain ⟨hpointers, hanswers, horder, hends, hretained⟩ := hs.attributed
  change h₁.outputs = _ ++ c.ready.getD [] at horder
  rw [hready] at horder
  refine ⟨⟨hpointers, hanswers, horder, hends, ?_⟩, nofun, fun _ => ⟨hnil, rfl⟩, hs.demuxEnded⟩
  intro p hp
  change p ∈ c.release.submitted at hp
  rw [hnil] at hp
  cases hp

theorem Av1.Sound.fed {packet : EncodedPacket} {images : List AomImage} (hs : Av1.Sound (c, h₁)) (hidle : c.outputPending = false)
    (hcarries : ∀ image ∈ images, image.userPriv = some c.fed.length) :
    Av1.Sound (c.feed packet none images, h₁.record false (.decoded none images)) := by
  obtain ⟨hnil, hready⟩ := hs.idle hidle
  change c.submitted = [] at hnil
  change c.ready = none at hready
  obtain ⟨hpointers, hanswers, horder, hends, hretained⟩ := hs.attributed
  change h₁.outputs = _ ++ c.ready.getD [] at horder
  have hsubmitted : (c.feed packet none images).submitted = [(c.fed.length, packet)] := by simp [Av1.feed, hnil]
  refine ⟨⟨hpointers, fun p hp => answered_append packet (hanswers p hp), ?_, hends, ?_⟩, fun _ => ?_, nofun, hs.demuxEnded⟩
  · simp [Account.record, Av1.feed, horder, hready]
  · intro p hp
    change p ∈ (c.feed packet none images).submitted at hp
    rw [hsubmitted, List.mem_singleton] at hp
    rw [hp]
    simp [Av1.feed]
  · exact ⟨c.fed, packet, images, rfl, hsubmitted, rfl, rfl, hcarries⟩

/-- A turn behind the images, with no packet kept. -/
theorem Av1.Sound.rest (hs : Av1.Sound (c, h₁)) (hidle : c.outputPending = false) (hrest : c.Rest answers₁ event₁ c')
    (hcodec : Av1.Codec (c, h₁) answers₁)
    (hfails : ∀ packet error images, answers₁ = [.demux (.packet packet), .decode error images] → error = none) :
    Av1.Sound (c', h₁.record false event₁) := by
  cases hrest with
  | stopped => exact hs
  | demuxEnded =>
      obtain ⟨hpointers, hanswers, horder, hends, hretained⟩ := hs.attributed
      exact ⟨⟨hpointers, hanswers, horder, hends, hretained⟩, hs.active, hs.idle, fun _ => rfl⟩
  | @decoded packet error images =>
      obtain rfl : error = none := hfails packet error images rfl
      exact hs.fed hidle (hcodec packet none images rfl)
  | finished heos =>
      have hended : h₁.demuxEnded = true := hs.demuxEnded heos
      obtain ⟨hpointers, hanswers, horder, hends, hretained⟩ := hs.attributed
      change h₁.early = false at hends
      refine ⟨⟨hpointers, hanswers, horder, ?_, hretained⟩, hs.active, hs.idle, hs.demuxEnded⟩
      simp [Account.record, hended, hends]

theorem Av1.Sound.step {s t : Av1 × Account AomImage} (hs : Av1.Sound s) (hst : Av1.FineStep s answers₁ t) : Av1.Sound t := by
  obtain ⟨c, h⟩ := s
  obtain ⟨c', h'⟩ := t
  obtain ⟨hst, hcodec, hfails, hcopies⟩ := hst
  obtain ⟨event, hturn, rfl⟩ := accountedStep_inv hst
  rw [Av1.turn] at hturn
  split at hturn
  case isTrue hpending =>
      split at hturn
      case h_1 image rest hready =>
          obtain ⟨⟨ended, d⟩, hgive, heq⟩ := Option.map_eq_some_iff.mp hturn
          cases heq
          obtain rfl : answers₁ = [] := hcopies (by simp [hready])
          exact hs.took hpending hready hgive
      case h_2 hnone =>
          have hready : c.ready.getD [] = [] := by
            cases himages : c.ready with
            | none => rfl
            | some images =>
                cases images with
                | nil => rfl
                | cons image rest => exact absurd himages (hnone image rest)
          exact (hs.release hpending hready).rest rfl (Av1.rest_of_restTurn hturn) hcodec hfails
  case isFalse hpending => exact hs.rest (by simpa using hpending) (Av1.rest_of_restTurn hturn) hcodec hfails

theorem Av1.sound_opened : Av1.Sound (Av1.opened, .empty) where
  attributed := ⟨rfl, by simp [Account.empty], rfl, rfl, by simp [Av1.opened]⟩
  active := nofun
  idle _ := ⟨rfl, rfl⟩
  demuxEnded := nofun

/-! ## Runs -/

/-- In every run of the VP9 loop where each packet gives an image, and in every run of the AV1 loop where no decode call fails, frames are
attributed to their packets. -/
theorem frames_attributed (turns₁ : List (List Answer)) (s₁ : Vp9 × Account Image) (turns₂ : List (List Av1Answer))
    (s₂ : Av1 × Account AomImage) :
    (Run Vp9.FineStep (Vp9.opened, .empty) turns₁ s₁ → Vp9.Attributed s₁) ∧
      (Run Av1.FineStep (Av1.opened, .empty) turns₂ s₂ → Av1.Attributed s₂) := by
  constructor
  · intro hrun
    exact (hrun.invariant Vp9.sound_opened fun hs hst => hs.step hst).attributed
  · intro hrun
    exact (hrun.invariant Av1.sound_opened fun hs hst => hs.step hst).attributed

theorem step_of_turn {turn : B → List A → Option (Event I × B)} {drains : Bool} {b b' : B} {answers : List A} {h : Account I}
    {event : Event I} (hturn : turn b answers = some (event, b')) :
    AccountedStep turn drains (b, h) answers (b', h.record drains event) :=
  ⟨by rw [TurnStep, hturn]; rfl, by simp only [account, hturn]⟩

theorem Vp9.gives (image : Image) (b : Vp9) : ∃ ended b', Vp9.give [] image b = some (ended, b') := by
  rw [Vp9.give]
  split <;> exact ⟨_, _, rfl⟩

theorem Av1.gives (image : AomImage) (c : Av1) : ∃ ended, Av1.give [] image c = some (ended, c) := by
  rw [Av1.give]
  split <;> exact ⟨_, rfl⟩

theorem Av1.turn_took {rest : List AomImage} {ended : ReadEnd DecodedFrame} (hpending : c.outputPending = true)
    (hready : c.ready = some (aom :: rest)) (hgive : Av1.give answers₁ aom { c with ready := some rest } = some (ended, c')) :
    c.turn answers₁ = some (.took aom (c.keeps aom.userPriv) ended, c') := by
  rw [Av1.turn, if_pos hpending, hready]
  simp only [hgive, Option.map_some]

def keptPacket : EncodedPacket := ⟨[1], 40000000⟩

def vp9Image : Image := ⟨true, 2, 2, some 0, fun _ => ⟨0, fun _ => 0⟩, fun _ => 2⟩

def av1Image : AomImage := ⟨kAomImgFmtI420, 8, 2, 2, some 0, fun _ => ⟨0, fun _ => 0⟩, fun _ => 2⟩

/-- A packet of one image, and a packet of two. -/
theorem frames_attributed_small :
    (∃ turns s, Run Vp9.FineStep (Vp9.opened, .empty) turns s ∧ s.2.answered.length = 1 ∧ Vp9.Attributed s) ∧
    ∃ turns s, Run Av1.FineStep (Av1.opened, .empty) turns s ∧ s.2.answered.length = 2 ∧ Av1.Attributed s := by
  constructor
  · let b := Vp9.opened.feed keptPacket ⟨none, [vp9Image]⟩
    let h := Account.empty.record true (.decoded none [vp9Image])
    obtain ⟨ended, b', hgive⟩ := Vp9.gives vp9Image { b with ready := [] }
    have decoded : Vp9.FineStep (Vp9.opened, .empty) [.demux (.packet keptPacket), .decode ⟨none, [vp9Image]⟩] (b, h) := by
      refine ⟨step_of_turn rfl, ⟨?_, nofun⟩, ?_, nofun⟩
      · rintro packet answer ⟨⟩
        simp [vp9Image, Vp9.opened]
      · rintro packet answer ⟨⟩
        simp
    have took : Vp9.FineStep (b, h) [] (b', h.record true (.took vp9Image true ended)) :=
      ⟨step_of_turn (turn_took rfl hgive), ⟨nofun, nofun⟩, nofun, fun _ => rfl⟩
    have hrun := Run.snoc (.snoc .nil decoded) took
    exact ⟨_, _, hrun, rfl, (frames_attributed _ _ [] (Av1.opened, .empty)).1 hrun⟩
  · let c := Av1.opened.feed keptPacket none [av1Image, av1Image]
    let h := Account.empty.record false (.decoded none [av1Image, av1Image])
    obtain ⟨first, hfirst⟩ := Av1.gives av1Image { c with ready := some [av1Image] }
    obtain ⟨second, hsecond⟩ := Av1.gives av1Image { c with ready := some [] }
    have decoded : Av1.FineStep (Av1.opened, .empty)
        [.demux (.packet keptPacket), .decode none [av1Image, av1Image]] (c, h) := by
      refine ⟨step_of_turn rfl, ?_, ?_, nofun⟩
      · rintro packet error images ⟨⟩
        simp [av1Image, Av1.opened]
      · rintro packet error images ⟨⟩
        rfl
    have took₁ : Av1.FineStep (c, h) [] ({ c with ready := some [av1Image] }, h.record false (.took av1Image true first)) :=
      ⟨step_of_turn (Av1.turn_took rfl rfl hfirst), nofun, nofun, fun _ => rfl⟩
    have took₂ : Av1.FineStep ({ c with ready := some [av1Image] }, h.record false (.took av1Image true first)) []
        ({ c with ready := some [] }, (h.record false (.took av1Image true first)).record false (.took av1Image true second)) :=
      ⟨step_of_turn (Av1.turn_took rfl rfl hsecond), nofun, nofun, fun _ => rfl⟩
    have hrun := Run.snoc (.snoc (.snoc .nil decoded) took₁) took₂
    exact ⟨_, _, hrun, rfl, (frames_attributed [] (Vp9.opened, .empty) _ _).2 hrun⟩

/-- A VP9 packet without an image is kept, and so is an AV1 packet that fails to decode. -/
theorem packets_pile_up :
    (∃ turns s, Run (Restrict (AccountedStep Vp9.turn true) Vp9.Codec) (Vp9.opened, .empty) turns s ∧ ¬ Vp9.Attributed s) ∧
    ∃ turns s, Run (Restrict (AccountedStep Av1.turn false) Av1.Codec) (Av1.opened, .empty) turns s ∧ ¬ Av1.Attributed s := by
  constructor
  · have hidden : Restrict (AccountedStep Vp9.turn true) Vp9.Codec (Vp9.opened, .empty)
        [.demux (.packet keptPacket), .decode ⟨none, []⟩]
        (Vp9.opened.feed keptPacket ⟨none, []⟩, Account.empty.record true (.decoded none [])) := by
      refine ⟨step_of_turn rfl, ?_, nofun⟩
      rintro packet answer ⟨⟩
      simp
    refine ⟨_, _, .single hidden, fun h => ?_⟩
    obtain ⟨image, himage, -⟩ := h.retained (0, keptPacket) List.mem_cons_self
    cases himage
  · have failed : Restrict (AccountedStep Av1.turn false) Av1.Codec (Av1.opened, .empty)
        [.demux (.packet keptPacket), .decode (some "corrupt") []]
        (Av1.opened.feed keptPacket (some "corrupt") [], Account.empty.record false (.decoded (some "corrupt") [])) := by
      refine ⟨step_of_turn rfl, ?_⟩
      rintro packet error images ⟨⟩
      simp
    have next : Restrict (AccountedStep Av1.turn false) Av1.Codec
        (Av1.opened.feed keptPacket (some "corrupt") [], Account.empty.record false (.decoded (some "corrupt") []))
        [.demux (.packet keptPacket), .decode none []]
        ((Av1.opened.feed keptPacket (some "corrupt") []).feed keptPacket none [],
          (Account.empty.record false (.decoded (some "corrupt") [])).record false (.decoded none [])) := by
      refine ⟨step_of_turn rfl, ?_⟩
      rintro packet error images ⟨⟩
      simp
    refine ⟨_, _, .snoc (.single failed) next, fun h => ?_⟩
    obtain ⟨-, hlast⟩ := h.retained (0, keptPacket) List.mem_cons_self
    cases hlast

end MkvCodec.Decoder
