import MkvCodec.Decoder.Vp9

/-!
# What a read of the VP9 backend can do

The ways through the loop of `read_frame`, and when a read fails without having given a packet to the codec.
-/

namespace MkvCodec.Decoder

/-- The ways through the loop, each with the calls it makes. -/
inductive Reads : List Answer → Vp9 → ReadEnd DecodedFrame → Vp9 → Prop
  | frame {b image rest frame} (hready : b.ready = image :: rest)
      (hcopy : copyImage image (Vp9.pts { b with ready := rest } image) = some frame) :
      Reads [] b (.frame frame) (Vp9.forget { b with ready := rest } image)
  | unsupported {b image rest} (hready : b.ready = image :: rest) (hbad : image.supported = false) :
      Reads [] b (.ended unsupportedImage unsupportedImage_ne_ok) (Vp9.forget { b with ready := rest } image)
  | copyThrew {b image rest what} (hready : b.ready = image :: rest) :
      Reads [.threw what] b (.threw what) { b with ready := rest }
  | demuxThrew {b what} (hready : b.ready = []) (heos : b.demuxEos = false) :
      Reads [.threw what] b (.threw what) b
  | demuxFailed {b error} (hready : b.ready = []) (heos : b.demuxEos = false) :
      Reads [.demux (.failed error)] b (.ended ⟨.errorIo, error⟩ Result.errorIo_ne_ok) b
  | demuxEnd {b rest ended b'} (hready : b.ready = []) (heos : b.demuxEos = false)
      (h : Reads rest { b with demuxEos := true } ended b') : Reads (.demux .endOfStream :: rest) b ended b'
  | packetThrew {b packet what} (hready : b.ready = []) (heos : b.demuxEos = false) :
      Reads [.demux (.packet packet), .threw what] b (.threw what) b
  | feedFailed {b packet answer error} (hready : b.ready = []) (heos : b.demuxEos = false)
      (herror : answer.error = some error) :
      Reads [.demux (.packet packet), .decode answer] b (codecError error) (b.feed packet answer)
  | feed {b packet answer rest ended b'} (hready : b.ready = []) (heos : b.demuxEos = false)
      (herror : answer.error = none) (h : Reads rest (b.feed packet answer) ended b') :
      Reads (.demux (.packet packet) :: .decode answer :: rest) b ended b'
  | drainFailed {b answer error} (hready : b.ready = []) (heos : b.demuxEos = true)
      (hdrained : b.drained = false) (herror : answer.error = some error) :
      Reads [.decode answer] b (codecError error) (b.drain answer)
  | drain {b answer rest ended b'} (hready : b.ready = []) (heos : b.demuxEos = true)
      (hdrained : b.drained = false) (herror : answer.error = none) (h : Reads rest (b.drain answer) ended b') :
      Reads (.decode answer :: rest) b ended b'
  | finished {b} (hready : b.ready = []) (heos : b.demuxEos = true) (hdrained : b.drained = true) :
      Reads [] b (.ended ⟨.endOfStream, ""⟩ Result.endOfStream_ne_ok) b

theorem copyImage_none {image : Image} {ptsNs : Int} (h : copyImage image ptsNs = none) :
    image.supported = false := by
  unfold copyImage at h
  split at h
  · cases h
  · rename_i hs; simpa using hs

theorem copyImage_some {image : Image} {ptsNs : Int} {frame : DecodedFrame}
    (h : copyImage image ptsNs = some frame) : image.supported = true := by
  unfold copyImage at h
  split at h
  · assumption
  · cases h

theorem give_reads {answers : List Answer} {b b' : Vp9} {image : Image} {rest : List Image}
    {ended : ReadEnd DecodedFrame} (hready : b.ready = image :: rest)
    (h : Vp9.give answers image { b with ready := rest } = some (ended, b')) : Reads answers b ended b' := by
  unfold Vp9.give at h
  split at h
  · split at h
    · rename_i hcopy; cases h; exact .frame hready hcopy
    · rename_i hcopy; cases h; exact .unsupported hready (copyImage_none hcopy)
  · cases h; exact .copyThrew hready
  · cases h

theorem readFrame_reads {answers : List Answer} {b b' : Vp9} {ended : ReadEnd DecodedFrame}
    (h : readFrame answers b = some (ended, b')) : Reads answers b ended b' := by
  fun_induction readFrame answers b
  case case1 => exact give_reads ‹_› h
  case case2 => cases h; exact .demuxThrew ‹_› (by simp_all)
  case case3 => cases h; exact .demuxFailed ‹_› (by simp_all)
  case case4 ih => exact .demuxEnd ‹_› (by simp_all) (ih h)
  case case5 => cases h; exact .packetThrew ‹_› (by simp_all)
  case case6 => cases h; exact .feedFailed ‹_› (by simp_all) ‹_›
  case case8 ih => exact .feed ‹_› (by simp_all) ‹_› (ih h)
  case case10 => cases h; exact .drainFailed ‹_› (by simp_all) (by simp_all) ‹_›
  case case12 ih => exact .drain ‹_› (by simp_all) (by simp_all) ‹_› (ih h)
  case case14 => cases h; exact .finished ‹_› (by simp_all) (by simp_all)
  -- the other answers do not belong to a read
  all_goals cases h

/-! ## Packets fed -/

theorem Reads.fed {answers : List Answer} {b b' : Vp9} {ended : ReadEnd DecodedFrame}
    (h : Reads answers b ended b') : ∃ packets, b'.fed = b.fed ++ packets := by
  induction h with
  | @frame b image rest frame hready hcopy =>
      refine ⟨[], ?_⟩
      unfold Vp9.forget
      split <;> simp
  | @unsupported b image rest hready hbad =>
      refine ⟨[], ?_⟩
      unfold Vp9.forget
      split <;> simp
  | copyThrew | demuxThrew | demuxFailed | packetThrew | drainFailed | finished => exact ⟨[], by simp [Vp9.drain]⟩
  | @feedFailed b packet => exact ⟨[packet], rfl⟩
  | demuxEnd hready heos h ih => exact ih
  | @feed b packet answer rest ended b' hready heos herror h ih =>
      obtain ⟨packets, hp⟩ := ih
      exact ⟨packet :: packets, by simp [hp, Vp9.feed]⟩
  | drain hready heos hdrained herror h ih => exact ih

theorem Reads.closed {answers : List Answer} {b b' : Vp9} {ended : ReadEnd DecodedFrame}
    (h : Reads answers b ended b') : b'.closed = b.closed := by
  induction h with
  | frame => unfold Vp9.forget; split <;> rfl
  | unsupported => unfold Vp9.forget; split <;> rfl
  | demuxEnd hready heos h ih => exact ih
  | feed hready heos herror h ih => exact ih
  | drain hready heos hdrained herror h ih => exact ih
  | _ => rfl

/-! ## The end of the stream -/

/-- Everything has been read, decoded and given. -/
structure Vp9.AtEnd (b : Vp9) : Prop where
  ready : b.ready = []
  demuxEos : b.demuxEos = true
  drained : b.drained = true
  opened : b.closed = false

/-- The read ends with an error. -/
def ReadEnd.failed {F : Type*} : ReadEnd F → Bool
  | .frame _ => false
  | .ended status _ => status.result.isError
  | .threw _ => true

theorem Reads.atEnd {answers : List Answer} {b b' : Vp9} {ended : ReadEnd DecodedFrame}
    (h : Reads answers b ended b') (hopen : b.closed = false) (hframe : ended.frame? = none)
    (hend : ended.failed = false) : b'.AtEnd := by
  induction h with
  | frame => cases hframe
  | unsupported | copyThrew | demuxThrew | demuxFailed | packetThrew | feedFailed | drainFailed => cases hend
  | demuxEnd hready heos h ih => exact ih hopen hframe hend
  | feed hready heos herror h ih => exact ih hopen hframe hend
  | drain hready heos hdrained herror h ih => exact ih hopen hframe hend
  | finished hready heos hdrained => exact ⟨hready, heos, hdrained, hopen⟩

theorem Vp9.AtEnd.reads {answers : List Answer} {b b' : Vp9} {ended : ReadEnd DecodedFrame} (hb : b.AtEnd)
    (h : Reads answers b ended b') : b' = b ∧ ended = .ended ⟨.endOfStream, ""⟩ Result.endOfStream_ne_ok := by
  obtain ⟨hready, heos, hdrained, -⟩ := hb
  cases h with
  | finished => exact ⟨rfl, rfl⟩
  | _ => simp_all

/-! ## A read that is refused -/

/-- The codec is given a packet. -/
def feeds : List Answer → Bool
  | .demux (.packet _) :: .decode _ :: _ => true
  | _ :: rest => feeds rest
  | [] => false

def Answer.fails : Answer → Bool
  | .threw _ | .demux (.failed _) => true
  | .decode answer => answer.error.isSome
  | .demux _ => false

/-- The image that the codec has after the last of the calls. -/
def Vp9.offered (b : Vp9) (answers : List Answer) : Option Image :=
  match answers.getLast? with
  | some (.decode answer) => answer.images.head?
  | _ => b.ready.head?

/-- The last call fails, or there is an image then that cannot be copied. -/
def Vp9.EndsBadly (b : Vp9) (answers : List Answer) : Prop :=
  answers.getLast?.any Answer.fails = true ∨ ∃ image, b.offered answers = some image ∧ image.supported = false

/-- The backend is closed, or the calls of the read give the codec no packet and end badly. -/
def Vp9.Refused (b : Vp9) (answers : List Answer) : Prop :=
  b.closed = true ∨ feeds answers = false ∧ b.EndsBadly answers

theorem Reads.fed_iff {answers : List Answer} {b b' : Vp9} {ended : ReadEnd DecodedFrame}
    (h : Reads answers b ended b') : b'.fed = b.fed ↔ feeds answers = false := by
  have hgrows := h.fed
  induction h with
  | @frame b image rest frame hready hcopy =>
      unfold Vp9.forget
      split <;> simp [feeds]
  | @unsupported b image rest hready hbad =>
      unfold Vp9.forget
      split <;> simp [feeds]
  | copyThrew | demuxThrew | demuxFailed | packetThrew | drainFailed | finished => simp [feeds, Vp9.drain]
  | feedFailed => simp [feeds, Vp9.feed]
  | demuxEnd hready heos h ih => simpa [feeds] using ih h.fed
  | @feed b packet answer rest ended b' hready heos herror h ih =>
      obtain ⟨packets, hp⟩ := h.fed
      simp [feeds, hp, Vp9.feed]
  | drain hready heos hdrained herror h ih => simpa [feeds, Vp9.drain] using ih h.fed

theorem Reads.failed_iff {answers : List Answer} {b b' : Vp9} {ended : ReadEnd DecodedFrame}
    (h : Reads answers b ended b') (hfeeds : feeds answers = false) :
    ended.failed = true ↔ b.EndsBadly answers := by
  unfold Vp9.EndsBadly Vp9.offered
  induction h with
  | frame hready hcopy => simp [ReadEnd.failed, hready, copyImage_some hcopy]
  | unsupported hready hbad => simp [ReadEnd.failed, Result.isError, unsupportedImage, hready, hbad]
  | copyThrew | demuxThrew | demuxFailed | packetThrew => simp [ReadEnd.failed, Result.isError, Answer.fails]
  | feedFailed | feed => cases hfeeds
  | drainFailed hready heos hdrained herror => simp [ReadEnd.failed, Result.isError, codecError, Answer.fails, herror]
  | finished hready => simp [ReadEnd.failed, Result.isError, hready]
  | @demuxEnd b rest ended b' hready heos h ih =>
      rw [ih hfeeds]
      cases rest with
      | nil => simp [Answer.fails]
      | cons answer rest => simp [List.getLast?_cons_cons]
  | @drain b answer rest ended b' hready heos hdrained herror h ih =>
      rw [ih hfeeds]
      cases h with
      | copyThrew => simp [Answer.fails]
      | demuxThrew _ heos' | demuxFailed _ heos' | demuxEnd _ heos' | packetThrew _ heos' => simp_all [Vp9.drain]
      | feedFailed _ heos' | feed _ heos' => simp_all [Vp9.drain]
      | drainFailed _ _ hdrained' | drain _ _ hdrained' => cases hdrained'
      | _ => simp [Answer.fails, herror, Vp9.drain]

/-- A read fails and gives the codec no packet exactly when it is refused. -/
theorem Vp9.read_refused {answers : List Answer} {b b' : Vp9} {ended : ReadEnd DecodedFrame}
    (h : b.read answers = some (ended, b')) : ended.failed = true ∧ b'.fed = b.fed ↔ b.Refused answers := by
  unfold Vp9.read at h
  unfold Vp9.Refused
  split at h
  case isTrue hclosed =>
      cases answers with
      | nil => cases h; simp [hclosed, ReadEnd.failed, Result.isError]
      | cons => cases h
  case isFalse hclosed =>
      have hreads := readFrame_reads h
      rw [hreads.fed_iff]
      have hiff := hreads.failed_iff
      simp only [hclosed]
      grind

/-! ## A read after the end, and after the close -/

theorem Vp9.read_closed {answers : List Answer} {b b' : Vp9} {ended : ReadEnd DecodedFrame}
    (h : b.read answers = some (ended, b')) : b'.closed = b.closed := by
  unfold Vp9.read at h
  split at h
  · cases answers with
    | nil => cases h; rfl
    | cons => cases h
  · exact (readFrame_reads h).closed

/-- The backend has nothing more to give. -/
def Vp9.Over (b : Vp9) : Prop := b.AtEnd ∨ b.closed = true

theorem Vp9.over_of_end {answers : List Answer} {b b' : Vp9} {ended : ReadEnd DecodedFrame}
    (h : b.read answers = some (ended, b')) (hframe : ended.frame? = none) (hend : ended.failed = false) :
    b'.Over := by
  cases hclosed : b.closed with
  | true => exact .inr (by rw [Vp9.read_closed h, hclosed])
  | false =>
      simp only [Vp9.read, hclosed, Bool.false_eq_true, ↓reduceIte] at h
      exact .inl ((readFrame_reads h).atEnd hclosed hframe hend)

/-- Then a read changes nothing and returns the end of the stream, or the refusal of a closed decoder. -/
theorem Vp9.Over.read {answers : List Answer} {b b' : Vp9} {ended : ReadEnd DecodedFrame} (hover : b.Over)
    (h : b.read answers = some (ended, b')) :
    b' = b ∧ ∃ status hne, ended = .ended status hne ∧
      (status.result = .endOfStream ∨ b.closed = true ∧ status.result = .errorInvalidState) := by
  unfold Vp9.read at h
  split at h
  case isTrue hclosed =>
      cases answers with
      | nil => cases h; exact ⟨rfl, _, _, rfl, .inr ⟨hclosed, rfl⟩⟩
      | cons => cases h
  case isFalse hclosed =>
      obtain ⟨rfl, rfl⟩ := (hover.resolve_right hclosed).reads (readFrame_reads h)
      exact ⟨rfl, _, _, rfl, .inl rfl⟩

theorem Vp9.close_fed (b : Vp9) : b.close.2.fed = b.fed := by
  unfold Vp9.close
  split <;> rfl

theorem Vp9.close_closed (b : Vp9) : b.close.2.closed = true := by
  unfold Vp9.close
  split
  · assumption
  · rfl

end MkvCodec.Decoder
